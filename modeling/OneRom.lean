import OneRom.OtpRoundTrip
import OneRom.OtpFirmware
import OneRom.Flash
import OneRom.BitLines
import OneRom.ChipTypes
import OneRom.CsConfig
import OneRom.SlotLayout
import OneRom.RomImage
import OneRom.CheckCs
import OneRom.Checks
import OneRom.StatedLines
import OneRom.MultiCs
import OneRom.Bonds
import OneRom.DeriveAddr
import OneRom.Shared
import OneRom.Circular
import OneRom.Rtt
import OneRom.RttHost
import OneRom.RttFifo
import OneRom.LedEngine
import OneRom.LedHold
import OneRom.LedPin
import OneRom.Plugins
import OneRom.SignedRows
import OneRom.Signers
import OneRom.UsbGpio
import OneRom.Fallible
import OneRom.Commission
import OneRom.OtpReads
import OneRom.CommissionPlan
import OneRom.CommissionPrepare
import OneRom.CommissionRuns
import OneRom.CommissionCommit
import OneRom.CommissionExecute
import OneRom.CommissionReplan
import OneRom.OtpPermitted
import OneRom.CommissionResume
import OneRom.HexFile
import OneRom.FlashPlan
import OneRom.LabDump
import OneRom.Boot
import OneRom.BootMain
import OneRom.BootSelect
import OneRom.BootTrust
import OneRom.SelectJumpers
import OneRom.JumperChoice
import OneRom.Git
import OneRom.RecordFile
import OneRom.SigningServer
import OneRom.SigningSafe
import OneRom.V1Boards
import OneRom.V1Image
import OneRom.V1Lines
import OneRom.Cursor
import OneRom.LabRpc
import OneRom.SlotArg
import OneRom.SlotParts
import OneRom.Resumable
import OneRom.UsbTransfer
import OneRom.UsbBanner
import OneRom.ImageFile
import OneRom.PluginImages
import OneRom.PluginFlash
import OneRom.AlgConfig
import OneRom.RomSlot
import OneRom.PinMaps
import OneRom.Capture
import OneRom.AddrSearch
import OneRom.SelectRun
import OneRom.AddrMap
import OneRom.GpioUse
import OneRom.PluginEntry
import OneRom.Uptime
import OneRom.RamSlot
import OneRom.FallbackMatch
import OneRom.FlashSlotInfo
import OneRom.KnockWait
import OneRom.Printf
import OneRom.Fmt
import OneRom.FmtFields
import OneRom.FmtFormat
import OneRom.Placement
import OneRom.HexLines
import OneRom.Ihex
import OneRom.Deinterleave
import OneRom.Srec
import OneRom.Calls
import OneRom.Editor
import OneRom.RawImage
import OneRom.TransformText
import OneRom.EditBuf
import OneRom.PlainEditor
import OneRom.EditScreen
import OneRom.EditRuns
import OneRom.SlotTable
import OneRom.Listener
import OneRom.Rbcp
import OneRom.RbcpCommands
import OneRom.RbcpDevices
import OneRom.RbcpRun
import OneRom.RbcpFrames
import OneRom.RbcpWork
import OneRom.RbcpSession
import OneRom.RbcpHandshake
import OneRom.RbcpReset
import OneRom.Through
import OneRom.RbcpMemory
import OneRom.RbcpNv
import OneRom.RbcpRefusal
import OneRom.RbcpMain
