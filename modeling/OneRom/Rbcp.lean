import OneRom.FlashSlotInfo
import OneRom.LedEngine
import OneRom.Listener
import OneRom.RamSlot

/-!
The plugin through which the host of the ROM bus controls the device: what it knows, and the calls
of the firmware it is built from.

The host reads addresses, and the device takes their low bytes as commands. In command-response
mode it answers in a region of the RAM slot that is served, the back-channel: a header of 8 bytes
and a data section. The captures a read of the ring skips, and those a completion drops, are not
modelled: the input is what the reads return. The log is left out.
-/

namespace OneRom.Rbcp

open OneRom.FlashSlotInfo (FlashSlots)
open OneRom.LedEngine (LedRequest)
open OneRom.Listener
open OneRom.PinMaps
open OneRom.RamSlot (Memory Runtime RamSlotInfo oraGetRamSlotCount oraGetRamSlotInfo
  oraGetActiveRamSlot pioReprogramRamRomSlot)

def RBCP_DEFAULT_COMPLETE : UInt8 := 0xBB
def RBCP_DEFAULT_STATUS_OK : UInt8 := 0xCC
def HDR_LAST_CMD_GROUP : ℕ := 0
def HDR_LAST_CMD_CMD : ℕ := 1
def HDR_TOKEN_LSB : ℕ := 2
def HDR_TOKEN_MSB : ℕ := 3
def HDR_PROGRESS : ℕ := 4
def HDR_RESPONSE : ℕ := 5
def HDR_RESERVED_0 : ℕ := 6
def HDR_RESERVED_1 : ℕ := 7
def HDR_SIZE : ℕ := 8
def MAX_HOST_SLOTS : ℕ := 170
def NV_STORAGE_SIZE : ℕ := 4096
def NV_FLASH_PAGE : ℕ := 256
def NV_NOSLOT_SIZE : ℕ := 32
def NV_NOSLOT_BASE : ℕ := NV_STORAGE_SIZE - NV_NOSLOT_SIZE
def NV_NOSLOT_PAGE : ℕ := NV_STORAGE_SIZE - NV_FLASH_PAGE
def BOOT_SLOT_NONE : UInt8 := 0xFF

/-! ### The firmware -/

/-- The arrays of GPIOs in the metadata. -/
inductive GpioKey
  | sel | x1 | x2
  deriving DecidableEq

structure GpioInfo where
  use : UInt8
  level : UInt8
  isOutput : UInt8

/-- What the firmware says of an LED. -/
structure OraLedState where
  present : Bool
  mode : UInt8
  red : UInt8
  green : UInt8
  blue : UInt8
  brightness : UInt8
  periodMs : UInt16

/-- The firmware under the plugin, as far as it isn't modelled: its log channels, its GPIOs and its
LEDs, and the calls on them. A call that may be missing is an `Option`. A call that is refused
leaves what it would have changed as it was: then it returns `none`. -/
class Firmware where
  Log : Type
  Gpio : Type
  Led : Type
  /-- The flash slots that aren't plugins, and the images of those that are in flash. -/
  flashSlots : FlashSlots
  flashImage : ℕ → Option (ℕ × (ℕ → UInt8))
  /-- The number of flash slots, with the plugins. -/
  allFlashSlots : UInt8
  /-- The type of the ROM that is served. -/
  romType : ℕ
  chipSizeFromType : ℕ → ℕ
  unobservedAddrBits : ℕ
  deviceVersion : Option (List UInt8)
  /-- The chip variant and the slot that was booted, in the metadata. -/
  rpVariant : Option ℕ
  romSlotIndex : Option ℕ
  metadataUintAt : Option (GpioKey → ℕ → Option UInt8)
  hasUptime : Bool
  logQuery : Option (ℕ → Log → Option (ℕ × ℕ))
  logOpenWrite : Option (ℕ → Log → Option Log)
  logWrite : Option (ℕ → List UInt8 → Log → Option Log)
  logOpenRead : Option (ℕ → Log → Option Log)
  logRead : Option (ℕ → ℕ → Log → Option (List UInt8 × Log))
  gpioSet : Option (UInt8 → UInt8 → Gpio → Option Gpio)
  gpioQuery : Option (UInt8 → Gpio → Option GpioInfo)
  ledGet : Option (UInt8 → Led → Option OraLedState)
  ledSet : Option (LedRequest → Led → Option Led)
  /-- Whether the bootrom's functions and exclusive mode are to be had, at each attempt to write
  flash, and the bytes that are then on the stack below the window. -/
  nvReady : ℕ → Bool
  stackByte : ℕ → ℕ → UInt8

variable [Firmware]

/-! ### The plugin -/

structure RbcpCfg where
  commandPage : ℕ
  complete : UInt8
  statusOk : UInt8
  regionOffset : ℕ
  regionEnd : ℕ
  dataSize : ℕ

structure NvState where
  active : Bool
  stagingSlot : UInt8
  stagingBase : ℕ
  stagingSize : ℕ

/-- A write of NV storage that is left until the command's own work is done. -/
inductive NvDeferred
  | none
  | slot
  | noslot (byte : UInt8) (offset : ℕ)

/-- What is written into the back-channel. -/
inductive BackWrite
  | header (slot : UInt8) (offset : ℕ) (val : UInt8)
  | data (slot : UInt8) (offset : ℕ) (bytes : List UInt8)

/-- The plugin's state, and the device's. -/
structure Plugin where
  active : Bool
  cfg : RbcpCfg
  tokenLsb : UInt8
  tokenMsb : UInt8
  activeSlot : UInt8
  nvState : NvState
  nvDeferred : NvDeferred
  bootFlashSlot : UInt8
  bootRamSlot : UInt8
  pipesClaimed : UInt8
  pipesReadClaimed : UInt8
  rt : Runtime
  mem : Memory
  /-- NV storage, which is in flash. -/
  nv : ℕ → UInt8
  log : Firmware.Log
  gpio : Firmware.Gpio
  led : Firmware.Led
  /-- The attempts to write flash. -/
  nvWrites : ℕ
  /-- What has been written into the back-channel. No code reads it. -/
  backWrites : List BackWrite

/-- What a command's handler comes to once it has its arguments. -/
abbrev Step := Plugin → Bool × Plugin

/-- A program that reads bytes off the ring. -/
abbrev Command (α : Type) := Hearing UInt8 Plugin α

def ringReadByte : Command UInt8 := hear

/-! ### RAM slots -/

def hostSlotCount (p : Plugin) : ℕ :=
  let total := oraGetRamSlotCount p.rt
  if MAX_HOST_SLOTS < total then MAX_HOST_SLOTS else total

/-- The host may name the slot. -/
def hostSlotValid (p : Plugin) (slot : UInt8) : Prop := slot.toNat < hostSlotCount p

instance (p : Plugin) (slot : UInt8) : Decidable (hostSlotValid p slot) :=
  inferInstanceAs (Decidable (_ < _))

def reprogram (p : Plugin) (slot : UInt8) (offset : ℕ) (bytes : List UInt8) : Option Plugin :=
  match pioReprogramRamRomSlot p.rt p.mem
      ⟨slot, UInt32.ofNat offset, UInt32.ofNat bytes.length⟩ (some (bytes.getD · 0)) 1 with
  | .ok mem => some { p with mem }
  | .error _ => none

/-- Has another RAM slot served. -/
def setActiveRamSlot (p : Plugin) (slot : UInt8) : Option Plugin :=
  match oraGetRamSlotInfo p.rt slot.toNat with
  | .ok info => some { p with rt := { p.rt with romTable := info.addr } }
  | .error _ => none

/-- Memory with other bytes from an address on. -/
def fill (mem : Memory) (addr size : ℕ) (data : ℕ → UInt8) : Memory := fun x =>
  if addr ≤ x ∧ x < addr + size then data (x - addr) else mem x

/-- The image is copied as it is, and has to be of the slot's size. -/
def copyFlashToRam (p : Plugin) (flashSlot ramSlot : UInt8) : Option Plugin :=
  match Firmware.flashImage flashSlot.toNat, oraGetRamSlotInfo p.rt ramSlot.toNat with
  | some (size, data), .ok info =>
    if size ≠ info.size then none else some { p with mem := fill p.mem info.addr size data }
  | _, _ => none

/-! ### The back-channel -/

def pendingVal (p : Plugin) : UInt8 := ~~~p.cfg.complete
def failedVal (p : Plugin) : UInt8 := ~~~p.cfg.statusOk

/-- Nothing is written where the slot isn't there, or the byte isn't in it. -/
def hdrWrite (slot : UInt8) (hdrOffset : ℕ) (val : UInt8) (p : Plugin) : Plugin :=
  let physAddr := pioMapAddrToPhys p.rt.currentSlot (p.cfg.regionOffset + hdrOffset)
  let physData := UInt8.ofNat (pioMapDataToPhys p.rt.currentSlot val.toNat)
  match oraGetRamSlotInfo p.rt slot.toNat with
  | .error _ => p
  | .ok info =>
    if info.size ≤ physAddr then p
    else
      { p with
        mem := Function.update p.mem (info.addr + physAddr) physData
        backWrites := p.backWrites ++ [.header slot hdrOffset val] }

def hdrRead (slot : UInt8) (hdrOffset : ℕ) (p : Plugin) : Option UInt8 :=
  match oraGetRamSlotInfo p.rt slot.toNat with
  | .error _ => none
  | .ok info =>
    let physOffset := pioMapAddrToPhys p.rt.currentSlot (p.cfg.regionOffset + hdrOffset)
    some (UInt8.ofNat (pioDemangleData p.rt.currentSlot (p.mem (info.addr + physOffset)).toNat))

/-- Bytes past the end of the data section are left out. -/
def dataWrite (slot : UInt8) (dataOffset : ℕ) (buf : List UInt8) (p : Plugin) : Plugin :=
  if p.cfg.dataSize ≤ dataOffset then p
  else
    let buf := buf.take (p.cfg.dataSize - dataOffset)
    match reprogram p slot (p.cfg.regionOffset + HDR_SIZE + dataOffset) buf with
    | none => p
    | some p => { p with backWrites := p.backWrites ++ [.data slot dataOffset buf] }

/-- Header bytes, one after the other. -/
def hdrWrites (slot : UInt8) (writes : List (ℕ × UInt8)) (p : Plugin) : Plugin :=
  writes.foldl (fun p write => hdrWrite slot write.1 write.2 p) p

def nextToken (p : Plugin) : Plugin :=
  let p := { p with tokenLsb := p.tokenLsb + 1 }
  if p.tokenLsb = 0 then { p with tokenMsb := p.tokenMsb + 1 } else p

def cmdBegin (slot group cmd : UInt8) (p : Plugin) : Plugin :=
  let p := nextToken (hdrWrite slot HDR_PROGRESS (pendingVal p) p)
  hdrWrites slot
    [(HDR_TOKEN_LSB, p.tokenLsb), (HDR_TOKEN_MSB, p.tokenMsb), (HDR_LAST_CMD_GROUP, group),
      (HDR_LAST_CMD_CMD, cmd)] p

/-- Completion is signalled last. -/
def cmdEnd (slot : UInt8) (ok entering : Bool) (p : Plugin) : Plugin :=
  hdrWrites slot
    ([(HDR_RESPONSE, if ok then p.cfg.statusOk else failedVal p)] ++
      (if entering then [(HDR_RESERVED_0, 0), (HDR_RESERVED_1, 0)] else []) ++
      [(HDR_PROGRESS, p.cfg.complete)]) p

/-! ### What a session starts from -/

def initNvState (p : Plugin) : Plugin :=
  { p with nvState := ⟨false, 0, 0, 0⟩, nvDeferred := .none }

/-- The index into the ring is left out. -/
def initRbcp (p : Plugin) : Plugin :=
  initNvState
    { p with
      active := false
      activeSlot := 0
      cfg := ⟨0, RBCP_DEFAULT_COMPLETE, RBCP_DEFAULT_STATUS_OK, 0, 0, 0⟩
      tokenLsb := 0
      tokenMsb := 0 }

def initBootSlots (p : Plugin) : Plugin :=
  let p := { p with bootFlashSlot := BOOT_SLOT_NONE, bootRamSlot := BOOT_SLOT_NONE }
  match Firmware.romSlotIndex with
  | none => p
  | some romSlotIndex =>
    let pluginSlots := Firmware.allFlashSlots - Firmware.flashSlots.total
    if romSlotIndex < pluginSlots.toNat then p
    else
      match oraGetActiveRamSlot p.rt with
      | .error _ => p
      | .ok ramSlot =>
        { p with
          bootFlashSlot := UInt8.ofNat (romSlotIndex - pluginSlots.toNat)
          bootRamSlot := UInt8.ofNat ramSlot }

end OneRom.Rbcp
