import OneRom.RbcpDevices

/-!
The commands as they come off the ring: a group, a number in it, and the arguments. `runCommand`
does one in the order the protocol asks for, and `commands` some one after the other. A host in
command mode knocks before each, and the two bytes after the knock are the command's.
-/

namespace OneRom.Rbcp

open OneRom.Fallible OneRom.Listener

variable [Firmware]

inductive Cmd
  | nop | enterCmdResp | exitCmdRespAck | exitCmdRespSilent | switchAndExit | loadAndExit
  | exitCmdRespRestore
  | getFlashSlotCount | getFlashSlotInfo | getFlashSlotInfoAll | getRamSlotInfoAll | getDeviceType
  | getDeviceVersion | getProtocolVersion | slotPeek | getBootSlotInfo
  | slotPoke | switchSlot | loadSlot | slotPokeAllByte
  | getNvCapability | nvPeek | nvPokeBegin | nvPoke | nvPokeCommit | nvPokeDiscard
  | nvPokeCommitByte
  | getPipeCapability | getPipeInfo | pipeWrite | pipeRead
  | getAuxCapability | getAuxGroupInfo | getAuxPinInfo | setAux | setAuxAndExit | setAuxSwitchExit
  | getLedCapability | getLedInfo | getLedModeInfo | setLed
  | rbcpReset
  deriving DecidableEq

namespace Cmd

def all : List Cmd :=
  [nop, enterCmdResp, exitCmdRespAck, exitCmdRespSilent, switchAndExit, loadAndExit,
    exitCmdRespRestore,
    getFlashSlotCount, getFlashSlotInfo, getFlashSlotInfoAll, getRamSlotInfoAll, getDeviceType,
    getDeviceVersion, getProtocolVersion, slotPeek, getBootSlotInfo,
    slotPoke, switchSlot, loadSlot, slotPokeAllByte,
    getNvCapability, nvPeek, nvPokeBegin, nvPoke, nvPokeCommit, nvPokeDiscard, nvPokeCommitByte,
    getPipeCapability, getPipeInfo, pipeWrite, pipeRead,
    getAuxCapability, getAuxGroupInfo, getAuxPinInfo, setAux, setAuxAndExit, setAuxSwitchExit,
    getLedCapability, getLedInfo, getLedModeInfo, setLed,
    rbcpReset]

/-- The group and the number in it. -/
def code : Cmd → UInt8 × UInt8
  | nop => (0x00, 0x00)
  | enterCmdResp => (0x00, 0x01)
  | exitCmdRespAck => (0x00, 0x02)
  | exitCmdRespSilent => (0x00, 0x03)
  | switchAndExit => (0x00, 0x04)
  | loadAndExit => (0x00, 0x05)
  | exitCmdRespRestore => (0x00, 0x06)
  | getFlashSlotCount => (0x01, 0x00)
  | getFlashSlotInfo => (0x01, 0x01)
  | getFlashSlotInfoAll => (0x01, 0x02)
  | getRamSlotInfoAll => (0x01, 0x03)
  | getDeviceType => (0x01, 0x04)
  | getDeviceVersion => (0x01, 0x05)
  | getProtocolVersion => (0x01, 0x06)
  | slotPeek => (0x01, 0x07)
  | getBootSlotInfo => (0x01, 0x08)
  | slotPoke => (0x02, 0x00)
  | switchSlot => (0x02, 0x01)
  | loadSlot => (0x02, 0x02)
  | slotPokeAllByte => (0x02, 0x03)
  | getNvCapability => (0x03, 0x00)
  | nvPeek => (0x03, 0x01)
  | nvPokeBegin => (0x03, 0x02)
  | nvPoke => (0x03, 0x03)
  | nvPokeCommit => (0x03, 0x04)
  | nvPokeDiscard => (0x03, 0x05)
  | nvPokeCommitByte => (0x03, 0x06)
  | getPipeCapability => (0x04, 0x00)
  | getPipeInfo => (0x04, 0x01)
  | pipeWrite => (0x04, 0x02)
  | pipeRead => (0x04, 0x03)
  | getAuxCapability => (0x05, 0x00)
  | getAuxGroupInfo => (0x05, 0x01)
  | getAuxPinInfo => (0x05, 0x02)
  | setAux => (0x05, 0x03)
  | setAuxAndExit => (0x05, 0x04)
  | setAuxSwitchExit => (0x05, 0x05)
  | getLedCapability => (0x06, 0x00)
  | getLedInfo => (0x06, 0x01)
  | getLedModeInfo => (0x06, 0x02)
  | setLed => (0x06, 0x03)
  | rbcpReset => (0xAA, 0xAA)

def ofCode (group cmd : UInt8) : Option Cmd := all.find? fun c => c.code = (group, cmd)

/-- Commands of the read, NV storage, pipe, auxiliary and LED groups are of command-response mode
alone. -/
def inSession (c : Cmd) : Bool := 0x01 ≤ c.code.1 && c.code.1 ≤ 0x06 && c.code.1 != 0x02

/-- The arguments of the commands that may be refused for the mode. -/
def argCount : Cmd → ℕ
  | getFlashSlotInfo => 1
  | slotPeek => 5
  | nvPeek => 3
  | nvPokeBegin => 1
  | nvPoke => 3
  | nvPokeCommitByte => 4
  | getPipeInfo => 1
  | pipeWrite => 6
  | pipeRead => 2
  | getAuxGroupInfo => 1
  | getAuxPinInfo => 2
  | setAux => 5
  | setAuxAndExit => 5
  | setAuxSwitchExit => 7
  | getLedInfo => 1
  | getLedModeInfo => 2
  | setLed => 8
  | _ => 0

/-- The commands that leave the header alone. -/
def isSilent : Cmd → Bool
  | rbcpReset | exitCmdRespSilent | switchAndExit | loadAndExit | exitCmdRespRestore
  | setAuxAndExit | setAuxSwitchExit => true
  | _ => false

/-! ### Handlers -/

/-- What a command does once it is let through. -/
def exec : Cmd → Command Bool
  | nop => pure true
  | enterCmdResp => do
    let cpLo ← ringReadByte
    let cpHi ← ringReadByte
    let bcA0 ← ringReadByte
    let bcA1 ← ringReadByte
    let bcA2 ← ringReadByte
    let bcSzLo ← ringReadByte
    let bcSzHi ← ringReadByte
    let complete ← ringReadByte
    let statusOk ← ringReadByte
    act (Rbcp.enterCmdResp (word16 cpLo cpHi) (word24 bcA0 bcA1 bcA2) (word16 bcSzLo bcSzHi)
      complete statusOk)
  | exitCmdRespAck => act exitCmdResp
  | exitCmdRespSilent => act exitCmdResp
  | switchAndExit => do
    let target ← ringReadByte
    act (andExit (Rbcp.switchSlot target))
  | loadAndExit => do
    let ramSlot ← ringReadByte
    let flashSlot ← ringReadByte
    act (andExit (Rbcp.loadSlot ramSlot flashSlot))
  | exitCmdRespRestore => do
    let b0 ← ringReadByte
    let b1 ← ringReadByte
    let b2 ← ringReadByte
    let b3 ← ringReadByte
    let b4 ← ringReadByte
    let b5 ← ringReadByte
    let b6 ← ringReadByte
    let b7 ← ringReadByte
    let count ← ringReadByte
    act (Rbcp.exitCmdRespRestore [b0, b1, b2, b3, b4, b5, b6, b7] count)
  | getFlashSlotCount => act Rbcp.getFlashSlotCount
  | getFlashSlotInfo => do
    let flashSlot ← ringReadByte
    act (Rbcp.getFlashSlotInfo flashSlot)
  | getFlashSlotInfoAll => act Rbcp.getFlashSlotInfoAll
  | getRamSlotInfoAll => act Rbcp.getRamSlotInfoAll
  | getDeviceType => act Rbcp.getDeviceType
  | getDeviceVersion => act Rbcp.getDeviceVersion
  | getProtocolVersion => act Rbcp.getProtocolVersion
  | slotPeek => do
    let count ← ringReadByte
    let a0 ← ringReadByte
    let a1 ← ringReadByte
    let a2 ← ringReadByte
    let target ← ringReadByte
    act (Rbcp.slotPeek count (word24 a0 a1 a2) target)
  | getBootSlotInfo => act Rbcp.getBootSlotInfo
  | slotPoke => do
    let byte ← ringReadByte
    let a0 ← ringReadByte
    let a1 ← ringReadByte
    let a2 ← ringReadByte
    let target ← ringReadByte
    act (Rbcp.slotPoke byte (word24 a0 a1 a2) target)
  | switchSlot => do
    let target ← ringReadByte
    act (switchSlotAndFollow target)
  | loadSlot => do
    let ramSlot ← ringReadByte
    let flashSlot ← ringReadByte
    act (Rbcp.loadSlot ramSlot flashSlot)
  | slotPokeAllByte => do
    let byte ← ringReadByte
    let target ← ringReadByte
    act (Rbcp.slotPokeAllByte byte target)
  | getNvCapability => act Rbcp.getNvCapability
  | nvPeek => do
    let count ← ringReadByte
    let locLsb ← ringReadByte
    let locMsb ← ringReadByte
    act (Rbcp.nvPeek count locLsb locMsb)
  | nvPokeBegin => do
    let slot ← ringReadByte
    act (Rbcp.nvPokeBegin slot)
  | nvPoke => do
    let byte ← ringReadByte
    let locLsb ← ringReadByte
    let locMsb ← ringReadByte
    act (nvPokeImpl byte locLsb locMsb)
  | nvPokeCommit => act Rbcp.nvPokeCommit
  | nvPokeDiscard => act Rbcp.nvPokeDiscard
  | nvPokeCommitByte => do
    let byte ← ringReadByte
    let locLsb ← ringReadByte
    let locMsb ← ringReadByte
    let slot ← ringReadByte
    act (Rbcp.nvPokeCommitByte byte locLsb locMsb slot)
  | getPipeCapability => act Rbcp.getPipeCapability
  | getPipeInfo => do
    let pipe ← ringReadByte
    act (Rbcp.getPipeInfo pipe)
  | pipeWrite => do
    let d0 ← ringReadByte
    let d1 ← ringReadByte
    let d2 ← ringReadByte
    let d3 ← ringReadByte
    let pipe ← ringReadByte
    let count ← ringReadByte
    act (Rbcp.pipeWrite [d0, d1, d2, d3] pipe count)
  | pipeRead => do
    let count ← ringReadByte
    let pipe ← ringReadByte
    act (Rbcp.pipeRead count pipe)
  | getAuxCapability => act Rbcp.getAuxCapability
  | getAuxGroupInfo => do
    let group ← ringReadByte
    act (Rbcp.getAuxGroupInfo group)
  | getAuxPinInfo => do
    let pin ← ringReadByte
    let group ← ringReadByte
    act (Rbcp.getAuxPinInfo pin group)
  | setAux => do
    let state ← ringReadByte
    let after ← ringReadByte
    let hold ← ringReadByte
    let pin ← ringReadByte
    let group ← ringReadByte
    act (Rbcp.setAux state after hold pin group)
  | setAuxAndExit => do
    let state ← ringReadByte
    let after ← ringReadByte
    let hold ← ringReadByte
    let pin ← ringReadByte
    let group ← ringReadByte
    act (andExit (Rbcp.setAux state after hold pin group))
  | setAuxSwitchExit => do
    let state ← ringReadByte
    let after ← ringReadByte
    let hold ← ringReadByte
    let flags ← ringReadByte
    let pin ← ringReadByte
    let group ← ringReadByte
    let slot ← ringReadByte
    act (Rbcp.setAuxSwitchExit state after hold flags pin group slot)
  | getLedCapability => act Rbcp.getLedCapability
  | getLedInfo => do
    let led ← ringReadByte
    act (Rbcp.getLedInfo led)
  | getLedModeInfo => do
    let mode ← ringReadByte
    let led ← ringReadByte
    act (Rbcp.getLedModeInfo mode led)
  | setLed => do
    let mode ← ringReadByte
    let red ← ringReadByte
    let green ← ringReadByte
    let blue ← ringReadByte
    let brightness ← ringReadByte
    let period ← ringReadByte
    let hold ← ringReadByte
    let led ← ringReadByte
    act (Rbcp.setLed mode red green blue brightness period hold led)
  | rbcpReset => act fun p => (true, initRbcp p)

end Cmd

/-! ### Dispatch -/

def isActive : Command Bool := act fun p => (p.active, p)

/-- An unknown command has no arguments that the device could know of. -/
def dispatch (group cmd : UInt8) : Command Bool :=
  match Cmd.ofCode group cmd with
  | none => pure false
  | some c => do
    let active ← isActive
    if c.inSession ∧ ¬active then
      skip c.argCount
      return false
    else c.exec

def cmdIsSilent (group cmd : UInt8) : Bool :=
  ((Cmd.ofCode group cmd).map Cmd.isSilent).getD false

/-- What precedes a command's own work: its header, where one is open and the command isn't
silent. -/
def beginCommand (group cmd : UInt8) (p : Plugin) : Plugin :=
  if p.active ∧ ¬cmdIsSilent group cmd then cmdBegin p.activeSlot group cmd p else p

/-- The write to flash that a command left, if it left one. -/
def finishDeferred (ok : Bool) : Step := fun p =>
  match p.nvDeferred with
  | .none => (ok, p)
  | _ => nvDeferredRun p

/-- What follows it: the answer, and the end of a transaction where the session has ended. -/
def endCommand (group cmd : UInt8) (wasActive : Bool) (r : Bool × Plugin) : Plugin :=
  let p :=
    if wasActive ∧ ¬cmdIsSilent group cmd then cmdEnd r.2.activeSlot r.1 false r.2
    else if ¬wasActive ∧ r.2.active then
      cmdEnd r.2.activeSlot r.1 true (cmdBegin r.2.activeSlot group cmd r.2)
    else r.2
  if wasActive ∧ ¬r.2.active then nvDiscardImpl p else p

def runCommand (group cmd : UInt8) : Command Unit := do
  let wasActive ← isActive
  act fun p => ((), beginCommand group cmd p)
  let ok ← dispatch group cmd
  act fun p => ((), endCommand group cmd wasActive (finishDeferred ok p))

def command : Command Unit := do
  let group ← ringReadByte
  let cmd ← ringReadByte
  runCommand group cmd

/-- `n` commands, in one session or in several. -/
def commands : ℕ → Command Unit
  | 0 => pure ()
  | n + 1 => command >>= fun _ => commands n

/-- The commands of a session from the one that a knock opens on, `n` at most, and whether the
session goes on. -/
def session : ℕ → Command Bool
  | 0 => pure true
  | n + 1 => do
    command
    let active ← isActive
    if active then session n else return false

end OneRom.Rbcp
