import OneRom.Fallible
import OneRom.OtpFirmware
import OneRom.Plugins

/-!
The firmware's start, from reset to the choice of what to serve, and the metadata it rests on. The
metadata is flash at an address the firmware is linked with, and nothing but `metadataValid` looks
at it before it is used. Boot is a program over the runtime information and the pads: it ends in
the bootloader, in limp mode or with something to serve.

What a program does through the metadata's pointers, and to the pins, it records as it goes. A
pointer the source reads twice in one test is recorded once, and debug logging is not in a release.
-/

namespace OneRom.Boot

open OneRom.Fallible

/-! ### The device -/

def RP235XB : UInt8 := 0
def RP235XA : UInt8 := 1
def GPIO_NONE : UInt8 := 0xFF
def MAX_IMG_SEL_PINS : ℕ := 7
def CURRENT_METADATA_VERSION : UInt32 := 3

/-- `ONEROM_METADATA` and its terminator. -/
def ONEROM_METADATA_MAGIC : List UInt8 :=
  [0x4F, 0x4E, 0x45, 0x52, 0x4F, 0x4D, 0x5F, 0x4D, 0x45, 0x54, 0x41, 0x44, 0x41, 0x54, 0x41, 0]

/-- The runtime information boot uses. -/
structure Runtime where
  rp235x : UInt8 := RP235XA
  imageSel : UInt8 := 0xFF
  romSlotIndex : UInt8 := 0xFF
  currentRomSlot : Option UInt32 := none
  overclockEnabled : Bool := false
  statusLedEnabled : Bool := true
  swdEnabled : UInt8 := 0
  fireVreg : UInt8 := 0
  fireFreq : UInt16 := 0
  bootLogging : UInt8 := 0
  standby : Bool := false

/-- Setting up to serve a slot: whether its algorithms pass validation, how many lines are logged
and which pins are taken. -/
structure Serving where
  valid : Bool
  lines : ℕ
  pins : List ℕ

/-- What boot reads. `metadata` is the address the firmware is linked with, `flash` the bytes the
CPU reads at an address, `levels` the GPIO inputs given the pads' pulls (`true` up) at a sample.
The clock's settings and those of serving are left open. -/
structure Device where
  metadata : UInt32
  flash : UInt32 → UInt8
  qfn60 : Bool
  otpReadEcc : ℕ → UInt16
  otpReadRaw : ℕ → UInt32
  pluginHeaderAt : UInt32 → Plugins.Header
  disablesVbusDetect : UInt32 → Bool
  version : UInt16 × UInt16 × UInt16
  levels : (ℕ → Option Bool) → ℕ → UInt64
  vbusPresent : Bool
  sysClockFreqMhz : Runtime → ℕ
  serving : Runtime → Serving

/-- The pointers the macros go through. -/
inductive Base
  | METADATA
  | HW
  | FW
  | hwRev
  deriving DecidableEq

inductive Event
  | deref (base : Base) (ptr : UInt32)
  | input (gpio : ℕ)
  | pull (gpio : ℕ) (up : Bool)
  | unpull (gpio : ℕ)
  | drive (gpio : ℕ)
  deriving DecidableEq

/-- An event at a pin. -/
def Event.AtPin : Event → Prop
  | .deref _ _ => False
  | _ => True

structure State where
  runtime : Runtime := {}
  pulls : ℕ → Option Bool := fun _ => none
  events : List Event := []

inductive LimpMode
  | noRoms
  | invalidConfig
  deriving DecidableEq

/-- How boot ends without serving. -/
inductive Halt
  | bootloader
  | limp (pattern : LimpMode)
  deriving DecidableEq

abbrev Firmware (α : Type) : Type := Prog State Halt α

def State.add (s : State) (e : Event) : State := { s with events := s.events ++ [e] }

def note (e : Event) : Firmware PUnit := fun s => (.ok ⟨⟩, s.add e)
def getRuntime : Firmware Runtime := fun s => (.ok s.runtime, s)
def setRuntime (f : Runtime → Runtime) : Firmware PUnit := fun s =>
  (.ok ⟨⟩, { s with runtime := f s.runtime })

def setPull (gpio : ℕ) (up : Bool) : Firmware PUnit := fun s =>
  (.ok ⟨⟩, { s.add (.pull gpio up) with pulls := Function.update s.pulls gpio (some up) })

def clearPull (gpio : ℕ) : Firmware PUnit := fun s =>
  (.ok ⟨⟩, { s.add (.unpull gpio) with pulls := Function.update s.pulls gpio none })

/-! ### The macros -/

section Macros

variable (d : Device)

/-- A little-endian word of flash. -/
def Device.word (p : UInt32) : UInt32 :=
  (d.flash p).toUInt32 ||| (d.flash (p + 1)).toUInt32 <<< 8 |||
    (d.flash (p + 2)).toUInt32 <<< 16 ||| (d.flash (p + 3)).toUInt32 <<< 24

def header8 (offset : UInt32) : Firmware UInt8 := do
  note (.deref .METADATA d.metadata)
  pure (d.flash (d.metadata + offset))

def header32 (offset : UInt32) : Firmware UInt32 := do
  note (.deref .METADATA d.metadata)
  pure (d.word (d.metadata + offset))

def HW : Firmware UInt32 := header32 d 20
def FW : Firmware UInt32 := header32 d 24
def TURBO : Firmware UInt8 := header8 d 31
def ROM_SLOTS : Firmware UInt32 := header32 d 32

def hw8 (offset : UInt32) : Firmware UInt8 := do
  let hw ← HW d
  note (.deref .HW hw)
  pure (d.flash (hw + offset))

def hwRev : Firmware UInt32 := do
  let hw ← HW d
  note (.deref .HW hw)
  pure (d.word hw)

/-- A line of boot logging, which turbo boot suppresses. -/
def LOG : Firmware PUnit := do
  let runtime ← getRuntime
  if runtime.bootLogging ≠ 0 then (do let _ ← TURBO d; pure ⟨⟩) else pure ⟨⟩

end Macros

def Runtime.maxGpios (runtime : Runtime) : ℕ := if runtime.rp235x = RP235XB then 48 else 30

/-- A pointer that is neither null nor erased. -/
def Usable (p : UInt32) : Prop := p ≠ 0 ∧ p ≠ 0xFFFFFFFF

instance (p : UInt32) : Decidable (Usable p) := inferInstanceAs (Decidable (_ ∧ _))

/-! ### Whether the metadata is there -/

section Valid

variable (d : Device)

def enterBootloader {α : Type} : Firmware α := Prog.throw .bootloader

def platformSpecificInit : Firmware PUnit :=
  if d.qfn60 then pure ⟨⟩ else setRuntime fun r => { r with rp235x := RP235XB }

/-- Compares the header's magic from `ii` on. -/
def checkMagic (ii : UInt32) : List UInt8 → Firmware Bool
  | [] => pure true
  | b :: bs => do
    let byte ← header8 d ii
    if byte ≠ b then pure false else checkMagic (ii + 1) bs

/-- The variant the metadata expects, and the board it names. -/
def checkHardware : Firmware UInt8 := do
  let rev ← hwRev d
  if ¬ Usable rev then pure 0
  else do
    LOG d
    let rp235x ← hw8 d 4
    let runtime ← getRuntime
    if rp235x ≠ runtime.rp235x then (do let _ ← hw8 d 4; pure 0)
    else do
      LOG d
      pure 1

def checkPointers : Firmware UInt8 := do
  let hw ← HW d
  if ¬ Usable hw then pure 0
  else do
    let fw ← FW d
    if ¬ Usable fw then pure 0 else checkHardware d

/-- Checks for minimal metadata presence and validity. -/
def metadataValid : Firmware UInt8 :=
  if ¬ Usable d.metadata then pure 0
  else do
    let turbo ← TURBO d
    if turbo ≠ 0 then pure 1
    else do
      let magic ← checkMagic d 0 ONEROM_METADATA_MAGIC
      if magic then checkPointers d else pure 0

end Valid

end OneRom.Boot
