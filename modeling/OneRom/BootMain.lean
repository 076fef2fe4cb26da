import OneRom.Boot

/-!
What the firmware does with metadata it has accepted, up to serving: the runtime information, the
board's name against the OTP's, the pins, the plugins, the image select jumpers, the slot they
choose and its overrides, the clock, the image and the LEDs.
-/

namespace OneRom.Boot

open OneRom.Fallible

variable (d : Device)

/-! ### Runtime information and the board -/

def updateRuntimeFromMetadata : Firmware PUnit := do
  let swdEnabled ← header8 d 30
  let bootLogging ← header8 d 29
  setRuntime fun r => { r with swdEnabled, bootLogging }

/-- The bytes of flash in a chip, from its size field's position in FLASH_DEVINFO. -/
def devinfoFlashBytes (devinfo : UInt16) (shift : ℕ) : UInt32 :=
  let code := devinfo.toNat / 2 ^ shift % 16
  if code = 0 ∨ 12 < code then 0 else UInt32.ofNat (4096 * 2 ^ code)

/-- The bytes on each of the flash's chip selects. -/
def otpFlashSizes : Firmware (UInt32 × UInt32) :=
  let a := d.otpReadRaw 0x048
  let b := d.otpReadRaw 0x049
  let c := d.otpReadRaw 0x04a
  let majority := (a &&& b) ||| (a &&& c) ||| (b &&& c)
  if majority / 0x20 % 2 = 0 then pure (2097152, 0)
  else do
    let devinfo := d.otpReadEcc 0x054
    let cs ← hw8 d 8
    pure (devinfoFlashBytes devinfo 8, if cs ≠ GPIO_NONE then devinfoFlashBytes devinfo 12 else 0)

/-- Whether the string at `p` has the length. -/
def Device.strlenIs (p : UInt32) (len : ℕ) : Bool :=
  (List.range len).all (fun ii => d.flash (p + UInt32.ofNat ii) ≠ 0) &&
    d.flash (p + UInt32.ofNat len) == 0

/-- A byte of an OTP entry's value, two to a row and the low byte first. -/
def Device.otpByte (row ii : ℕ) : UInt8 :=
  let value := d.otpReadEcc (row + ii / 2)
  if ii % 2 = 0 then value.toUInt8 else (value >>> 8).toUInt8

/-- Whether OTP commissions the chip as a board other than `rev`. -/
def otpBoardMismatch (rev : UInt32) : Firmware Bool :=
  match (OtpFirmware.otp_commissioned_board d.otpReadEcc).1 with
  | none => pure false
  | some (row, len) =>
    if ¬ Usable rev then pure false
    else do
      note (.deref .hwRev rev)
      pure (!(d.strlenIs rev len &&
        (List.range len).all fun ii => d.flash (rev + UInt32.ofNat ii) == d.otpByte row ii))

/-! ### Pins and logging -/

def setupStatusLed : Firmware PUnit := do
  let runtime ← getRuntime
  let gpio ← hw8 d 9
  if gpio.toNat < runtime.maxGpios then note (.drive gpio.toNat) else pure ⟨⟩

def setupNeopixel : Firmware PUnit := do
  let runtime ← getRuntime
  let gpio ← hw8 d 10
  if gpio.toNat < runtime.maxGpios then (do
    let status ← hw8 d 9
    if gpio ≠ status then note (.drive gpio.toNat) else pure ⟨⟩)
  else pure ⟨⟩

/-- The external flash's chip select is left as the bootrom configured it. -/
def setupInput (ii : ℕ) : Firmware PUnit := do
  let cs ← hw8 d 8
  if ii = cs.toNat then pure ⟨⟩
  else do
    clearPull ii
    note (.input ii)

def setupInitialGpios : Firmware PUnit := do
  let runtime ← getRuntime
  Prog.each (setupInput d) (List.range runtime.maxGpios)
  setupStatusLed d
  setupNeopixel d

def logLines (lines : ℕ) : Firmware PUnit := Prog.each (fun _ => LOG d) (List.range lines)

def whenLogging (x : Firmware PUnit) : Firmware PUnit := do
  let runtime ← getRuntime
  if runtime.bootLogging ≠ 0 then (do
    let turbo ← TURBO d
    if turbo = 0 then x else pure ⟨⟩)
  else pure ⟨⟩

def logInit : Firmware PUnit := do
  logLines d 8
  let _ ← otpFlashSizes d
  logLines d 4

def logGeneration : Firmware PUnit := do
  let version ← header32 d 16
  if version ≠ CURRENT_METADATA_VERSION then LOG d else pure ⟨⟩

def logRom (_ : ℕ) : Firmware PUnit := do
  let _ ← header8 d 28
  let _ ← ROM_SLOTS d
  LOG d

def logRoms : Firmware PUnit := do
  let count ← header8 d 28
  LOG d
  Prog.each (logRom d) (List.range count.toNat)

/-! ### Limp mode -/

/-- The pattern is to be seen even where an override has put the LED out. -/
def forceStatusLed : Firmware PUnit := do
  let runtime ← getRuntime
  if runtime.statusLedEnabled then pure ⟨⟩ else (do
    setRuntime fun r => { r with statusLedEnabled := true }
    setupStatusLed d)

/-- Blinks a pattern for ever. -/
def LimpMode.enter (pattern : LimpMode) {α : Type} : Firmware α := do
  LOG d
  forceStatusLed d
  setupStatusLed d
  Prog.throw (.limp pattern)

/-! ### Plugins -/

def slotAt (slots : UInt32) (index : UInt8) : UInt32 := slots + 32 * index.toUInt32

def Device.slotType (slot : UInt32) : UInt8 := d.flash (slot + 13)

def Device.slot (slot : UInt32) : Plugins.Slot :=
  ⟨d.slotType slot, d.word slot, d.word (slot + 4)⟩

/-- The device as the plugin checks see it. -/
def Device.plugins (sizes : UInt32 × UInt32) : Plugins.Device where
  romSlots := []
  headerAt := d.pluginHeaderAt
  cs0Bytes := sizes.1
  cs1Bytes := sizes.2
  majorVersion := d.version.1
  minorVersion := d.version.2.1
  patchVersion := d.version.2.2

/-- Whether a plugin that may be launched replaces VBUS detection. -/
def checkPlugin (slot : UInt32) (expectedType : UInt8) (index : UInt32) : Firmware Bool := do
  let sizes ← otpFlashSizes d
  if Plugins.checkPluginValid (d.plugins sizes) (d.slot slot) expectedType index then (do
    LOG d
    pure (d.disablesVbusDetect (d.word slot)))
  else pure false

def parseSystem : Firmware (Bool × UInt8) := do
  let slots ← ROM_SLOTS d
  if d.slotType (slotAt slots 0) = Plugins.romSlotTypePluginSystem then (do
    let disable ← checkPlugin d (slotAt slots 0) Plugins.oraPluginTypeSystem 0
    pure (disable, 1))
  else pure (false, 0)

def parseUser (disable : Bool) (plugins : UInt8) : Firmware (Bool × UInt8) := do
  let slots ← ROM_SLOTS d
  if d.slotType (slotAt slots 1) = Plugins.romSlotTypePluginUser ∧ plugins &&& 1 ≠ 0 then (do
    let disableUser ← checkPlugin d (slotAt slots 1) Plugins.oraPluginTypeUser 1
    pure (disable || disableUser, plugins ||| 2))
  else pure (disable, plugins)

def numPlugins (plugins : UInt8) : UInt8 :=
  (if plugins &&& 1 ≠ 0 then 1 else 0) + (if plugins &&& 2 ≠ 0 then 1 else 0)

/-- Whether a plugin replaces VBUS detection, and which plugins there are. -/
def initialPluginParse : Firmware (Bool × UInt8) := do
  let count ← header8 d 28
  if count = 0 then pure (false, 0)
  else do
    let system ← parseSystem d
    let count ← header8 d 28
    if 1 < count then parseUser d system.1 system.2 else pure system

def setupVbusInterrupt : Firmware PUnit := do
  let runtime ← getRuntime
  let _ ← hw8 d 6
  let vbus ← hw8 d 7
  if runtime.maxGpios ≤ vbus.toNat then LOG d
  else do
    setPull vbus.toNat false
    if d.vbusPresent then (do LOG d; enterBootloader) else pure ⟨⟩

/-- Detects VBUS unless a plugin does. -/
def vbusDetect (disable : Bool) : Firmware PUnit :=
  if disable then LOG d else setupVbusInterrupt d

end OneRom.Boot
