import OneRom.BootMain

/-!
The image select jumpers, the slot they choose, and what is done with it. A select pin is pulled
away from where its jumper would take it, so that an open jumper reads 0 once the pins whose jumper
pulls down are flipped, and a closed one 1.
-/

namespace OneRom.Boot

open OneRom.Fallible

variable (d : Device)

/-! ### Reading the jumpers -/

/-- The select pins set up so far: how many, and their GPIOs as masks of all of them and of those
to flip. -/
structure SelPins where
  num : ℕ := 0
  selMask : UInt64 := 0
  flipBits : UInt64 := 0

def selPinOffset (ii : ℕ) : UInt32 := 16 + UInt32.ofNat ii

/-- Metadata from before the reserved pins came reads as none. -/
def reservedSelPins : Firmware UInt8 := do
  let version ← header32 d 16
  if 3 ≤ version then header8 d 36 else pure 0

/-- Whether a select pin is read. -/
def selRead (runtime : Runtime) (reserved : UInt8) (ii : ℕ) (pin : UInt8) : Bool :=
  pin.toNat < runtime.maxGpios && !reserved.toNat.testBit ii

/-- The SWD pads a select pin may share are isolated while it is read. -/
def setupSelPin (reserved : UInt8) (pins : SelPins) (ii : ℕ) : Firmware SelPins := do
  let runtime ← getRuntime
  let pin ← hw8 d (selPinOffset ii)
  if selRead runtime reserved ii pin then (do
    let _ ← hw8 d 12
    let _ ← hw8 d 11
    let selJumperPull ← hw8 d 23
    let bit : UInt64 := 1 <<< pin.toUInt64
    if selJumperPull.toNat.testBit ii then (do
      setPull pin.toNat false
      pure { pins with num := pins.num + 1, selMask := pins.selMask ||| bit })
    else (do
      setPull pin.toNat true
      pure { num := pins.num + 1, selMask := pins.selMask ||| bit,
             flipBits := pins.flipBits ||| bit }))
  else pure pins

def setupSelPinsFrom (reserved : UInt8) (pins : SelPins) : List ℕ → Firmware SelPins
  | [] => pure pins
  | ii :: rest => do
    let pins ← setupSelPin d reserved pins ii
    setupSelPinsFrom reserved pins rest

def setupSelPins (reserved : UInt8) : Firmware SelPins :=
  setupSelPinsFrom d reserved {} (List.range MAX_IMG_SEL_PINS)

def SAMPLES : ℕ := 15

/-- The select pins that read closed in any of the samples. -/
def getSelValue (pins : SelPins) : Firmware UInt64 := fun s =>
  let gpios := (List.range SAMPLES).foldl
    (fun value ii => value ||| (d.levels s.pulls ii ^^^ pins.flipBits)) 0
  (.ok (gpios &&& pins.selMask), s)

def disableSelPin (reserved : UInt8) (ii : ℕ) : Firmware PUnit := do
  let runtime ← getRuntime
  let pin ← hw8 d (selPinOffset ii)
  if selRead runtime reserved ii pin then (do
    clearPull pin.toNat
    let _ ← hw8 d 12
    let _ ← hw8 d 11
    pure ⟨⟩)
  else pure ⟨⟩

def disableSelPins (reserved : UInt8) : Firmware PUnit :=
  Prog.each (disableSelPin d reserved) (List.range MAX_IMG_SEL_PINS)

/-- Turns GPIOs into select bits, `ii` on: the value, and the mask of the pins read. -/
def selBits (reserved : UInt8) (gpioValue : UInt64) (sel : UInt32 × UInt32) :
    List ℕ → Firmware (UInt32 × UInt32)
  | [] => pure sel
  | ii :: rest => do
    let runtime ← getRuntime
    let pin ← hw8 d (selPinOffset ii)
    let bit : UInt32 := 1 <<< UInt32.ofNat ii
    if selRead runtime reserved ii pin then
      selBits reserved gpioValue
        (if gpioValue.toNat.testBit pin.toNat then sel.1 ||| bit else sel.1, sel.2 ||| bit) rest
    else selBits reserved gpioValue sel rest

/-- The value of the select pins and the mask of those read. -/
def checkSelPins : Firmware (UInt32 × UInt32) := do
  let reserved ← reservedSelPins d
  let pins ← setupSelPins d reserved
  if pins.num = 0 then (do
    disableSelPins d reserved
    pure (0, 0))
  else do
    let gpioValue ← getSelValue d pins
    disableSelPins d reserved
    let sel ← selBits d reserved gpioValue (0, 0) (List.range MAX_IMG_SEL_PINS)
    setRuntime fun r => { r with imageSel := sel.1.toUInt8 }
    pure sel

/-! ### Choosing the slot -/

/-- The bits of `selPins` that are in `selMask`, `ii` on, moved down to `bitPos`. -/
def compact (selPins selMask : UInt32) (romSel : UInt8) (bitPos : ℕ) : List ℕ → UInt8
  | [] => romSel
  | ii :: rest =>
    if selMask.toNat.testBit ii then
      compact selPins selMask
        (if selPins.toNat.testBit ii then romSel ||| UInt8.ofNat (2 ^ bitPos) else romSel)
        (bitPos + 1) rest
    else compact selPins selMask romSel bitPos rest

def getRomSlotIndex (selPins selMask : UInt32) (plugins : UInt8) : Firmware UInt8 := do
  let romSel := compact selPins selMask 0 0 (List.range 32)
  let count ← header8 d 28
  if count ≤ numPlugins plugins then LimpMode.enter d .invalidConfig
  else do
    let romIndex := romSel % (count - numPlugins plugins) + numPlugins plugins
    if count ≤ romIndex then LimpMode.enter d .invalidConfig
    else do
      LOG d
      pure romIndex

/-- The override states came with the reserved pins. -/
def overrideStates (overrides : UInt32) : Firmware UInt8 := do
  let version ← header32 d 16
  pure (if 3 ≤ version then d.flash (overrides + 24) else 0)

/-- Takes an override that is present, and logs it. -/
def override (present : UInt8) (bit : ℕ) (set : Runtime → Runtime) : Firmware PUnit :=
  if present.toNat.testBit bit then (do setRuntime set; LOG d) else pure ⟨⟩

def Device.half (p : UInt32) : UInt16 := (d.flash p).toUInt16 ||| (d.flash (p + 1)).toUInt16 <<< 8

def processFirmwareOverrides (slot : UInt32) : Firmware PUnit := do
  let overrides := d.word (slot + 20)
  if ¬ Usable overrides then pure ⟨⟩
  else do
    let present := d.flash overrides
    let value := d.flash (overrides + 16)
    override d present 2 fun r => { r with fireFreq := d.half (overrides + 10) }
    override d present 3 fun r => { r with overclockEnabled := value.toNat.testBit 1 }
    override d present 4 fun r => { r with fireVreg := d.flash (overrides + 12) }
    override d present 5 fun r => { r with statusLedEnabled := value.toNat.testBit 2 }
    override d present 6 fun r => { r with swdEnabled := if value.toNat.testBit 3 then 1 else 0 }
    let states ← overrideStates d overrides
    if states &&& 3 = 2 then (do setRuntime fun r => { r with standby := true }; LOG d)
    else pure ⟨⟩

/-- Turbo boot does not read the jumpers. -/
def readJumpers : Firmware (UInt32 × UInt32) := do
  let turbo ← TURBO d
  if turbo = 0 then checkSelPins d else pure (0, 0)

def chooseSlot (selPins selMask : UInt32) (plugins : UInt8) : Firmware PUnit := do
  let count ← header8 d 28
  if numPlugins plugins < count then (do
    let index ← getRomSlotIndex d selPins selMask plugins
    let slots ← ROM_SLOTS d
    setRuntime fun r =>
      { r with romSlotIndex := index, currentRomSlot := some (slotAt slots index) }
    processFirmwareOverrides d (slotAt slots index))
  else pure ⟨⟩

/-! ### Serving -/

/-- A change of the flash's clock divider goes to the external flash chip too. -/
def setupClock : Firmware PUnit := do
  let runtime ← getRuntime
  if 133 < d.sysClockFreqMhz runtime then (do let _ ← hw8 d 8; pure ⟨⟩) else pure ⟨⟩

def ROM_SLOT_NO_IMAGE : UInt32 := 0xFFFFFFFF

def preloadRomImage (slot : UInt32) : Firmware PUnit :=
  if d.word slot = ROM_SLOT_NO_IMAGE then LOG d
  else do
    let sizes ← otpFlashSizes d
    if Plugins.romSlotInFlash (d.plugins sizes) (d.slot slot) then (do
      LOG d
      if d.word slot % 4 ≠ 0 then LimpMode.enter d .invalidConfig else logLines d 2)
    else LimpMode.enter d .invalidConfig

def preload : Firmware PUnit := do
  let runtime ← getRuntime
  match runtime.currentRomSlot with
  | none => pure ⟨⟩
  | some slot => preloadRomImage d slot

def limpWithoutSlot : Firmware PUnit := do
  let runtime ← getRuntime
  if runtime.currentRomSlot.isNone then LimpMode.enter d .noRoms else pure ⟨⟩

/-- Puts the status LED where the runtime information has it. -/
def pioLedBoot : Firmware PUnit := do
  let runtime ← getRuntime
  let gpio ← hw8 d 9
  if gpio.toNat < runtime.maxGpios then (do
    let _ ← hw8 d 9
    note (.drive gpio.toNat))
  else pure ⟨⟩

def pio : Firmware PUnit := do
  let runtime ← getRuntime
  let serving := d.serving runtime
  let turbo ← TURBO d
  if turbo = 0 ∧ serving.valid = false then LimpMode.enter d .invalidConfig
  else do
    logLines d serving.lines
    Prog.each (fun gpio => note (.drive gpio)) serving.pins

/-- SWD goes last, so that a probe is usable for all of boot. -/
def shutSwd : Firmware PUnit := do
  let runtime ← getRuntime
  if runtime.swdEnabled = 0 then LOG d else pure ⟨⟩

def serve : Firmware PUnit := do
  setupClock d
  preload d
  setupStatusLed d
  limpWithoutSlot d
  pioLedBoot d
  LOG d
  shutSwd d
  pio d

/-! ### The whole of boot -/

def findPlugins : Firmware (Bool × UInt8) := do
  setupInitialGpios d
  whenLogging d (logInit d)
  logGeneration d
  initialPluginParse d

def selectFrom (plugins : UInt8) : Firmware PUnit := do
  whenLogging d (logRoms d)
  let sel ← readJumpers d
  chooseSlot d sel.1 sel.2 plugins
  serve d

/-- Boot from the pins' set-up to serving. -/
def selectAndServe : Firmware PUnit := do
  let parsed ← findPlugins d
  vbusDetect d parsed.1
  selectFrom d parsed.2

/-- Boot once the metadata is accepted. -/
def bootOn : Firmware PUnit := do
  updateRuntimeFromMetadata d
  let _ ← otpFlashSizes d
  let rev ← hwRev d
  let mismatch ← otpBoardMismatch d rev
  if mismatch then enterBootloader else selectAndServe d

def firmwareMain : Firmware PUnit := do
  platformSpecificInit d
  let valid ← metadataValid d
  if valid = 0 then enterBootloader else bootOn d

end OneRom.Boot
