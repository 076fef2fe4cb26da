import OneRom.DeriveCs

/-!
The algorithms of a slot, which the firmware sets its PIOs up from, and the overrides of its GPIOs'
inputs.
-/

namespace OneRom.AlgConfig

open OneRom.Hw OneRom.ChipTypes OneRom.CsConfig OneRom.CsConfig.CsConfig OneRom.SlotLayout
open OneRom.DeriveCs OneRom.Layout

/-! ### The algorithms -/

inductive OneromAlgDataConfig
  | algData0 (gpioBase baseDataPin wordSize : ℕ)
  | algData1 (gpioBase baseDataPin wordSize bytePin aMinus1Pin : ℕ)
  deriving DecidableEq, Repr

namespace OneromAlgDataConfig

def gpioBase : OneromAlgDataConfig → ℕ
  | algData0 gpioBase _ _ => gpioBase
  | algData1 gpioBase _ _ _ _ => gpioBase

def baseDataPin : OneromAlgDataConfig → ℕ
  | algData0 _ baseDataPin _ => baseDataPin
  | algData1 _ baseDataPin _ _ _ => baseDataPin

def wordSize : OneromAlgDataConfig → ℕ
  | algData0 _ _ wordSize => wordSize
  | algData1 _ _ wordSize _ _ => wordSize

/-- The pin of `/BYTE`, where it is read. -/
def bytePin : OneromAlgDataConfig → Option ℕ
  | algData0 _ _ _ => none
  | algData1 _ _ _ bytePin _ => some bytePin

end OneromAlgDataConfig

structure OneromAlgAddrConfig where
  gpioBase : ℕ
  numDelayCycles : ℕ
  baseAddrPin : ℕ
  numAddrPins : ℕ
  numRomTableBits : ℕ
  deriving DecidableEq, Repr

/-- What finds the chip selected, with what is its own. -/
inductive CsAlg
  | algCs0 (serveCsLow0 bytePin firstRomCsBase firstRomNumCsPins : ℕ)
  | algCs1 (csIgnoreIndex : ℕ)
  | algCs2 (baseQualifierPin numQualifierPins qualifierInactivePattern : ℕ)
  deriving DecidableEq, Repr

structure OneromAlgCsConfig where
  alg : CsAlg
  gpioBase : ℕ
  baseCsPin : ℕ
  numCsPins : ℕ
  baseDataPin : ℕ
  numDataPins : ℕ
  deriving DecidableEq, Repr

/-- Whether the `/BYTE` line is read. -/
def readsBytePin (chipType : ChipType) (bitMode : BitModes) (force16Bit : Bool) : Bool :=
  bitMode = .bitMode16 ∧ chipType.supportsBitMode 8 ∧ force16Bit = false

/-- The data algorithm of a chip. The pin of `/BYTE` is a difference of `u8`s. -/
def buildAlgData (layout : CsDataLayout) (board : Board) (chipType : ChipType)
    (bitMode : BitModes) (force16Bit : Bool) : OneromAlgDataConfig :=
  match bitMode with
  | .bitMode8 => .algData0 layout.gpioBase layout.baseDataPin 8
  | .bitMode16 =>
    if readsBytePin chipType bitMode force16Bit = false then
      .algData0 layout.gpioBase layout.baseDataPin 16
    else
      .algData1 layout.gpioBase layout.baseDataPin 16 ((board.pinByte + 256 - layout.gpioBase) % 256)
        (layout.dataPinGpios.getD (layout.numDataPins - 1) 0 - layout.gpioBase)

/-- The address PIO's base is 0 or 16, and the window's first GPIO is a pin from there on. -/
def buildAlgAddr (layout : AddrLayout) (algData : OneromAlgDataConfig) : OneromAlgAddrConfig :=
  let pioBase := if layout.gpioBase < 16 then 0 else 16
  { gpioBase := pioBase
    numDelayCycles := if algData.bytePin = none then 2 else 4
    baseAddrPin := layout.gpioBase - pioBase
    numAddrPins := layout.numAddrPins
    -- with words of 16 bits, a bit more says which of a word's bytes
    numRomTableBits :=
      if algData.wordSize = 8 then layout.numAddrPins else layout.numAddrPins + 1 }

def serveCsLow0 : ChipSetType → ℕ
  | .single | .banked => 0
  | .multi => 1

/-- The select lines of the first chip, from the PIO's base, and how many there are. -/
def firstRomCs (layout : CsDataLayout) (setType : ChipSetType) : ℕ × ℕ :=
  match setType with
  | .single | .banked => (layout.baseCsPin, layout.numCsPins)
  | .multi => (firstSelect layout - layout.gpioBase, 1)

def buildAlgCs (layout : CsDataLayout) (setType : ChipSetType) (algData : OneromAlgDataConfig) :
    OneromAlgCsConfig where
  alg :=
    match layout.algCs2, layout.csIgnoreIndex with
    | some cs2, _ =>
      .algCs2 cs2.baseQualifierPin cs2.numQualifierPins cs2.qualifierInactivePattern
    | none, none =>
      .algCs0 (serveCsLow0 setType) (algData.bytePin.getD GPIO_NONE)
        (firstRomCs layout setType).1 (firstRomCs layout setType).2
    | none, some csIgnoreIndex => .algCs1 csIgnoreIndex
  gpioBase := layout.gpioBase
  baseCsPin := layout.baseCsPin
  numCsPins := layout.numCsPins
  baseDataPin := layout.baseDataPin
  numDataPins := layout.numDataPins

def buildAlgDma (bitMode : BitModes) : OneromAlgDmaConfig := ⟨bitMode, 1⟩

/-! ### The overrides -/

inductive GpioOverride
  | normal | invert | low | high
  deriving DecidableEq, Repr

def GpioOverride.code : GpioOverride → ℕ
  | .normal => 0
  | .invert => 1
  | .low => 2
  | .high => 3

def GpioOverride.ofCode : ℕ → GpioOverride
  | 1 => .invert
  | 2 => .low
  | 3 => .high
  | _ => .normal

/-- A GPIO's level inside the processor from its level outside, and the other way round. -/
def GpioOverride.apply : GpioOverride → Bool → Bool
  | .normal, level => level
  | .invert, level => !level
  | .low, _ => false
  | .high, _ => true

/-- A forced GPIO says nothing. -/
def GpioOverride.forced : GpioOverride → Bool
  | .low | .high => true
  | .normal | .invert => false

def encodeOverride (gpio : ℕ) (ov : GpioOverride) : ℕ := ov.code <<< 6 ||| gpio &&& 0x3F

lemma encodeOverride_eq (gpio : ℕ) (ov : GpioOverride) :
    encodeOverride gpio ov = ov.code * 64 + gpio % 64 := by
  have hmask : gpio &&& 0x3F = gpio % 64 := Nat.and_two_pow_sub_one_eq_mod gpio 6
  rw [encodeOverride, hmask, ← Nat.shiftLeft_add_eq_or_of_lt (Nat.mod_lt _ (by decide)),
    Nat.shiftLeft_eq]

/-- An override's GPIO. -/
@[simp] lemma encodeOverride_gpio (gpio : ℕ) (ov : GpioOverride) :
    encodeOverride gpio ov &&& 0x3F = gpio % 64 := by
  have hmask : encodeOverride gpio ov &&& 0x3F = encodeOverride gpio ov % 64 :=
    Nat.and_two_pow_sub_one_eq_mod _ 6
  rw [hmask, encodeOverride_eq]
  omega

@[simp] lemma ofCode_encodeOverride (gpio : ℕ) (ov : GpioOverride) :
    GpioOverride.ofCode (encodeOverride gpio ov >>> 6 &&& 3) = ov := by
  have hcode : encodeOverride gpio ov >>> 6 = ov.code := by
    rw [encodeOverride_eq, Nat.shiftRight_eq_div_pow]
    omega
  rw [hcode]
  cases ov <;> rfl

/-- The setting of a select line. `none` is the panic where `cs1` has none. -/
def csLogicForRole (role : SelectRole) (csConfig : CsConfig) : Option CsLogic :=
  match role with
  | .cs1 | .x1 | .x2 | .halfSelect => csConfig.cs1Logic
  | .cs2 => some (csConfig.cs2Logic.getD .activeLow)
  | .cs3 => some (csConfig.cs3Logic.getD .activeLow)
  | .cs4 => some (csConfig.cs4Logic.getD .activeLow)
  | .ce | .oe => some .activeLow

/-- The level at which the PIO takes a select line to be active. -/
def requiredCsLogic : ChipSetType → CsLogic
  | .single | .banked => .activeLow
  | .multi => .activeHigh

/-- The setting of a select line of a set. The X pins carry the secondaries' own selects. -/
def configuredLogic (layout : CsDataLayout) (csConfig : CsConfig) (secondaries : List CsConfig)
    (line : SelectLine) : Option CsLogic :=
  let perChipRole := (layout.selectLines.head?.map (·.role)).getD .cs1
  let secondary (i : ℕ) : Option CsLogic :=
    match secondaries[i]? with
    | some c => csLogicForRole perChipRole c
    | none => some .activeLow
  match line.role with
  | .x1 => secondary 0
  | .x2 => secondary 1
  | role => csLogicForRole role csConfig

/-- Inverts the lines whose settings differ from what the PIO takes. -/
def invertedLines (required : CsLogic) (logic : SelectLine → Option CsLogic)
    (lines : List SelectLine) : Option (List ℕ) := do
  let logics ← lines.mapM logic
  return (lines.zip logics).filterMap fun (line, configured) =>
    if configured = required then none else some (encodeOverride line.gpio .invert)

def buildCsOverrides (layout : CsDataLayout) (setType : ChipSetType) (csConfig : CsConfig)
    (secondaries : List CsConfig) : Option (List ℕ) := do
  let required := requiredCsLogic setType
  let select ←
    invertedLines required (configuredLogic layout csConfig secondaries) layout.selectLines
  let commoned ←
    invertedLines required (fun line => csLogicForRole line.role csConfig) layout.commonedLines
  return select ++ commoned

/-- Inverts the X pins of a Banked set where a jumper pulls them low. -/
def buildGpioXOverrides (layout : AddrLayout) (setType : ChipSetType) (numChips : ℕ)
    (board : Board) : List ℕ :=
  if setType ≠ .banked then []
  else if board.xJumperPull ≠ 0 then []
  else
    let x2 := if 3 ≤ numChips then layout.x2Gpio else none
    (layout.x1Gpio.toList ++ x2.toList).map fun gpio => encodeOverride gpio .invert

/-- The GPIO of `/BYTE`, where it is read. -/
def byteGpio (algData : OneromAlgDataConfig) (cs : CsDataLayout) : Option ℕ :=
  algData.bytePin.map fun pin => (pin + cs.gpioBase) % 256

/-- The GPIOs that one of the layouts has a use for. -/
def usedGpios (addr : AddrLayout) (cs : CsDataLayout) (algData : OneromAlgDataConfig) : List ℕ :=
  addr.addrPinGpios ++ addr.x1Gpio.toList ++ addr.x2Gpio.toList ++ addr.excessAddrPinGpios ++
    cs.dataPinGpios ++ cs.selectLines.map (·.gpio) ++
    List.range' (cs.gpioBase + cs.baseCsPin) cs.numCsPins ++
    (byteGpio algData cs).toList

/-- Forces the GPIOs of the address window that have no use low. -/
def buildUnusedAddrOverrides (addr : AddrLayout) (cs : CsDataLayout)
    (algData : OneromAlgDataConfig) : List ℕ :=
  ((List.range' addr.gpioBase addr.numAddrPins).filter (· ∉ usedGpios addr cs algData)).map
    fun gpio => encodeOverride gpio .low

structure OneromAlgConfig where
  algCs : OneromAlgCsConfig
  algAddr : OneromAlgAddrConfig
  algData : OneromAlgDataConfig
  algDma : OneromAlgDmaConfig
  /-- The overrides, where there is one. -/
  gpioOverrideConfig : Option (List ℕ)
  deriving DecidableEq, Repr

/-- The algorithms of a slot. The pulls of its X pins are left out: the firmware sets them, and
nothing here reads them. -/
def buildAlgConfig (ctx : SlotContext) (addr : AddrLayout) (cs : CsDataLayout)
    (secondaries : List CsConfig) : Option OneromAlgConfig := do
  let algData := buildAlgData cs ctx.board ctx.chip0 ctx.bitMode ctx.force16Bit
  let csOverrides ← buildCsOverrides cs ctx.setType ctx.csConfig secondaries
  let byteOverride := (byteGpio algData cs).toList.map (encodeOverride · .invert)
  let overrides := csOverrides ++ byteOverride ++
    buildGpioXOverrides addr ctx.setType ctx.chipTypes.length ctx.board ++
    buildUnusedAddrOverrides addr cs algData
  return {
    algCs := buildAlgCs cs ctx.setType algData
    algAddr := buildAlgAddr addr algData
    algData := algData
    algDma := buildAlgDma ctx.bitMode
    gpioOverrideConfig := if overrides = [] then none else some overrides }

end OneRom.AlgConfig
