import OneRom.RomSlot

/-!
How the firmware maps logical addresses and bytes to what is in RAM, and back.

A position is a difference of GPIOs in 8 bits. A shift by 32 or more, which the C code leaves open,
gives 0 on the processor.
-/

namespace OneRom.PinMaps

open OneRom.AlgConfig OneRom.Hw OneRom.RomSlot

/-! ### Hardware -/

def MAX_X_PIN_GPIOS : ℕ := 2

/-- The GPIOs of the X pins, in arrays that end in `GPIO_NONE`. -/
structure OneromHardwareInfo where
  gpioX1 : List ℕ
  gpioX2 : List ℕ

def buildHardwareInfo (board : Board) : OneromHardwareInfo where
  gpioX1 := pinArray MAX_X_PIN_GPIOS (board.gpiosForXPin 1)
  gpioX2 := pinArray MAX_X_PIN_GPIOS (board.gpiosForXPin 2)

/-! ### Positions -/

/-- A GPIO's position from a base on. -/
def bitPos (gpio base : ℕ) : ℕ := (gpio + 256 - base) % 256

/-- The word with the bit at a position. -/
def bitAt (pos : ℕ) : ℕ := if pos < 32 then 1 <<< pos else 0

/-- The bit of a word at a position. -/
def readBit (word pos : ℕ) : Bool := pos < 32 && word.testBit pos

def v2GetGpioOverride (slot : OneromRomSlot) (gpio : ℕ) : GpioOverride :=
  match slot.alg.gpioOverrideConfig with
  | none => .normal
  | some params =>
    match params.find? fun p => p &&& 0x3F = gpio with
    | some p => .ofCode (p >>> 6 &&& 3)
    | none => .normal

/-- The first ROM's pins. A slot has a ROM. -/
def pinMap (slot : OneromRomSlot) : OneromRomPinMap := (slot.roms.head?.map (·.pinMap)).getD ⟨[], []⟩

/-- The GPIOs of the address lines: up to the first that isn't there. -/
def addrPins (slot : OneromRomSlot) : List ℕ := (pinMap slot).addr.takeWhile (· < GPIO_NONE)

def addrBase (slot : OneromRomSlot) : ℕ :=
  (slot.alg.algAddr.gpioBase + slot.alg.algAddr.baseAddrPin) % 256

/-! ### Addresses -/

/-- The word with the bits of some pins, each with its level. -/
def scatterPins (base : ℕ) (pins : List ℕ) (level : ℕ → ℕ → Bool) : ℕ :=
  pins.zipIdx.foldl (fun acc (gpio, n) =>
    if level gpio n then acc ||| bitAt (bitPos gpio base) else acc) 0

/-- The word whose bit `n` is that of pin `n`. -/
def gatherPins (pins : List ℕ) (level : ℕ → Bool) : ℕ :=
  pins.zipIdx.foldl (fun acc (gpio, n) => if level gpio then acc ||| bitAt n else acc) 0

/-- The select pins of a Multi set's first chip. -/
def firstRomPins (slot : OneromRomSlot) : List ℕ :=
  let cs := slot.alg.algCs
  match cs.alg with
  | .algCs0 _ _ firstRomCsBase firstRomNumCsPins =>
    let csBase := (cs.gpioBase + firstRomCsBase) % 256
    List.range' csBase ((csBase + firstRomNumCsPins) % 256 - csBase)
  | .algCs1 csIgnoreIndex =>
    ((List.range cs.numCsPins).filter (· ≠ csIgnoreIndex)).map fun i =>
      (cs.gpioBase + cs.baseCsPin + i) % 256
  | .algCs2 _ _ _ => []

def pioMapAddrToPhys (slot : OneromRomSlot) (logicalAddr : ℕ) : ℕ :=
  let base := addrBase slot
  let wordSize := slot.alg.algData.wordSize
  let addrBits := if wordSize = 16 then logicalAddr >>> 1 else logicalAddr
  let address := scatterPins base (addrPins slot) fun gpio n =>
    (v2GetGpioOverride slot gpio).apply (addrBits.testBit n)
  let select :=
    if slot.slotType = .multiRom then
      scatterPins base (firstRomPins slot) fun gpio _ => v2GetGpioOverride slot gpio ≠ .low
    else 0
  let physical := address ||| select
  if wordSize = 16 then (physical <<< 1 ||| logicalAddr &&& 1) % 2 ^ 32 else physical

/-! ### Bytes -/

/-- The GPIOs of the data lines that are there, with their numbers. -/
def dataPins (slot : OneromRomSlot) : List (ℕ × ℕ) :=
  (((pinMap slot).data.take slot.alg.algData.wordSize).zipIdx).filter (·.1 < GPIO_NONE)

def dataBase (slot : OneromRomSlot) : ℕ :=
  (slot.alg.algData.gpioBase + slot.alg.algData.baseDataPin) % 256

def pioMapDataToPhys (slot : OneromRomSlot) (logicalData : ℕ) : ℕ :=
  (dataPins slot).foldl (fun acc (gpio, d) =>
    if (v2GetGpioOverride slot gpio).apply (logicalData.testBit d) then
      acc ||| bitAt (bitPos gpio (dataBase slot))
    else acc) 0

/-- The logical byte of a byte in RAM. -/
def pioDemangleData (slot : OneromRomSlot) (physicalData : ℕ) : ℕ :=
  (dataPins slot).foldl (fun acc (gpio, d) =>
    if (v2GetGpioOverride slot gpio).apply
        (readBit (physicalData % 256) (bitPos gpio (dataBase slot))) then
      acc ||| bitAt d
    else acc) 0 % 256

/-! ### Captured addresses -/

inductive OraResult
  | invalidArg | controlPinActive | internalError
  deriving DecidableEq, Repr

structure XPins where
  x1 : Option ℕ
  x2 : Option ℕ

/-- The X pins in the address window of a set. -/
def v2GetXPinGpios (slot : OneromRomSlot) (hw : OneromHardwareInfo) (base : ℕ) : XPins :=
  if slot.slotType ≠ .multiRom ∧ slot.slotType ≠ .bankedRom then ⟨none, none⟩
  else
    let cs := slot.alg.algCs
    let csBase := (cs.gpioBase + cs.baseCsPin) % 256
    let csEnd := (csBase + cs.numCsPins) % 256
    let window := List.range' base ((base + slot.alg.algAddr.numAddrPins) % 256 - base)
    let rest := window.filter fun g => g ∉ addrPins slot ∧ ¬(csBase ≤ g ∧ g < csEnd)
    { x1 := (rest.filter (· ∈ hw.gpioX1)).getLast?
      x2 := (rest.filter fun g => g ∉ hw.gpioX1 ∧ g ∈ hw.gpioX2).getLast? }

def XPins.toList (x : XPins) : List ℕ := x.x1.toList ++ x.x2.toList

/-- A pin that has to be at a level. -/
structure PinCheck where
  gpio : ℕ
  expected : Bool

/-- The select pins a capture is checked for. -/
def pinChecks (slot : OneromRomSlot) : List PinCheck :=
  let cs := slot.alg.algCs
  match cs.alg with
  | .algCs0 serveCsLow0 _ firstRomCsBase firstRomNumCsPins =>
    let (first, n) :=
      if slot.slotType = .multiRom then (cs.gpioBase + firstRomCsBase, firstRomNumCsPins)
      else (cs.gpioBase + cs.baseCsPin, cs.numCsPins)
    (List.range n).map fun i => ⟨(first + i) % 256, serveCsLow0 = 1⟩
  | .algCs1 csIgnoreIndex =>
    ((List.range cs.numCsPins).filter (· ≠ csIgnoreIndex)).map fun i =>
      ⟨(cs.gpioBase + cs.baseCsPin + i) % 256, false⟩
  | .algCs2 _ _ _ => [⟨(cs.gpioBase + cs.baseCsPin) % 256, false⟩]

/-- What a select pin's check comes to. A pin that is forced reads nothing. -/
def PinCheck.passes (slot : OneromRomSlot) (word : ℕ) (check : PinCheck) : Bool :=
  match v2GetGpioOverride slot check.gpio with
  | .normal | .invert => readBit word (bitPos check.gpio (addrBase slot)) == check.expected
  | .low => check.expected == false
  | .high => check.expected == true

/-- The X pins that select another chip. -/
def xPins (slot : OneromRomSlot) (hw : OneromHardwareInfo) : List ℕ :=
  match slot.alg.algCs.alg with
  | .algCs0 _ _ _ _ =>
    if slot.slotType = .multiRom then (v2GetXPinGpios slot hw (addrBase slot)).toList else []
  | _ => []

/-- The positions of the address lines that, all high, deselect the chip. -/
def qualifierBits (slot : OneromRomSlot) : List ℕ :=
  let cs := slot.alg.algCs
  match cs.alg with
  | .algCs2 baseQualifierPin numQualifierPins _ =>
    List.range' (bitPos ((cs.gpioBase + baseQualifierPin) % 256) (addrBase slot)) numQualifierPins
  | _ => []

/-- The deselecting lines are at the pattern that deselects. -/
def deselected (slot : OneromRomSlot) (word : ℕ) : Bool :=
  match slot.alg.algCs.alg with
  | .algCs2 _ _ qualifierInactivePattern =>
    gatherPins (qualifierBits slot) (readBit word) == qualifierInactivePattern
  | _ => false

/-- The checks of a capture's control pins. -/
def controlPinsOk (slot : OneromRomSlot) (hw : OneromHardwareInfo) (word : ℕ) : Bool :=
  (pinChecks slot).all (PinCheck.passes slot word) &&
    (xPins slot hw).all (fun g => !readBit word (bitPos g (addrBase slot))) &&
    !deselected slot word

def pioDemangleObservedAddr (slot : OneromRomSlot) (hw : OneromHardwareInfo) (physicalAddr : ℕ)
    (checkControlPins : Bool) : Except OraResult ℕ :=
  if checkControlPins = true ∧ controlPinsOk slot hw physicalAddr = false then
    .error .controlPinActive
  else
    .ok (gatherPins (addrPins slot) fun gpio =>
      (v2GetGpioOverride slot gpio).apply
        (readBit physicalAddr (bitPos gpio (addrBase slot))))

/-! ### Knocks -/

structure OraKnock where
  mask : ℕ
  matchValues : List ℕ
  csMask : ℕ
  xMask : ℕ

/-- The pin is in the address window, and so in the captured word. -/
def inWindow (slot : OneromRomSlot) (gpio : ℕ) : Bool :=
  addrBase slot ≤ gpio && gpio < (addrBase slot + slot.alg.algAddr.numAddrPins) % 256

/-- The select pins, of which those in the address window are in the mask. -/
def knockCsPins (slot : OneromRomSlot) : List ℕ :=
  let cs := slot.alg.algCs
  match cs.alg with
  | .algCs0 _ _ _ _ => (List.range cs.numCsPins).map fun i => (cs.gpioBase + cs.baseCsPin + i) % 256
  | .algCs1 csIgnoreIndex =>
    ((List.range cs.numCsPins).filter (· ≠ csIgnoreIndex)).map fun i =>
      (cs.gpioBase + cs.baseCsPin + i) % 256
  | .algCs2 _ _ _ => [(cs.gpioBase + cs.baseCsPin) % 256]

def pioInitKnock (slot : OneromRomSlot) (hw : OneromHardwareInfo) (knockSeq : List ℕ)
    (knockBits : ℕ) : Except OraResult OraKnock :=
  if knockSeq = [] ∨ knockBits = 0 ∨ MAX_ADDR_PINS < knockBits then .error .invalidArg
  else if (addrPins slot).length < knockBits then .error .internalError
  else
    let base := addrBase slot
    let pins := (addrPins slot).take knockBits
    let level (seq gpio n : ℕ) : Bool :=
      let override := v2GetGpioOverride slot gpio
      !override.forced && override.apply (seq.testBit n)
    let mask (pins : List ℕ) : ℕ := scatterPins base (pins.filter (inWindow slot)) fun _ _ => true
    .ok {
      mask := scatterPins base pins fun gpio _ =>
        !(v2GetGpioOverride slot gpio).forced
      matchValues := knockSeq.map fun seq => scatterPins base pins (level seq)
      csMask := mask (knockCsPins slot)
      xMask :=
        if slot.slotType = .multiRom then mask (v2GetXPinGpios slot hw base).toList else 0 }

/-! ### The pins of a slot that is built -/

section Built

open OneRom.Checks OneRom.ChipTypes OneRom.DeriveAddr OneRom.DeriveCs OneRom.Layout
open OneRom.SlotLayout

variable {board : Board} {setType : ChipSetType} {chip0 : Chip} {chips : List Chip}
  {slot : OneromRomSlot} {addr : AddrLayout} {cs : CsDataLayout} {ctx : SlotContext}

lemma v2GetGpioOverride_eq (slot : OneromRomSlot) (gpio : ℕ) :
    v2GetGpioOverride slot gpio =
      match (slot.alg.gpioOverrideConfig.getD []).find? fun p => p &&& 0x3F = gpio with
      | some p => .ofCode (p >>> 6 &&& 3)
      | none => .normal := by
  unfold v2GetGpioOverride
  cases slot.alg.gpioOverrideConfig <;> rfl

lemma bitPos_of_le {g base : ℕ} (h : base ≤ g) (hg : g < 256) : bitPos g base = g - base := by
  rw [bitPos]
  omega

/-- A GPIO below the base wraps. -/
lemma bitPos_of_lt {g base : ℕ} (h : g < base) (hbase : base ≤ 256) :
    bitPos g base = 256 + g - base := by
  rw [bitPos]
  omega

/-- A GPIO's position is in a window of at most 32 GPIOs where the GPIO is. -/
lemma bitPos_lt_iff {g base n : ℕ} (hbase : base ≤ 48) (hg : g < 48) (hn : n ≤ 32) :
    bitPos g base < n ↔ base ≤ g ∧ g < base + n := by
  rcases Nat.lt_or_ge g base with hlt | hle
  · rw [bitPos_of_lt hlt (by omega)]
    omega
  · rw [bitPos_of_le hle (by omega)]
    omega

lemma window_bounds {base n : ℕ} (h : fitsPioWindow base n) : n ≤ 32 ∧ base + n ≤ 48 := by
  simp only [fitsPioWindow, List.any_cons, List.any_nil, Bool.or_false, Bool.or_eq_true,
    Bool.and_eq_true, decide_eq_true_eq] at h
  omega

/-- The address PIO's pins begin with the window's first GPIO. -/
lemma addrBase_eq (h : SlotOk board setType chip0 chips slot addr cs ctx) :
    addrBase slot = addr.gpioBase := by
  obtain ⟨-, hle⟩ := window_bounds h.window
  rw [addrBase, h.algOk.algAddr, buildAlgAddr]
  dsimp only
  split_ifs <;> omega

lemma numAddrPins_eq (h : SlotOk board setType chip0 chips slot addr cs ctx) :
    slot.alg.algAddr.numAddrPins = addr.numAddrPins := by
  rw [h.algOk.algAddr, buildAlgAddr]

lemma pinMap_eq (h : SlotOk board setType chip0 chips slot addr cs ctx) :
    pinMap slot = buildRomPinMap addr cs := by
  rw [pinMap, h.roms]
  rfl

lemma takeWhile_pinArray {n : ℕ} {gpios : List ℕ} (h : ∀ g ∈ gpios, g < GPIO_NONE) :
    (pinArray n gpios).takeWhile (· < GPIO_NONE) = gpios := by
  have hrest : (List.replicate (n - gpios.length) GPIO_NONE).takeWhile (· < GPIO_NONE) = [] := by
    cases n - gpios.length <;> simp [List.replicate_succ]
  rw [pinArray, List.takeWhile_append_of_pos (by simpa using h), hrest, List.append_nil]

lemma addr_lt (h : SlotOk board setType chip0 chips slot addr cs ctx) {g : ℕ}
    (hg : g ∈ addr.addrPinGpios) : addr.gpioBase ≤ g ∧ g < addr.gpioBase + addr.numAddrPins :=
  h.addrOk.within g (List.mem_append_left _ (List.mem_append_left _ hg))

lemma addrPins_eq (h : SlotOk board setType chip0 chips slot addr cs ctx) :
    addrPins slot = addr.addrPinGpios := by
  obtain ⟨-, hle⟩ := window_bounds h.window
  have hnone : GPIO_NONE = 255 := rfl
  rw [addrPins, pinMap_eq h, buildRomPinMap]
  exact takeWhile_pinArray fun g hg => by
    have := addr_lt h hg
    omega

/-- No GPIO that has a use is forced. -/
lemma override_of_used (h : SlotOk board setType chip0 chips slot addr cs ctx) {g : ℕ}
    (hused : g ∈ usedGpios addr cs slot.alg.algData) : (v2GetGpioOverride slot g).forced = false := by
  obtain ⟨inverted, hparams⟩ := h.algOk.overrides
  rw [v2GetGpioOverride_eq]
  split
  · next p hfind =>
    have hp := List.mem_of_find?_eq_some hfind
    have hgpio : p &&& 0x3F = g := by simpa using List.find?_some hfind
    rw [hparams, List.mem_append, List.mem_map] at hp
    rcases hp with ⟨g', -, rfl⟩ | hp
    · rw [ofCode_encodeOverride]
      rfl
    · -- a GPIO that is forced low has no use
      obtain ⟨g', hg', rfl⟩ := List.mem_map.mp hp
      rw [List.mem_filter, List.mem_range'_1, decide_eq_true_eq] at hg'
      have hle := lt_of_fitsPioWindow h.window
      rw [encodeOverride_gpio, Nat.mod_eq_of_lt (by omega)] at hgpio
      exact absurd (hgpio ▸ hused) hg'.2
  · rfl

end Built

end OneRom.PinMaps
