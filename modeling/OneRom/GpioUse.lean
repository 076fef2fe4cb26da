import Mathlib

/-!
Which GPIOs serving a slot uses.

The generator makes a mask of them, and the firmware says of one GPIO at a time what it is used for.
`usedGpios_iff` says that the two agree.
-/

namespace OneRom.GpioUse

/-! ### The algorithms of a slot -/

def GPIO_NONE : UInt8 := 255

/-- A CS algorithm, with what is its own. One that has no name here is kept as its number. -/
inductive CsAlg
  | algCs0 (bytePin : UInt8)
  | algCs1 (csIgnoreIndex : UInt8)
  | algCs2
  | unknown (alg : UInt8)
  deriving DecidableEq

structure OneromAlgCsConfig where
  alg : CsAlg
  gpioBase : UInt8
  baseCsPin : UInt8
  numCsPins : UInt8
  baseDataPin : UInt8
  numDataPins : UInt8

inductive AddrAlg
  | algAddr0
  | unknown (alg : UInt8)
  deriving DecidableEq

structure OneromAlgAddrConfig where
  alg : AddrAlg
  gpioBase : UInt8
  baseAddrPin : UInt8
  numAddrPins : UInt8

structure OneromAlgConfig where
  algCs : OneromAlgCsConfig
  algAddr : OneromAlgAddrConfig
  /-- A GPIO in the low six bits of each, and its override in the top two. -/
  gpioOverrideConfig : Option (List UInt8)

def gpioOverLow : UInt8 := 2
def gpioOverHigh : UInt8 := 3

/-! ### The mask -/

def saturatingAdd (a b : UInt8) : UInt8 := if a.toNat + b.toNat < 256 then a + b else 255

/-- `count` GPIOs from `first` on, those that there are and that a mask has a bit for. -/
def span (first count : UInt8) : BitVec 64 :=
  (((List.range count.toNat).map (first.toNat + ·)).filter fun gpio => gpio < 256 ∧ gpio < 64).foldl
    (fun mask gpio => mask ||| 1#64 <<< gpio) 0#64

/-- The GPIOs whose input is forced. -/
def forcedGpios (overrides : List UInt8) : BitVec 64 :=
  let forced := overrides.filter fun entry : UInt8 =>
    entry >>> 6 = gpioOverLow ∨ entry >>> 6 = gpioOverHigh
  (forced.map fun entry : UInt8 => (entry &&& 0x3F).toNat).foldl
    (fun mask gpio => mask ||| 1#64 <<< gpio) 0#64

def usedGpios (alg : OneromAlgConfig) : BitVec 64 :=
  let cs := alg.algCs
  let used := span (saturatingAdd cs.gpioBase cs.baseDataPin) cs.numDataPins |||
    span (saturatingAdd cs.gpioBase cs.baseCsPin) cs.numCsPins
  let used := match cs.alg with
    | .algCs0 bytePin =>
      if bytePin ≠ GPIO_NONE then used ||| span (saturatingAdd cs.gpioBase bytePin) 1 else used
    | _ => used
  let addr := alg.algAddr
  let forced := forcedGpios (alg.gpioOverrideConfig.getD [])
  used ||| span (saturatingAdd addr.gpioBase addr.baseAddrPin) addr.numAddrPins &&& ~~~forced

/-! ### The firmware -/

inductive Rp235xVariant
  | rp235xb
  | rp235xa
  deriving DecidableEq

def maxGpios : Rp235xVariant → UInt8
  | .rp235xb => 48
  | .rp235xa => 30

structure GpioInit where
  baseDataPin : UInt8
  numDataPins : UInt8
  baseAddrPin : UInt8
  numAddrPins : UInt8
  baseCsPin : UInt8
  numCsPins : UInt8
  bytePin : UInt8
  overrides : List UInt8

/-- What serving has GPIOs set up for. `none` is an algorithm the firmware doesn't have. The number
of overrides is a byte. -/
def retrieveGpioInit (alg : OneromAlgConfig) : Option GpioInit := do
  let cs := alg.algCs
  let bytePin ← match cs.alg with
    | .algCs0 bytePin => some (if bytePin ≠ GPIO_NONE then bytePin + cs.gpioBase else 0xFF)
    | .algCs1 _ => some 0xFF
    | .algCs2 => some 0xFF
    | .unknown _ => none
  let addr := alg.algAddr
  match addr.alg with
  | .algAddr0 =>
    let overrides := alg.gpioOverrideConfig.getD []
    some {
      baseDataPin := cs.baseDataPin + cs.gpioBase
      numDataPins := cs.numDataPins
      baseAddrPin := addr.baseAddrPin + addr.gpioBase
      numAddrPins := addr.numAddrPins
      baseCsPin := cs.baseCsPin + cs.gpioBase
      numCsPins := cs.numCsPins
      bytePin := bytePin
      overrides := overrides.take (overrides.length % 256) }
  | .unknown _ => none

inductive OraResult
  | internalError
  deriving DecidableEq

inductive OraGpioUse
  | free | servingRead | servingDriven | inputForced
  deriving DecidableEq

/-- The GPIO is one of `num` from `base` on. -/
def inSpan (variant : Rp235xVariant) (base num gpio : UInt8) : Bool :=
  base < maxGpios variant ∧ base ≤ gpio ∧ gpio.toNat - base.toNat < num.toNat

/-- The entry forces the GPIO's input. -/
def forces (entry gpio : UInt8) : Bool :=
  entry &&& 0x3F = gpio ∧
    ((entry &&& 0xC0) >>> 6 = gpioOverLow ∨ (entry &&& 0xC0) >>> 6 = gpioOverHigh)

def pioGetGpioUse (variant : Rp235xVariant) (alg : OneromAlgConfig) (gpio : UInt8) :
    Except OraResult OraGpioUse :=
  match retrieveGpioInit alg with
  | none => .error .internalError
  | some init =>
    if inSpan variant init.baseDataPin init.numDataPins gpio then .ok .servingDriven
    else if inSpan variant init.baseCsPin init.numCsPins gpio then .ok .servingRead
    else if init.bytePin < maxGpios variant ∧ gpio = init.bytePin then .ok .servingRead
    else if init.overrides.any (forces · gpio) then .ok .inputForced
    else if inSpan variant init.baseAddrPin init.numAddrPins gpio then .ok .servingRead
    else .ok .free

/-! ### Masks -/

variable {variant : Rp235xVariant} {alg : OneromAlgConfig} {gpio : UInt8}

lemma maxGpios_le (variant : Rp235xVariant) : (maxGpios variant).toNat ≤ 48 := by
  cases variant <;> decide

lemma getLsbD_foldl_or (gpios : List ℕ) (mask : BitVec 64) {i : ℕ} (hi : i < 64) :
    (gpios.foldl (fun mask gpio => mask ||| 1#64 <<< gpio) mask).getLsbD i ↔
      mask.getLsbD i ∨ i ∈ gpios := by
  induction gpios generalizing mask with
  | nil => simp
  | cons gpio gpios ih =>
    have hbit : (1#64 <<< gpio).getLsbD i = decide (i = gpio) := by
      have htwo : (BitVec.twoPow 64 gpio).getLsbD i = decide (i = gpio) := by
        rw [BitVec.getLsbD_twoPow]
        by_cases heq : i = gpio
        · simp [← heq, hi]
        · simp [heq, Ne.symm heq]
      exact htwo
    rw [List.foldl_cons, ih, BitVec.getLsbD_or, Bool.or_eq_true, hbit, decide_eq_true_eq,
      List.mem_cons, or_assoc]

lemma getLsbD_span (first count : UInt8) {i : ℕ} (hi : i < 64) :
    (span first count).getLsbD i ↔ first.toNat ≤ i ∧ i < first.toNat + count.toNat := by
  rw [span, getLsbD_foldl_or _ _ hi]
  simp only [BitVec.getLsbD_zero, Bool.false_eq_true, false_or, List.mem_filter, List.mem_map,
    List.mem_range, decide_eq_true_eq]
  constructor
  · rintro ⟨⟨n, hn, rfl⟩, -⟩
    omega
  · rintro ⟨hle, hlt⟩
    exact ⟨⟨i - first.toNat, by omega, by omega⟩, by omega, hi⟩

lemma getLsbD_forcedGpios (overrides : List UInt8) (hgpio : gpio.toNat < 64) :
    (forcedGpios overrides).getLsbD gpio.toNat ↔ overrides.any (forces · gpio) := by
  have hmode : ∀ entry : UInt8, (entry &&& 0xC0) >>> 6 = entry >>> 6 := by decide +kernel
  rw [forcedGpios, getLsbD_foldl_or _ _ hgpio, List.any_eq_true]
  simp only [BitVec.getLsbD_zero, Bool.false_eq_true, false_or, List.mem_map, List.mem_filter,
    decide_eq_true_eq, forces, hmode, UInt8.toNat_inj]
  constructor
  · rintro ⟨entry, ⟨hentry, hforced⟩, heq⟩
    exact ⟨entry, hentry, heq, hforced⟩
  · rintro ⟨entry, hentry, heq, hforced⟩
    exact ⟨entry, ⟨hentry, hforced⟩, heq⟩

/-- A span is the same to both where its first GPIO's number is a byte. -/
lemma getLsbD_span_iff (hgpio : gpio < maxGpios variant) {base pin count : UInt8}
    (hsum : base.toNat + pin.toNat ≤ 255) :
    (span (saturatingAdd base pin) count).getLsbD gpio.toNat ↔
      inSpan variant (pin + base) count gpio := by
  have hmax := maxGpios_le variant
  rw [UInt8.lt_iff_toNat_lt] at hgpio
  have hadd : (saturatingAdd base pin).toNat = base.toNat + pin.toNat := by
    rw [saturatingAdd, if_pos (by omega), UInt8.toNat_add, Nat.mod_eq_of_lt (by omega)]
  have hadd' : (pin + base).toNat = base.toNat + pin.toNat := by
    rw [UInt8.toNat_add, Nat.mod_eq_of_lt (by omega), Nat.add_comm]
  rw [getLsbD_span _ _ (by omega), inSpan]
  simp only [hadd, hadd', UInt8.lt_iff_toNat_lt, UInt8.le_iff_toNat_le, decide_eq_true_eq]
  omega

/-! ### The same slot -/

/-- The slot is one the firmware serves: it has the algorithms, each of its spans begins at a GPIO
whose number is a byte, and its overrides are counted in one. -/
structure Served (alg : OneromAlgConfig) : Prop where
  csKnown : ∀ n, alg.algCs.alg ≠ .unknown n
  addrKnown : ∀ n, alg.algAddr.alg ≠ .unknown n
  data : alg.algCs.gpioBase.toNat + alg.algCs.baseDataPin.toNat ≤ 255
  cs : alg.algCs.gpioBase.toNat + alg.algCs.baseCsPin.toNat ≤ 255
  byte : ∀ bytePin, alg.algCs.alg = .algCs0 bytePin → bytePin ≠ GPIO_NONE →
    alg.algCs.gpioBase.toNat + bytePin.toNat ≤ 255
  addr : alg.algAddr.gpioBase.toNat + alg.algAddr.baseAddrPin.toNat ≤ 255
  overrides : (alg.gpioOverrideConfig.getD []).length ≤ 255

/-- The pin of `/BYTE` that the firmware sets up. -/
def bytePinOf (cs : OneromAlgCsConfig) : UInt8 :=
  match cs.alg with
  | .algCs0 bytePin => if bytePin ≠ GPIO_NONE then bytePin + cs.gpioBase else 0xFF
  | _ => 0xFF

lemma retrieveGpioInit_eq (h : Served alg) :
    retrieveGpioInit alg = some {
      baseDataPin := alg.algCs.baseDataPin + alg.algCs.gpioBase
      numDataPins := alg.algCs.numDataPins
      baseAddrPin := alg.algAddr.baseAddrPin + alg.algAddr.gpioBase
      numAddrPins := alg.algAddr.numAddrPins
      baseCsPin := alg.algCs.baseCsPin + alg.algCs.gpioBase
      numCsPins := alg.algCs.numCsPins
      bytePin := bytePinOf alg.algCs
      overrides := alg.gpioOverrideConfig.getD [] } := by
  have htake : (alg.gpioOverrideConfig.getD []).take ((alg.gpioOverrideConfig.getD []).length % 256) =
      alg.gpioOverrideConfig.getD [] := by
    rw [Nat.mod_eq_of_lt (by have := h.overrides; omega), List.take_length]
  unfold retrieveGpioInit bytePinOf
  cases haddr : alg.algAddr.alg with
  | unknown n => exact absurd haddr (h.addrKnown n)
  | algAddr0 =>
    cases hcs : alg.algCs.alg with
    | unknown n => exact absurd hcs (h.csKnown n)
    | algCs0 bytePin => simp only [hcs, haddr, Option.bind_eq_bind, Option.bind_some, htake]
    | algCs1 csIgnoreIndex =>
      simp only [hcs, haddr, Option.bind_eq_bind, Option.bind_some, htake]
    | algCs2 => simp only [hcs, haddr, Option.bind_eq_bind, Option.bind_some, htake]

/-- The mask of the spans and of `/BYTE`. -/
lemma getLsbD_byte (h : Served alg) (hgpio : gpio < maxGpios variant) (used : BitVec 64) :
    (match alg.algCs.alg with
      | .algCs0 bytePin =>
        if bytePin ≠ GPIO_NONE then used ||| span (saturatingAdd alg.algCs.gpioBase bytePin) 1
        else used
      | _ => used).getLsbD gpio.toNat ↔
      used.getLsbD gpio.toNat ∨
        (bytePinOf alg.algCs < maxGpios variant ∧ gpio = bytePinOf alg.algCs) := by
  have hmax := maxGpios_le variant
  have hnone : ¬((0xFF : UInt8) < maxGpios variant ∧ gpio = 0xFF) := by
    rw [UInt8.lt_iff_toNat_lt]
    rintro ⟨hlt, -⟩
    have h255 : (0xFF : UInt8).toNat = 255 := rfl
    omega
  unfold bytePinOf
  cases hcs : alg.algCs.alg with
  | unknown n => exact absurd hcs (h.csKnown n)
  | algCs1 csIgnoreIndex => simp only [hnone, or_false]
  | algCs2 => simp only [hnone, or_false]
  | algCs0 bytePin =>
    dsimp only
    by_cases hbyte : bytePin ≠ GPIO_NONE
    · rw [if_pos hbyte, if_pos hbyte, BitVec.getLsbD_or, Bool.or_eq_true,
        getLsbD_span_iff hgpio (h.byte bytePin hcs hbyte), inSpan, decide_eq_true_eq]
      have hone : (1 : UInt8).toNat = 1 := rfl
      refine or_congr_right (and_congr_right fun _ => ?_)
      rw [hone, UInt8.le_iff_toNat_le, ← UInt8.toNat_inj]
      omega
    · rw [if_neg hbyte, if_neg hbyte]
      simp only [hnone, or_false]

/-- **The generator and the firmware agree** on the GPIOs that serving a slot uses. -/
theorem usedGpios_iff (h : Served alg) (hgpio : gpio < maxGpios variant) :
    (usedGpios alg).getLsbD gpio.toNat ↔
      pioGetGpioUse variant alg gpio = .ok .servingRead ∨
        pioGetGpioUse variant alg gpio = .ok .servingDriven := by
  have hlt : gpio.toNat < 64 := by
    have hmax := maxGpios_le variant
    rw [UInt8.lt_iff_toNat_lt] at hgpio
    omega
  have hmask : (usedGpios alg).getLsbD gpio.toNat ↔
      (inSpan variant (alg.algCs.baseDataPin + alg.algCs.gpioBase) alg.algCs.numDataPins gpio ∨
        inSpan variant (alg.algCs.baseCsPin + alg.algCs.gpioBase) alg.algCs.numCsPins gpio) ∨
      (bytePinOf alg.algCs < maxGpios variant ∧ gpio = bytePinOf alg.algCs) ∨
      (inSpan variant (alg.algAddr.baseAddrPin + alg.algAddr.gpioBase) alg.algAddr.numAddrPins
          gpio ∧ ¬(alg.gpioOverrideConfig.getD []).any (forces · gpio)) := by
    rw [usedGpios, BitVec.getLsbD_or, Bool.or_eq_true, getLsbD_byte h hgpio, BitVec.getLsbD_or,
      Bool.or_eq_true, BitVec.getLsbD_and, Bool.and_eq_true, BitVec.getLsbD_not, Bool.and_eq_true,
      Bool.not_eq_true', decide_eq_true_eq, getLsbD_span_iff hgpio h.data,
      getLsbD_span_iff hgpio h.cs, getLsbD_span_iff hgpio h.addr, ← Bool.not_eq_true,
      getLsbD_forcedGpios _ hlt, or_assoc]
    simp only [hlt, true_and]
  rw [hmask, pioGetGpioUse, retrieveGpioInit_eq h]
  dsimp only
  split_ifs with hdata hcs hbyte hforced haddr
  · simp [hdata]
  · simp [hcs]
  · simp [hbyte]
  · simp [hdata, hcs, hbyte, hforced]
  · simp [hforced, haddr]
  · simp [hdata, hcs, hbyte, haddr]

/-- A 27C256 on GPIOs 8 and up, with its highest address line forced high. -/
def alg27C256 : OneromAlgConfig where
  algCs := ⟨.algCs0 GPIO_NONE, 0, 10, 2, 0, 8⟩
  algAddr := ⟨.algAddr0, 0, 10, 18⟩
  gpioOverrideConfig := some [0xC0 ||| 27]

lemma served_27C256 : Served alg27C256 where
  csKnown := by simp [alg27C256]
  addrKnown := by simp [alg27C256]
  data := by decide
  cs := by decide
  byte := by simp [alg27C256]
  addr := by decide
  overrides := by decide

theorem usedGpios_iff_27C256 :
    (usedGpios alg27C256).getLsbD (26 : UInt8).toNat ↔
      pioGetGpioUse .rp235xa alg27C256 26 = .ok .servingRead ∨
        pioGetGpioUse .rp235xa alg27C256 26 = .ok .servingDriven :=
  usedGpios_iff served_27C256 (by decide)

def algUnknown : OneromAlgConfig where
  algCs := ⟨.unknown 7, 0, 10, 2, 0, 8⟩
  algAddr := ⟨.algAddr0, 0, 10, 16⟩
  gpioOverrideConfig := none

/-- The firmware refuses an algorithm it doesn't have, which still has a mask. -/
theorem usedGpios_unknown :
    (usedGpios algUnknown).getLsbD (0 : UInt8).toNat ∧
      pioGetGpioUse .rp235xa algUnknown 0 = .error .internalError ∧
      ¬((usedGpios algUnknown).getLsbD (0 : UInt8).toNat ↔
        pioGetGpioUse .rp235xa algUnknown 0 = .ok .servingRead ∨
          pioGetGpioUse .rp235xa algUnknown 0 = .ok .servingDriven) := by
  decide +kernel

end OneRom.GpioUse
