import OneRom.AlgConfig

/-!
What the PIO programs take for granted of a CS and data layout.

`deriveCsDataLayout_sound` adds the address lines that deselect to `CsOk`: they are within reach, and
the pattern that is compared with their levels has a one for each of them, as long as it is wide
enough.
-/

namespace OneRom.SelectRun

open OneRom.AlgConfig OneRom.Bonds OneRom.ChipTypes OneRom.DeriveAddr OneRom.DeriveCs OneRom.Hw
open OneRom.Layout OneRom.SlotLayout

/-! ### The pattern -/

variable {qual : List ℕ} {lo hi : ℕ}

lemma testBit_foldl_or (f : ℕ → ℕ) (l : List ℕ) (acc i : ℕ) :
    (l.foldl (fun acc g => acc ||| 1 <<< f g) acc).testBit i ↔
      acc.testBit i ∨ ∃ g ∈ l, f g = i := by
  induction l generalizing acc with
  | nil => simp
  | cons g l ih =>
    rw [List.foldl_cons, ih, Nat.testBit_or, Bool.or_eq_true, Nat.one_shiftLeft,
      Nat.testBit_two_pow, decide_eq_true_eq]
    simp only [List.mem_cons, exists_eq_or_imp, or_assoc]

lemma testBit_pattern (gpioBase i : ℕ) :
    (qualifierConfig gpioBase lo hi qual).qualifierInactivePattern.testBit i ↔
      ∃ g ∈ qual, (g - lo) % 8 = i := by
  rw [qualifierConfig, testBit_foldl_or]
  simp

/-- The pattern has a one for each of the GPIOs and no other where it has a bit for each. -/
lemma pattern_exact_iff (h : extent qual = some (lo, hi)) (gpioBase : ℕ) :
    (∀ i < hi - lo + 1, (qualifierConfig gpioBase lo hi qual).qualifierInactivePattern.testBit i ↔
      lo + i ∈ qual) ↔ ∀ g ∈ qual, g < lo + 8 := by
  obtain ⟨hloMem, hhi, hb⟩ := extent_bounds h
  constructor
  · intro hexact g hg
    by_contra hfar
    obtain ⟨hlo, hle⟩ := hb g hg
    have hbit := (hexact (g - lo) (by omega)).mpr (by rwa [Nat.add_sub_cancel' hlo])
    -- the pattern's bits are below the eighth
    obtain ⟨g', -, hmod⟩ := (testBit_pattern gpioBase (g - lo)).mp hbit
    omega
  · intro hnear i hi'
    rw [testBit_pattern]
    constructor
    · rintro ⟨g, hg, hmod⟩
      have hg8 := hnear g hg
      have hlo := (hb g hg).1
      rwa [show lo + i = g by omega]
    · intro hmem
      have hg8 := hnear _ hmem
      exact ⟨lo + i, hmem, by omega⟩

/-! ### The layout -/

variable {ctx : SlotContext} {addr : AddrLayout} {layout : CsDataLayout}

/-- The address lines that, all high, deselect the chip are among those the CS algorithm reads, which
one PIO reaches. Its pattern has a one exactly at them if they are within eight GPIOs. -/
structure QualifiersOk (ctx : SlotContext) (addr : AddrLayout) (layout : CsDataLayout)
    (base num pattern : ℕ) : Prop where
  gpios : ∃ qual, qualGpios ctx.chip0 addr = .ok (some qual) ∧
    (∀ g ∈ qual, layout.gpioBase + base ≤ g ∧ g < layout.gpioBase + base + num) ∧
    ((∀ i < num, pattern.testBit i ↔ layout.gpioBase + base + i ∈ qual) ↔
      ∀ g ∈ qual, g < layout.gpioBase + base + 8)
  within : base + num ≤ 32

lemma csCombo_qualifiers {lines : SelectCandidates} {data select commoned : List ℕ}
    {qual : Option (List ℕ)} {score : ℕ × ℕ} {cs2 : AlgCs2Config}
    (h : csCombo ctx lines addr.excessAddrPinGpios qual data select commoned =
      .found layout score) (hcs2 : layout.algCs2 = some cs2) :
    ∃ qualPins lo hi, qual = some qualPins ∧ extent qualPins = some (lo, hi) ∧
      layout.gpioBase ≤ lo ∧ hi < layout.gpioBase + 32 ∧
      cs2 = qualifierConfig layout.gpioBase lo hi qualPins := by
  unfold csCombo at h
  dsimp only at h
  split at h
  swap
  · cases h
  next dataMin dataMax selMin selMax _ _ =>
  split at h
  · cases h
  split at h
  · cases h
  obtain ⟨hminLe, hminAll⟩ :=
    foldl_min_le ((qual.bind extent).toList.map (·.1)) (min dataMin selMin)
  obtain ⟨hmaxLe, hmaxAll⟩ :=
    le_foldl_max ((qual.bind extent).toList.map (·.2)) (max dataMax selMax)
  set low := ((qual.bind extent).toList.map (·.1)).foldl min (min dataMin selMin)
  set high := ((qual.bind extent).toList.map (·.2)).foldl max (max dataMax selMax)
  set base := if low < 16 then 0 else 16 with hbase
  split_ifs at h with hfits
  rw [Bool.not_eq_false] at hfits
  cases h
  obtain ⟨⟨lo, hi⟩, hq, rfl⟩ := Option.map_eq_some_iff.mp hcs2
  obtain ⟨qualPins, rfl, hextent⟩ := Option.bind_eq_some_iff.mp hq
  have hlow := hminAll lo (by simp [hq])
  have hhigh := hmaxAll hi (by simp [hq])
  have hlo : base ≤ low := by
    rw [hbase]
    split_ifs <;> omega
  have hhi : high < base + 32 := by
    simp only [fitsPioWindow, List.any_cons, List.any_nil, Bool.or_false, Bool.or_eq_true,
      Bool.and_eq_true, decide_eq_true_eq] at hfits
    have hbases : base = 0 ∨ base = 16 := by
      rw [hbase]
      split_ifs <;> simp
    omega
  exact ⟨qualPins, lo, hi, rfl, hextent, hlo.trans hlow, by dsimp only; omega, rfl⟩

/-- A fire-28-a with the GPIOs of pins 3 and 27 swapped: A14 is nine GPIOs after A15. -/
def swapped28A : Board where
  name := "fire-28-a"
  name_ne := fire28A.name_ne
  chipPins := 28
  socketPinMap := bonded signal28
    [16, 17, 10, 20, 19, 21, 22, 23, 24, 25, 7, 6, 5, 0, 1, 2, 3, 4, 9, 11, 8, 13, 12, 14, 15, 18]

/-- A single 23QL384, which A14 and A15 deselect. -/
def single23QL384 (board : Board) : SlotContext where
  board := board
  setType := .single
  chipTypes := [.chip23QL384]
  chipTypes_ne := List.cons_ne_nil _ _
  csConfig := .chipSelect .activeLow none none none
  bitMode := .bitMode8
  pinOffset := 0
  force16Bit := false
  multiCsConfig := none

end OneRom.SelectRun
