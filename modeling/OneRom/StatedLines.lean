import OneRom.CheckCs

/-!
What is left of a chip's stated settings in its `CsConfig`.

`from_chip_type` has `ce` and `oe` take precedence: where one of them is stated, the CS lines
aren't read.
-/

namespace OneRom.StatedLines

open OneRom.ChipTypes OneRom.CsConfig OneRom.CsConfig.CsConfig OneRom.CheckCs

/-- The setting of a chip's line: as stated, otherwise as the chip type fixes it, and otherwise
active low. -/
def configured (chip : ChipConfig) (name : LineName) : CsLogic :=
  match chip.line name with
  | some logic => logic
  | none =>
    match (chip.chipType.line name).bind (·.lineType.fixedActiveLevel) with
    | some true => .activeHigh
    | _ => .activeLow

/-- The `CsConfig` a chip of the configuration is given. -/
def csConfig (chip : ChipConfig) : Option CsConfig := fromChipType chip.chipType chip.toStated

variable {chip : ChipConfig} {c : CsConfig}

/-! ### The chip enable lines -/

lemma csConfig_ceOe (h : chip.ce.isSome ∨ chip.oe.isSome) :
    csConfig chip = some (newWithCeOe chip.ce chip.oe) := if_pos h

lemma newWithCeOe_lines (ce oe : Option CsLogic) :
    controlLineLogic .ce (newWithCeOe ce oe) = ce.getD .activeLow ∧
      controlLineLogic .oe (newWithCeOe ce oe) = oe.getD .activeLow := by
  unfold newWithCeOe
  dsimp only
  split_ifs with h
  · exact ⟨h.1.symm, h.2.symm⟩
  · exact ⟨rfl, rfl⟩

lemma controlLineLogic_new {cs1 cs2 cs3 cs4 : Option CsLogic} (h : new cs1 cs2 cs3 cs4 = some c) :
    controlLineLogic .ce c = .activeLow ∧ controlLineLogic .oe c = .activeLow := by
  unfold new at h
  split_ifs at h
  · obtain rfl := Option.some.inj h
    exact ⟨rfl, rfl⟩
  · obtain ⟨_, -, rfl⟩ := Option.map_eq_some_iff.mp h
    exact ⟨rfl, rfl⟩

/-- `ce` and `oe` read as stated, whatever else is. -/
lemma controlLineLogic_ceOe (h : csConfig chip = some c) :
    controlLineLogic .ce c = chip.ce.getD .activeLow ∧
      controlLineLogic .oe c = chip.oe.getD .activeLow := by
  by_cases hs : chip.ce.isSome ∨ chip.oe.isSome
  · rw [csConfig_ceOe hs] at h
    obtain rfl := Option.some.inj h
    exact newWithCeOe_lines chip.ce chip.oe
  · obtain ⟨hce, hoe⟩ := not_or.mp hs
    rw [Option.not_isSome_iff_eq_none] at hce hoe
    rw [hce, hoe]
    unfold csConfig fromChipType at h
    rw [if_neg hs] at h
    exact controlLineLogic_new h

/-! ### The CS lines -/

/-- What `from_chip_type` makes of a CS line. -/
def resolved (chip : ChipConfig) (name : LineName) : Option CsLogic :=
  resolve chip.chipType name (chip.line name)

lemma csConfig_cs (hce : chip.ce = none) (hoe : chip.oe = none) :
    csConfig chip = new (resolved chip .cs1) (resolved chip .cs2) (resolved chip .cs3)
      (resolved chip .cs4) := if_neg (by simp [hce, hoe])

/-- A CS line reads as it was resolved. -/
lemma controlLineLogic_resolved (hce : chip.ce = none) (hoe : chip.oe = none)
    (h : csConfig chip = some c) {name : LineName} (hn : name ∈ csNames) :
    controlLineLogic name c = (resolved chip name).getD .activeLow := by
  rw [csConfig_cs hce hoe] at h
  unfold new at h
  split_ifs at h with hnone
  · obtain rfl := Option.some.inj h
    simp only [Option.isNone_iff_eq_none] at hnone
    obtain ⟨h1, h2, h3, h4⟩ := hnone
    simp only [csNames, List.mem_cons, List.not_mem_nil, or_false] at hn
    rcases hn with rfl | rfl | rfl | rfl
    · rw [h1]; rfl
    · rw [h2]; rfl
    · rw [h3]; rfl
    · rw [h4]; rfl
  · obtain ⟨cs1, h1, rfl⟩ := Option.map_eq_some_iff.mp h
    simp only [csNames, List.mem_cons, List.not_mem_nil, or_false] at hn
    rcases hn with rfl | rfl | rfl | rfl
    · rw [h1]; rfl
    · rfl
    · rfl
    · rfl

/-- Where a line of fixed polarity is at most ignored, a line is resolved as it was stated. -/
lemma resolved_of_stated {name : LineName} {logic : CsLogic} (hs : chip.line name = some logic)
    (hfixed : ∀ spec ∈ chip.chipType.line name, spec.lineType ≠ .configurable → logic = .ignore) :
    resolved chip name = some logic := by
  unfold resolved resolve
  rw [hs]
  cases hline : chip.chipType.line name with
  | none => rfl
  | some spec =>
    by_cases hc : spec.lineType = .configurable
    · simp only [hc, ControlLineType.fixedActiveLevel]
    · obtain rfl := hfixed spec hline hc
      dsimp only
      split <;> simp

/-- A line of the chip is resolved to its setting. -/
lemma resolved_of_line {name : LineName} (hv : CsValueOk chip name)
    (hl : (chip.chipType.line name).isSome) :
    resolved chip name = some (configured chip name) := by
  cases hs : chip.line name with
  | some logic =>
    rw [resolved_of_stated hs fun spec hline hc => hv.fixed spec hline hc logic hs]
    simp only [configured, hs]
  | none =>
    obtain ⟨spec, hline⟩ := Option.isSome_iff_exists.mp hl
    have hc : spec.lineType ≠ .configurable := fun hc => by
      simpa [hs] using hv.configurable spec hline hc
    simp only [resolved, resolve, configured, hs, hline, Option.bind_some]
    cases ht : spec.lineType with
    | configurable => exact absurd ht hc
    | fixedActiveLow => simp [ControlLineType.fixedActiveLevel]
    | fixedActiveHigh => simp [ControlLineType.fixedActiveLevel]

/-- A chip type with CS lines has CS1 among them. -/
lemma cs1_of_csLine (t : ChipType) {name : LineName} (hn : name ∈ csNames)
    (hl : (t.line name).isSome) : (t.line .cs1).isSome := by
  revert hl hn
  cases name <;> cases t <;> decide

/-- Where no chip enable line is stated the CS lines give a configuration. -/
lemma csConfig_isSome (hce : chip.ce = none) (hoe : chip.oe = none)
    (hv : ∀ name ∈ csNames, CsValueOk chip name) : ∃ c, csConfig chip = some c := by
  rw [csConfig_cs hce hoe]
  unfold new
  split_ifs with hnone
  · exact ⟨_, rfl⟩
  · suffices h : (resolved chip .cs1).isSome by
      obtain ⟨cs1, h1⟩ := Option.isSome_iff_exists.mp h
      exact ⟨_, by rw [h1, Option.map_some]⟩
    -- Some CS line is resolved: it is one of the chip's, and then CS1 is too, or it is CS1
    have hsome : ∃ name ∈ csNames, (resolved chip name).isSome := by
      by_contra hall
      have hres : ∀ name ∈ csNames, (resolved chip name).isNone := fun name hn =>
        Option.isNone_iff_eq_none.mpr (Option.not_isSome_iff_eq_none.mp fun hr =>
          hall ⟨name, hn, hr⟩)
      exact hnone ⟨hres .cs1 (by decide), hres .cs2 (by decide), hres .cs3 (by decide),
        hres .cs4 (by decide)⟩
    obtain ⟨name, hn, hr⟩ := hsome
    by_cases hl : (chip.chipType.line name).isSome
    · rw [resolved_of_line (hv .cs1 (by decide)) (cs1_of_csLine _ hn hl)]
      rfl
    · have hline := Option.not_isSome_iff_eq_none.mp hl
      have hstated : (chip.line name).isSome := by simpa [resolved, resolve, hline] using hr
      obtain ⟨-, rfl⟩ := (hv name hn).absent hline |>.mp hstated
      exact hr

/-! ### Every line -/

lemma csConfig_of_chipOk (hok : ChipOk chip) : ∃ c, csConfig chip = some c := by
  by_cases hs : chip.ce.isSome ∨ chip.oe.isSome
  · exact ⟨_, csConfig_ceOe hs⟩
  · simp only [not_or, Option.not_isSome_iff_eq_none] at hs
    exact csConfig_isSome hs.1 hs.2 hok.values

/-- A line's setting, where nothing takes precedence over it. -/
lemma controlLineLogic_configured (hok : ChipOk chip) (h : csConfig chip = some c)
    {name : LineName} (hn : isControl name) (hl : (chip.chipType.line name).isSome)
    (hprec : name ∈ csNames → chip.ce = none ∧ chip.oe = none) :
    controlLineLogic name c = configured chip name := by
  by_cases hcs : name ∈ csNames
  · obtain ⟨hce, hoe⟩ := hprec hcs
    rw [controlLineLogic_resolved hce hoe h hcs, resolved_of_line (hok.values name hcs) hl]
    rfl
  · obtain ⟨spec, hline⟩ := Option.isSome_iff_exists.mp hl
    have hname : name = .ce ∨ name = .oe := by
      cases name <;> simp_all [isControl, csNames]
    obtain ⟨hfixed, -⟩ := chip.chipType.ceOe_fixed hname hline
    rcases hname with rfl | rfl
    · rw [(controlLineLogic_ceOe h).1]
      simp only [configured, Stated.line, hline, Option.bind_some, hfixed,
        ControlLineType.fixedActiveLevel]
      cases chip.ce <;> rfl
    · rw [(controlLineLogic_ceOe h).2]
      simp only [configured, Stated.line, hline, Option.bind_some, hfixed,
        ControlLineType.fixedActiveLevel]
      cases chip.oe <;> rfl

/-- Every setting stated for the chip is read back: a line's by its name, and the half-select's
as the primary chip select. -/
def LinesKept (chip : ChipConfig) (c : CsConfig) : Prop :=
  (∀ name logic, chip.line name = some logic → controlLineLogic name c = logic) ∧
    (chip.chipType.requiresHalfSelectCs1 → ∀ logic, chip.cs1 = some logic → c.cs1Logic = some logic)

/-- No chip enable line is stated along with CS lines. -/
def Apart (chip : ChipConfig) : Prop :=
  chip.ce = none ∧ chip.oe = none ∨ ∀ name ∈ csNames, chip.line name = none

lemma linesKept (h : csConfig chip = some c) (hapart : Apart chip)
    (hfixed : ∀ name ∈ csNames, ∀ spec ∈ chip.chipType.line name, spec.lineType ≠ .configurable →
      ∀ logic ∈ chip.line name, logic = .ignore) : LinesKept chip c := by
  refine ⟨fun name logic hs => ?_, fun _ logic hs => ?_⟩
  · by_cases hcs : name ∈ csNames
    · rcases hapart with ⟨hce, hoe⟩ | hnone
      · rw [controlLineLogic_resolved hce hoe h hcs,
          resolved_of_stated hs fun spec hline hc => hfixed name hcs spec hline hc logic hs]
        rfl
      · exact nomatch (hnone name hcs).symm.trans hs
    · obtain ⟨hce, hoe⟩ := controlLineLogic_ceOe h
      cases name with
      | ce => rw [hce, show chip.ce = some logic from hs]; rfl
      | oe => rw [hoe, show chip.oe = some logic from hs]; rfl
      | cs1 | cs2 | cs3 | cs4 => exact absurd (by decide) hcs
      | busy | byte | write => cases hs
  · rcases hapart with ⟨hce, hoe⟩ | hnone
    · have h1 : resolved chip .cs1 = some logic := resolved_of_stated hs
        fun spec hline hc => hfixed .cs1 (by decide) spec hline hc logic hs
      rw [csConfig_cs hce hoe, h1] at h
      obtain rfl := Option.some.inj h
      rfl
    · exact nomatch (hnone .cs1 (by decide)).symm.trans hs

lemma plugin_line {t : ChipType} (hp : t.isPlugin) (name : LineName) : t.line name = none := by
  revert hp
  cases t <;> first | (intro; rfl) | (intro hp; cases hp)

/-- A chip with CS lines beside its chip enable lines, `ce` stated. -/
def mixedChip : ChipConfig :=
  { chipType := .chip23C1001, cs1 := some .activeHigh, cs2 := some .activeHigh,
    ce := some .activeLow }

def mixedConfig : Config := ⟨[⟨.single, [mixedChip]⟩]⟩

/-- A HM7641 with a line ignored. -/
def hm7641Chip : ChipConfig :=
  { chipType := .chipHM7641, cs4 := some .ignore, allowCsIgnore := true }

def hm7641Config : Config := ⟨[⟨.single, [hm7641Chip]⟩]⟩

/-- **What is kept of the settings of an accepted chip**: `ce` and `oe` always, and every setting
where the chip enable lines and the CS lines aren't both stated. On a chip type that has both,
`ce` and `oe` take precedence. -/
theorem stated_lines_kept {config : Config} (h : checkCsV2 config = .ok ()) {set : ChipSetConfig}
    (hset : set ∈ config.chipSets) {chip : ChipConfig} (hchip : chip ∈ set.chips) :
    (¬chip.chipType.isPlugin → (csConfig chip).isSome) ∧
      ∀ c, csConfig chip = some c →
        (∀ logic, chip.ce = some logic → controlLineLogic .ce c = logic) ∧
        (∀ logic, chip.oe = some logic → controlLineLogic .oe c = logic) ∧
        (Apart chip → LinesKept chip c) ∧
        ((chip.chipType.line .cs1).isSome → chip.ce.isSome ∨ chip.oe.isSome →
          c = newWithCeOe chip.ce chip.oe) := by
  have hok : ¬chip.chipType.isPlugin → ChipOk chip := fun hp => by
    rcases checkCsV2_ok h set hset with hall | hset
    · exact absurd (List.all_eq_true.mp hall chip hchip) hp
    · exact hset.chips chip hchip hp
  refine ⟨fun hp => ?_, fun c hc => ⟨fun logic hs => ?_, fun logic hs => ?_, fun hapart => ?_,
    fun _ hs => ?_⟩⟩
  · exact Option.isSome_iff_exists.mpr (csConfig_of_chipOk (hok hp))
  · rw [(controlLineLogic_ceOe hc).1, hs]
    rfl
  · rw [(controlLineLogic_ceOe hc).2, hs]
    rfl
  · refine linesKept hc hapart fun name hn spec hline hcfg logic hs => ?_
    by_cases hp : chip.chipType.isPlugin
    · exact nomatch (plugin_line hp name).symm.trans hline
    · exact ((hok hp).values name hn).fixed spec hline hcfg logic hs
  · exact (Option.some.inj ((csConfig_ceOe hs).symm.trans hc)).symm

theorem stated_lines_kept_hm7641 :
    ∃ c, csConfig hm7641Chip = some c ∧ LinesKept hm7641Chip c ∧
      controlLineLogic .cs4 c = .ignore := by
  obtain ⟨hsome, hkept⟩ := stated_lines_kept (show checkCsV2 hm7641Config = .ok () by decide)
    (List.mem_singleton_self _) (List.mem_singleton_self hm7641Chip)
  obtain ⟨c, hc⟩ := Option.isSome_iff_exists.mp (hsome (by decide))
  have hlines := (hkept c hc).2.2.1 (Or.inl ⟨rfl, rfl⟩)
  exact ⟨c, hc, hlines, hlines.1 .cs4 .ignore rfl⟩

/-- `ce` stated active low takes the CS lines' polarity. -/
theorem mixed_line_lost :
    checkCsV2 mixedConfig = .ok () ∧
      ∃ c, csConfig mixedChip = some c ∧ mixedChip.line .cs1 = some .activeHigh ∧
        controlLineLogic .cs1 c = .activeLow ∧ ¬LinesKept mixedChip c := by
  refine ⟨by decide, .ceOe, rfl, rfl, rfl, fun hkept => ?_⟩
  exact absurd (hkept.1 .cs1 .activeHigh rfl) (by decide)

end OneRom.StatedLines
