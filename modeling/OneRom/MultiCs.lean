import OneRom.StatedLines

/-!
How the chips of a Multi set are told apart.

`derive_multi_cs_config` reads the per-chip select off one secondary, and sorts the other lines
of chip 0. `multi_agrees` compares it with what `check_cs_v2` established.
-/

namespace OneRom.MultiCs

open OneRom.ChipTypes OneRom.CsConfig OneRom.CsConfig.CsConfig OneRom.SlotLayout OneRom.CheckCs
open OneRom.StatedLines

/-- A control line of a chip, by its role there. -/
inductive ControlLineKind
  | ce | oe | cs1 | cs2 | cs3 | cs4
  deriving DecidableEq, Repr

def ControlLineKind.name : ControlLineKind → LineName
  | .ce => .ce
  | .oe => .oe
  | .cs1 => .cs1
  | .cs2 => .cs2
  | .cs3 => .cs3
  | .cs4 => .cs4

def nameToControlLineKind : LineName → Option ControlLineKind
  | .ce => some .ce
  | .oe => some .oe
  | .cs1 => some .cs1
  | .cs2 => some .cs2
  | .cs3 => some .cs3
  | .cs4 => some .cs4
  | _ => none

/-- Which line selects a chip of a Multi set, and what the others are to it. -/
structure MultiChipCsConfig where
  perChipSelect : ControlLineKind
  /-- Ignored on the secondaries and active on chip 0, so driven for every chip of the set. -/
  commonedLines : List ControlLineKind
  /-- Ignored on every chip. -/
  ignoredLines : List ControlLineKind
  deriving DecidableEq, Repr

/-- The control lines of a chip type, in its order. -/
def controlKinds (t : ChipType) : List ControlLineKind :=
  t.controlLines.filterMap fun l => nameToControlLineKind l.name

/-- The lines sorted so far. -/
structure Sorted where
  perChipSelect : Option ControlLineKind := none
  commonedLines : List ControlLineKind := []
  ignoredLines : List ControlLineKind := []

/-- A line that is active on the secondary is the per-chip select. Of the others, chip 0 says. -/
def sortLine (chip0 secondary : CsConfig) (s : Sorted) (kind : ControlLineKind) : Sorted :=
  if controlLineLogic kind.name secondary ≠ .ignore then { s with perChipSelect := some kind }
  else if controlLineLogic kind.name chip0 = .ignore then
    { s with ignoredLines := s.ignoredLines ++ [kind] }
  else { s with commonedLines := s.commonedLines ++ [kind] }

/-- `none` is the panic where no line is the per-chip select. -/
def deriveMultiCsConfig (chip0Type : ChipType) (chip0 secondary : CsConfig) :
    Option MultiChipCsConfig :=
  match controlKinds chip0Type with
  | [kind] => some ⟨kind, [], []⟩
  | kinds =>
    let s := kinds.foldl (sortLine chip0 secondary) {}
    s.perChipSelect.map fun select => ⟨select, s.commonedLines, s.ignoredLines⟩

/-! ### The sorted lines -/

section Sorting

variable {chip0 secondary : CsConfig} {select : ControlLineKind}

/-- The lines that are commoned, or ignored, where `select` is the per-chip select. -/
def others (chip0 : CsConfig) (select : ControlLineKind) (ignored : Bool)
    (kinds : List ControlLineKind) : List ControlLineKind :=
  kinds.filter fun kind =>
    kind ≠ select ∧ (decide (controlLineLogic kind.name chip0 = .ignore) = ignored)

/-- The secondary's one active line is `select`. -/
def SelectsOn (secondary : CsConfig) (select : ControlLineKind) (kinds : List ControlLineKind) :
    Prop :=
  ∀ kind ∈ kinds, controlLineLogic kind.name secondary ≠ .ignore ↔ kind = select

lemma sortLine_foldl {kinds : List ControlLineKind} (h : SelectsOn secondary select kinds)
    (s : Sorted) :
    kinds.foldl (sortLine chip0 secondary) s =
      { perChipSelect := if select ∈ kinds then some select else s.perChipSelect
        commonedLines := s.commonedLines ++ others chip0 select false kinds
        ignoredLines := s.ignoredLines ++ others chip0 select true kinds } := by
  induction kinds generalizing s with
  | nil => simp [others]
  | cons kind kinds ih =>
    rw [List.foldl_cons, ih fun k hk => h k (List.mem_cons_of_mem _ hk)]
    have hkind := h kind List.mem_cons_self
    by_cases heq : kind = select
    · subst heq
      simp [sortLine, hkind, others]
    · have hne : select ≠ kind := Ne.symm heq
      have hig : controlLineLogic kind.name secondary = .ignore := by
        by_contra hc
        exact heq (hkind.mp hc)
      by_cases h0 : controlLineLogic kind.name chip0 = .ignore
      · simp [sortLine, hig, h0, others, heq, hne]
      · simp [sortLine, hig, h0, others, heq, hne]

/-- Which secondary is read makes no difference: only its select does. -/
lemma derive_eq {t : ChipType} (h : SelectsOn secondary select (controlKinds t))
    (hmem : select ∈ controlKinds t) :
    deriveMultiCsConfig t chip0 secondary =
      some ⟨select, others chip0 select false (controlKinds t),
        others chip0 select true (controlKinds t)⟩ := by
  unfold deriveMultiCsConfig
  split
  · next kind hk =>
    rw [hk, List.mem_singleton] at hmem
    subst hmem
    simp [hk, others]
  · next hk =>
    dsimp only
    rw [sortLine_foldl h, if_pos hmem]
    simp

end Sorting

/-! ### The lines of a chip type -/

@[simp] lemma nameToControlLineKind_name (kind : ControlLineKind) :
    nameToControlLineKind kind.name = some kind := by
  cases kind <;> rfl

lemma name_injective : Function.Injective ControlLineKind.name := fun k k' h =>
  Option.some.inj (by rw [← nameToControlLineKind_name k, h, nameToControlLineKind_name])

lemma isControl_iff {name : LineName} :
    isControl name ↔ ∃ kind : ControlLineKind, kind.name = name := by
  constructor
  · intro h
    cases name with
    | ce => exact ⟨.ce, rfl⟩
    | oe => exact ⟨.oe, rfl⟩
    | cs1 => exact ⟨.cs1, rfl⟩
    | cs2 => exact ⟨.cs2, rfl⟩
    | cs3 => exact ⟨.cs3, rfl⟩
    | cs4 => exact ⟨.cs4, rfl⟩
    | busy | byte | write => cases h
  · rintro ⟨kind, rfl⟩
    cases kind <;> rfl

lemma name_of_kind {name : LineName} {kind : ControlLineKind}
    (h : nameToControlLineKind name = some kind) : kind.name = name := by
  cases name <;> cases h <;> rfl

lemma mem_controlKinds {t : ChipType} {kind : ControlLineKind} :
    kind ∈ controlKinds t ↔ kind.name ∈ controlNames t := by
  simp only [controlKinds, controlNames, List.mem_filterMap, List.mem_filter, List.mem_map]
  constructor
  · rintro ⟨l, hl, hk⟩
    exact ⟨⟨l, hl, (name_of_kind hk).symm⟩, isControl_iff.mpr ⟨kind, rfl⟩⟩
  · rintro ⟨⟨l, hl, hk⟩, -⟩
    exact ⟨l, hl, by rw [hk, nameToControlLineKind_name]⟩

lemma mem_controlNames {t : ChipType} {name : LineName} :
    name ∈ controlNames t ↔ isControl name ∧ (t.line name).isSome := by
  simp [controlNames, ChipType.line, List.find?_isSome, and_comm]

/-- A chip type with one of `ce` and `oe` has both. -/
lemma oe_of_ce (t : ChipType) : (t.line .ce).isSome = (t.line .oe).isSome := by
  cases t <;> decide

/-- A chip type declares both chip enable and CS lines. -/
def mixedControl (t : ChipType) : Bool := (t.line .ce).isSome && (t.line .cs1).isSome

variable {chip chip0 : ChipConfig} {c c0 : CsConfig}

/-! ### What the validator and the deriver read -/

/-- Ignored in the configuration is ignored in the `CsConfig`. -/
lemma controlLineLogic_ignore (hok : ChipOk chip) (h : csConfig chip = some c)
    {name : LineName} (hn : name ∈ controlNames chip.chipType)
    (hprec : name ∈ csNames → chip.ce = none ∧ chip.oe = none) :
    controlLineLogic name c = .ignore ↔ chip.lineLogic name = .ignore := by
  obtain ⟨hc, hl⟩ := mem_controlNames.mp hn
  rw [controlLineLogic_configured hok h hc hl hprec]
  unfold configured ChipConfig.lineLogic
  cases chip.line name with
  | some logic => rfl
  | none =>
    simp only [Option.getD_none, reduceCtorEq, iff_false]
    split <;> simp

/-- A chip without chip enable lines has none stated. -/
lemma ceOe_none (hok : ChipOk chip) (hce : (chip.chipType.line .ce).isSome = false) :
    chip.ce = none ∧ chip.oe = none := by
  have hoe : (chip.chipType.line .oe).isSome = false := oe_of_ce _ ▸ hce
  constructor
  · by_contra hs
    exact absurd (hok.ce (Option.isSome_iff_ne_none.mpr hs)) (by simp [ChipConfig.hasLine, hce])
  · by_contra hs
    exact absurd (hok.oe (Option.isSome_iff_ne_none.mpr hs)) (by simp [ChipConfig.hasLine, hoe])

/-- A chip with chip enable lines uses one of them. -/
lemma ceOe_active (hok : ChipOk chip) (hce : (chip.chipType.line .ce).isSome) :
    .ce ∈ activeLines chip ∨ .oe ∈ activeLines chip := by
  have hoe : (chip.chipType.line .oe).isSome := oe_of_ce _ ▸ hce
  have hmem : ∀ name, isControl name → (chip.chipType.line name).isSome →
      chip.lineLogic name ≠ .ignore → name ∈ activeLines chip := fun name hc hl hlogic =>
    List.mem_filter.mpr ⟨mem_controlNames.mpr ⟨hc, hl⟩, by simpa using hlogic⟩
  by_cases hi : chip.lineLogic .ce = .ignore
  · exact Or.inr (hmem .oe rfl hoe (hok.ceOe hce hoe hi))
  · exact Or.inl (hmem .ce rfl hce hi)

lemma line_of_mixed (hmixed : ¬mixedControl chip0.chipType) {name : LineName}
    (hn : name ∈ csNames) (hl : (chip0.chipType.line name).isSome) :
    (chip0.chipType.line .ce).isSome = false := by
  have hcs1 := cs1_of_csLine _ hn hl
  simpa [mixedControl, hcs1] using hmixed

/-- The secondary of a chip 0 with CS lines only has nothing that takes precedence over them. -/
lemma secondary_cs_only {select : LineName} (hok : ChipOk chip) (hsec : SecondaryOk chip0 chip select)
    (hmixed : ¬mixedControl chip0.chipType) {name : LineName} (hn : name ∈ csNames)
    (hl : (chip0.chipType.line name).isSome) : chip.ce = none ∧ chip.oe = none := by
  have h0 := line_of_mixed hmixed hn hl
  refine ceOe_none hok (Bool.eq_false_iff.mpr fun hce => ?_)
  -- An active chip enable line would be the select, which chip 0 has
  have hsel := (mem_controlNames.mp hsec.select_mem).2
  rcases ceOe_active hok hce with hact | hact
  · rw [hsec.active, List.mem_singleton] at hact
    rw [← hact, h0] at hsel
    cases hsel
  · rw [hsec.active, List.mem_singleton] at hact
    rw [← hact, ← oe_of_ce, h0] at hsel
    cases hsel

/-- The deriver finds the validator's select on a secondary. -/
lemma secondary_selectsOn {select : ControlLineKind} (hok : ChipOk chip)
    (hsec : SecondaryOk chip0 chip select.name) (hmixed : ¬mixedControl chip0.chipType)
    (h : csConfig chip = some c) : SelectsOn c select (controlKinds chip0.chipType) := by
  intro kind hk
  have hmem := mem_controlKinds.mp hk
  have hown := hsec.lines kind.name hmem
  rw [ne_eq, controlLineLogic_ignore hok h hown fun hn =>
    secondary_cs_only hok hsec hmixed hn (mem_controlNames.mp hmem).2]
  have hactive : chip.lineLogic kind.name ≠ .ignore ↔ kind.name ∈ activeLines chip := by
    simp [activeLines, hown]
  rw [← ne_eq, hactive, hsec.active, List.mem_singleton]
  exact name_injective.eq_iff

/-! ### Agreement -/

/-- The deriver serves the set the validator accepted: it takes the one line active on every
secondary for the per-chip select, has no other line of chip 0 active on a secondary, doesn't
have chip 0 ignore it, and makes the same of every secondary. -/
def Agrees (chip0 : ChipConfig) (secondaries : List ChipConfig) : Prop :=
  ∃ c0 derived, csConfig chip0 = some c0 ∧
    chip0.lineLogic derived.perChipSelect.name ≠ .ignore ∧
    controlLineLogic derived.perChipSelect.name c0 ≠ .ignore ∧
    ∀ chip ∈ secondaries, activeLines chip = [derived.perChipSelect.name] ∧
      ∃ c, csConfig chip = some c ∧ deriveMultiCsConfig chip0.chipType c0 c = some derived ∧
        ∀ kind ∈ controlKinds chip0.chipType, kind ≠ derived.perChipSelect →
          controlLineLogic kind.name c = .ignore

/-- What the deriver is given. -/
structure MultiOk (chip0 : ChipConfig) (secondaries : List ChipConfig) (select : LineName) :
    Prop where
  primary : ChipOk chip0
  secondaries : ∀ chip ∈ secondaries, ChipOk chip ∧ SecondaryOk chip0 chip select
  select : chip0.lineLogic select ≠ .ignore

lemma agrees_of_not_mixed {secondaries : List ChipConfig} {select : LineName}
    (h : MultiOk chip0 secondaries select) (hne : secondaries ≠ [])
    (hmixed : ¬mixedControl chip0.chipType) : Agrees chip0 secondaries := by
  obtain ⟨chip1, h1⟩ := List.exists_mem_of_ne_nil _ hne
  have hmem := (h.secondaries chip1 h1).2.select_mem
  obtain ⟨kind, rfl⟩ := isControl_iff.mp (mem_controlNames.mp hmem).1
  obtain ⟨c0, hc0⟩ := csConfig_of_chipOk h.primary
  have h0 : controlLineLogic kind.name c0 ≠ .ignore := by
    rw [ne_eq, controlLineLogic_ignore h.primary hc0 hmem fun hn =>
      ceOe_none h.primary (line_of_mixed hmixed hn (mem_controlNames.mp hmem).2)]
    exact h.select
  refine ⟨c0, ⟨kind, others c0 kind false (controlKinds chip0.chipType),
    others c0 kind true (controlKinds chip0.chipType)⟩, hc0, h.select, h0, fun chip hchip => ?_⟩
  obtain ⟨hok, hsec⟩ := h.secondaries chip hchip
  obtain ⟨c, hc⟩ := csConfig_of_chipOk hok
  have hsel := secondary_selectsOn hok hsec hmixed hc
  refine ⟨hsec.active, c, hc, derive_eq hsel (mem_controlKinds.mpr hmem), fun k hk hkne => ?_⟩
  by_contra hactive
  exact hkne ((hsel k hk).mp hactive)

lemma cs1Logic_newWithCeOe (ce oe : Option CsLogic) :
    (newWithCeOe ce oe).cs1Logic =
      some (if ce.getD .activeLow ≠ .ignore then ce.getD .activeLow else oe.getD .activeLow) := by
  unfold newWithCeOe
  dsimp only
  split_ifs with h1 h2 <;> simp_all [cs1Logic]

/-- A secondary that selects on a chip enable line has CS1 read as active too. -/
lemma cs1_active_of_mixed {select : LineName} (hok : ChipOk chip)
    (hactive : activeLines chip = [select]) (hce : (chip.chipType.line .ce).isSome)
    (h : csConfig chip = some c) : select ≠ .cs1 ∧ controlLineLogic .cs1 c ≠ .ignore := by
  have hoe : (chip.chipType.line .oe).isSome := oe_of_ce _ ▸ hce
  have hsel := hactive ▸ ceOe_active hok hce
  simp only [List.mem_singleton] at hsel
  refine ⟨fun heq => by simp [heq] at hsel, ?_⟩
  have hstated : chip.ce.isSome ∨ chip.oe.isSome := by
    by_contra hs
    simp only [not_or, Option.not_isSome_iff_eq_none] at hs
    have hmem : ∀ name, isControl name → (chip.chipType.line name).isSome →
        chip.line name = none → name = select := fun name hc hl hn => by
      have : name ∈ activeLines chip :=
        List.mem_filter.mpr ⟨mem_controlNames.mpr ⟨hc, hl⟩, by simp [ChipConfig.lineLogic, hn]⟩
      simpa [hactive] using this
    exact absurd ((hmem .ce rfl hce hs.1).trans (hmem .oe rfl hoe hs.2).symm) (by decide)
  rw [csConfig_ceOe hstated] at h
  obtain rfl := Option.some.inj h
  simp only [controlLineLogic, cs1Logic_newWithCeOe, Option.getD_some]
  split_ifs with hi
  · exact hi
  · exact hok.ceOe hce hoe (not_not.mp hi)

lemma not_agrees_of_mixed {secondaries : List ChipConfig} {select : LineName}
    (h : MultiOk chip0 secondaries select) (hne : secondaries ≠ [])
    (hmixed : mixedControl chip0.chipType) : ¬Agrees chip0 secondaries := by
  rintro ⟨c0, derived, -, -, -, hall⟩
  obtain ⟨chip1, h1⟩ := List.exists_mem_of_ne_nil _ hne
  obtain ⟨hok, hsec⟩ := h.secondaries chip1 h1
  obtain ⟨hactive, c, hc, -, hothers⟩ := hall chip1 h1
  obtain ⟨hce0, hcs0⟩ := Bool.and_eq_true_iff.mp hmixed
  have hce := (mem_controlNames.mp (hsec.lines .ce (mem_controlNames.mpr ⟨rfl, hce0⟩))).2
  obtain ⟨hsel, hcs1⟩ := cs1_active_of_mixed hok hactive hce hc
  refine hcs1 (hothers .cs1 (mem_controlKinds.mpr (mem_controlNames.mpr ⟨rfl, hcs0⟩)) ?_)
  rintro heq
  exact hsel (heq ▸ rfl)

lemma not_agrees_of_plugin {chip1 : ChipConfig} {chips : List ChipConfig}
    (hp : chip0.chipType.isPlugin) : ¬Agrees chip0 (chip1 :: chips) := by
  rintro ⟨c0, derived, -, -, -, hall⟩
  obtain ⟨-, c, -, hderive, -⟩ := hall chip1 List.mem_cons_self
  have hkinds : controlKinds chip0.chipType = [] := List.eq_nil_iff_forall_not_mem.mpr fun k hk => by
    have hl := (mem_controlNames.mp (mem_controlKinds.mp hk)).2
    rw [plugin_line hp] at hl
    cases hl
  rw [deriveMultiCsConfig, hkinds] at hderive
  cases hderive

def chip2732 : ChipConfig := { chipType := .chip2732 }

/-- The 2732 of a set, selected by `ce`. -/
def chip2732Ce : ChipConfig := { chipType := .chip2732, oe := some .ignore }

/-- Chips with CS lines beside their chip enable lines. -/
def mixedPrimary : ChipConfig :=
  { chipType := .chip23C1001, cs1 := some .activeLow, cs2 := some .activeLow }

/-- The secondary is selected by `ce`. -/
def mixedSecondary : ChipConfig :=
  { chipType := .chip23C1001, cs1 := some .ignore, cs2 := some .ignore, oe := some .ignore }

def multiConfig (chips : List ChipConfig) : Config := ⟨[⟨.multi, chips⟩]⟩

/-- **When the validator and the deriver agree**: on every accepted Multi set whose chip 0 doesn't
declare both chip enable and CS lines, and on no other. -/
theorem multi_agrees {config : Config} (h : checkCsV2 config = .ok ()) {set : ChipSetConfig}
    (hset : set ∈ config.chipSets) (hmulti : set.setType = .multi) {chip0 chip1 : ChipConfig}
    {chips : List ChipConfig} (hchips : set.chips = chip0 :: chip1 :: chips) :
    Agrees chip0 (chip1 :: chips) ↔
      ¬chip0.chipType.isPlugin ∧ ¬mixedControl chip0.chipType := by
  by_cases hp : chip0.chipType.isPlugin
  · exact iff_of_false (not_agrees_of_plugin hp) fun hn => hn.1 hp
  · have hok : SetOk set := (checkCsV2_ok h set hset).resolve_left fun hall =>
      hp (List.all_eq_true.mp hall chip0 (by rw [hchips]; exact List.mem_cons_self))
    obtain ⟨select, hsec, hselect⟩ := hok.multi chip0 chip1 chips hmulti hchips
    have hne : ∀ chip ∈ chip1 :: chips, ¬chip.chipType.isPlugin := fun chip hc hplug => by
      have hmem := (hsec chip hc).lines select (hsec chip hc).select_mem
      have hl := (mem_controlNames.mp hmem).2
      rw [plugin_line hplug] at hl
      cases hl
    have hm : MultiOk chip0 (chip1 :: chips) select :=
      ⟨hok.chips chip0 (by rw [hchips]; exact List.mem_cons_self) hp, fun chip hc =>
        ⟨hok.chips chip (by rw [hchips]; exact List.mem_cons_of_mem _ hc) (hne chip hc),
          hsec chip hc⟩, hselect⟩
    by_cases hmixed : mixedControl chip0.chipType
    · exact iff_of_false (not_agrees_of_mixed hm (by simp) hmixed) fun hn => hn.2 hmixed
    · exact iff_of_true (agrees_of_not_mixed hm (by simp) hmixed) ⟨hp, hmixed⟩

theorem multi_agrees_2732 : Agrees chip2732 [chip2732Ce, chip2732Ce] :=
  (multi_agrees (show checkCsV2 (multiConfig [chip2732, chip2732Ce, chip2732Ce]) = .ok () by decide)
    (List.mem_singleton_self _) rfl rfl).mpr (by decide)

/-- The validator finds a set of mixed chips to select on `ce`, and the deriver on `cs1`. -/
theorem mixed_disagrees :
    checkCsV2 (multiConfig [mixedPrimary, mixedSecondary]) = .ok () ∧
      activeLines mixedSecondary = [.ce] ∧
      (∃ c0 c, csConfig mixedPrimary = some c0 ∧ csConfig mixedSecondary = some c ∧
        deriveMultiCsConfig .chip23C1001 c0 c = some ⟨.cs1, [.cs2, .oe], []⟩) ∧
      ¬Agrees mixedPrimary [mixedSecondary] := by
  refine ⟨by decide, by decide, ⟨.chipSelect .activeLow (some .activeLow) none none,
    .ceOeExplicit .activeLow .ignore, rfl, rfl, by decide⟩, ?_⟩
  rintro ⟨c0, derived, hc0, -, -, hall⟩
  obtain ⟨hactive, c, hc, hderive, -⟩ := hall mixedSecondary (List.mem_singleton_self _)
  obtain rfl : CsConfig.chipSelect .activeLow (some .activeLow) none none = c0 :=
    Option.some.inj hc0
  obtain rfl : CsConfig.ceOeExplicit .activeLow .ignore = c := Option.some.inj hc
  obtain rfl : (⟨.cs1, [.cs2, .oe], []⟩ : MultiChipCsConfig) = derived :=
    Option.some.inj hderive
  cases hactive

end OneRom.MultiCs
