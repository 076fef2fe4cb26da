import OneRom.Checks
import OneRom.SlotLayout

/-!
The checks a configuration's control line settings pass.

`check_cs_v2` goes through the chip sets in order and stops at the first setting it refuses.
`checkCsV2_ok` says what holds of a configuration it accepts.
-/

namespace OneRom.CheckCs

open OneRom.Checks OneRom.ChipTypes OneRom.CsConfig OneRom.SlotLayout

/-- A chip, as the configuration states it. -/
structure ChipConfig extends Stated where
  chipType : ChipType
  /-- The user confirms that ignored lines are intended. -/
  allowCsIgnore : Bool := false
  deriving DecidableEq, Repr

structure ChipSetConfig where
  setType : ChipSetType
  chips : List ChipConfig
  deriving DecidableEq, Repr

structure Config where
  chipSets : List ChipSetConfig
  deriving DecidableEq, Repr

/-- Where a chip is: its set and its place there. -/
structure Place where
  setId : ℕ
  chipIdx : ℕ
  deriving DecidableEq, Repr

/-! ### Errors -/

inductive Error
  | noLine (line : LineName) (chip : ChipType) (place : Place)
  | ceOeIgnored (chip : ChipType) (place : Place)
  | lineUnused (line : LineName) (chip : ChipType) (place : Place)
  | halfSelectRequired (chip : ChipType) (place : Place)
  | lineRequired (line : LineName) (chip : ChipType) (place : Place)
  | lineFixed (line : LineName) (chip : ChipType) (place : Place)
  | ignoreNotAllowed (line : LineName) (chip : ChipType) (place : Place)
  | lineOrder (line : LineName) (active : String) (chip : ChipType) (place : Place)
  | activeLines (chip : ChipType) (place : Place) (active : List LineName)
  | selectMissing (chip : ChipType) (place : Place) (select : LineName) (chip0 : ChipType)
  | lineMissing (chip : ChipType) (place : Place) (missing : LineName) (chip0 : ChipType)
  | selectDiffers (chip : ChipType) (place : Place) (select first : LineName)
  | primaryIgnores (chip0 : ChipType) (setId : ℕ) (select : LineName)
  | inconsistentCsLogic (first other : CsLogic)
  deriving DecidableEq, Repr

def LineName.text : LineName → String
  | .busy => "busy"
  | .byte => "byte"
  | .ce => "ce"
  | .cs1 => "cs1"
  | .cs2 => "cs2"
  | .cs3 => "cs3"
  | .cs4 => "cs4"
  | .oe => "oe"
  | .write => "write"

def LineName.upper (line : LineName) : String := (LineName.text line).toUpper

def CsLogic.text : CsLogic → String
  | .activeLow => "active low"
  | .activeHigh => "active high"
  | .ignore => "ignore"

def Place.text (p : Place) : String := s!"(set {p.setId}, chip {p.chipIdx})"

/-- A list of names, in brackets and quoted. -/
def quoted (names : List LineName) : String :=
  "[" ++ ", ".intercalate (names.map fun n => "\"" ++ LineName.text n ++ "\"") ++ "]"

def Error.message : Error → String
  | .noLine line chip place =>
    LineName.text line ++ " specified for chip type " ++ chip.name ++ " which has no /" ++
      LineName.upper line ++ " line " ++ place.text
  | .ceOeIgnored chip place =>
    "Both CE and OE cannot be Ignore simultaneously for chip type " ++ chip.name ++ " " ++
      place.text
  | .lineUnused line chip place =>
    LineName.upper line ++ " specified for chip type " ++ chip.name ++
      " which does not use it " ++ place.text
  | .halfSelectRequired chip place =>
    "Chip type " ++ chip.name ++ " requires cs1 (the half-select) to be specified " ++ place.text
  | .lineRequired line chip place =>
    "Chip type " ++ chip.name ++ " requires configurable CS line " ++ LineName.text line ++
      " to be specified " ++ place.text
  | .lineFixed line chip place =>
    LineName.upper line ++ " polarity is fixed by chip type " ++ chip.name ++
      " and cannot be configured; only 'ignore' may be specified " ++ place.text
  | .ignoreNotAllowed line chip place =>
    LineName.upper line ++ " is set to Ignore for chip type " ++ chip.name ++ " " ++ place.text ++
      " but allow_cs_ignore is not set. Ignoring a control line can cause bus contention — set" ++
      " allow_cs_ignore: true to confirm this is intentional."
  | .lineOrder line active chip place =>
    LineName.upper line ++ " cannot be Ignore when " ++ active ++ " active for chip type " ++
      chip.name ++ " " ++ place.text ++ " unless allow_cs_ignore is set"
  | .activeLines chip place active =>
    let n := active.length
    "Multi set secondary chips must have exactly one active control line (the per-chip select)" ++
      " and ignore the rest. Chip " ++ chip.name ++ " " ++ place.text ++ s!" has {n} active" ++
      " lines: " ++ quoted active
  | .selectMissing chip place select chip0 =>
    "Multi set secondary chip " ++ chip.name ++ " " ++ place.text ++
      " selects on control line '" ++ LineName.text select ++ "', which the primary chip " ++
      chip0.name ++ " does not have"
  | .lineMissing chip place missing chip0 =>
    "Multi set secondary chip " ++ chip.name ++ " " ++ place.text ++ " lacks control line '" ++
      LineName.text missing ++ "', which the primary chip " ++ chip0.name ++
      " has; a secondary must have every control line of the primary"
  | .selectDiffers chip place select first =>
    "Multi set secondary chips must all use the same per-chip select line. Chip " ++ chip.name ++
      " " ++ place.text ++ " selects on '" ++ LineName.text select ++
      "', but an earlier secondary selects on '" ++ LineName.text first ++ "'"
  | .primaryIgnores chip0 setId select =>
    "Multi set primary chip " ++ chip0.name ++ s!" (set {setId}) must not ignore '" ++
      LineName.text select ++ "', the per-chip select line for this set"
  | .inconsistentCsLogic first other =>
    "The configured chip select logic is self-inconsistent:\n  The first is " ++
      CsLogic.text first ++ ", the other is " ++ CsLogic.text other

/-! ### A chip's lines -/

def ChipConfig.hasLine (chip : ChipConfig) (name : LineName) : Bool :=
  (chip.chipType.line name).isSome

/-- A line's setting, active low where it isn't stated. -/
def ChipConfig.lineLogic (chip : ChipConfig) (name : LineName) : CsLogic :=
  (chip.line name).getD .activeLow

def csNames : List LineName := [.cs1, .cs2, .cs3, .cs4]

/-- A CS line is stated exactly where its polarity is the user's to state. -/
def checkCsValue (chip : ChipConfig) (place : Place) (name : LineName) : Except Error Unit :=
  let t := chip.chipType
  let virtualCs1 := t.requiresHalfSelectCs1 ∧ name = .cs1
  match t.line name, chip.line name with
  | none, some _ => refuse (¬virtualCs1) (.lineUnused name t place)
  | none, none => refuse virtualCs1 (.halfSelectRequired t place)
  | some spec, none => refuse (spec.lineType = .configurable) (.lineRequired name t place)
  | some spec, some logic =>
    refuse (spec.lineType ≠ .configurable ∧ logic ≠ .ignore) (.lineFixed name t place)

/-- A line is ignored only on a secondary chip, where its type allows it or where the user
confirms it. -/
def checkIgnore (chip : ChipConfig) (place : Place) (secondary : Bool) (name : LineName)
    (logic : CsLogic) : Except Error Unit :=
  refuse (logic = .ignore ∧ ¬secondary ∧ ¬(chip.chipType.line name).any (·.allowIgnore) ∧
    ¬chip.allowCsIgnore) (.ignoreNotAllowed name chip.chipType place)

/-- CS lines are used from CS1 on. -/
def checkOrder (chip : ChipConfig) (place : Place) : Except Error Unit := do
  let active := fun name => (chip.line name).any (· ≠ .ignore)
  refuse (¬active .cs1 ∧ (active .cs2 ∨ active .cs3 ∨ active .cs4))
    (.lineOrder .cs1 "CS2, CS3 or CS4 are" chip.chipType place)
  refuse (¬active .cs2 ∧ (active .cs3 ∨ active .cs4))
    (.lineOrder .cs2 "CS3 or CS4 are" chip.chipType place)
  refuse (¬active .cs3 ∧ active .cs4) (.lineOrder .cs3 "CS4 is" chip.chipType place)

def checkChip (chip : ChipConfig) (place : Place) (secondary : Bool) : Except Error Unit := do
  let hasCe := chip.hasLine .ce
  let hasOe := chip.hasLine .oe
  refuse (chip.ce.isSome ∧ ¬hasCe) (.noLine .ce chip.chipType place)
  refuse (chip.oe.isSome ∧ ¬hasOe) (.noLine .oe chip.chipType place)
  refuse (hasCe ∧ hasOe ∧ chip.lineLogic .ce = .ignore ∧ chip.lineLogic .oe = .ignore)
    (.ceOeIgnored chip.chipType place)
  csNames.forM (checkCsValue chip place)
  csNames.forM fun name => (chip.line name).forM (checkIgnore chip place secondary name)
  only hasCe (checkIgnore chip place secondary .ce (chip.lineLogic .ce))
  only hasOe (checkIgnore chip place secondary .oe (chip.lineLogic .oe))
  only (¬hasCe ∧ ¬hasOe ∧ ¬secondary ∧ ¬chip.allowCsIgnore) (checkOrder chip place)

/-! ### A set's chips -/

/-- The lines that select a chip. -/
def isControl : LineName → Bool
  | .ce | .oe | .cs1 | .cs2 | .cs3 | .cs4 => true
  | _ => false

def controlNames (t : ChipType) : List LineName := (t.controlLines.map (·.name)).filter isControl

/-- The lines of a secondary that are not ignored. -/
def activeLines (chip : ChipConfig) : List LineName :=
  (controlNames chip.chipType).filter fun name => chip.lineLogic name ≠ .ignore

/-- A secondary of a Multi set has one active line, and it's the one earlier secondaries have. -/
def checkSecondary (chip0 chip : ChipConfig) (place : Place) (setSelect : Option LineName) :
    Except Error LineName := do
  let setLines := controlNames chip0.chipType
  let own := controlNames chip.chipType
  match activeLines chip with
  | [select] =>
    refuse (select ∉ setLines) (.selectMissing chip.chipType place select chip0.chipType)
    (setLines.find? (· ∉ own)).forM fun missing =>
      .error (.lineMissing chip.chipType place missing chip0.chipType)
    setSelect.forM fun first =>
      refuse (first ≠ select) (.selectDiffers chip.chipType place select first)
    return select
  | active => throw (.activeLines chip.chipType place active)

def checkSecondaries (chip0 : ChipConfig) (setId : ℕ) (setSelect : Option LineName) :
    ℕ → List ChipConfig → Except Error (Option LineName)
  | _, [] => .ok setSelect
  | idx, chip :: chips => do
    let select ← checkSecondary chip0 chip ⟨setId, idx⟩ setSelect
    checkSecondaries chip0 setId (some select) (idx + 1) chips

def checkMulti (setId : ℕ) : List ChipConfig → Except Error Unit
  | chip0 :: chip1 :: chips => do
    let setSelect ← checkSecondaries chip0 setId none 1 (chip1 :: chips)
    setSelect.forM fun select =>
      refuse (chip0.lineLogic select = .ignore) (.primaryIgnores chip0.chipType setId select)
  | _ => .ok ()

/-- The polarity of the primary select line. -/
def csPrimaryPolarity (chip : ChipConfig) : Option CsLogic :=
  if chip.hasLine .ce then
    if chip.lineLogic .ce ≠ .ignore then some (chip.lineLogic .ce) else some (chip.lineLogic .oe)
  else chip.cs1

/-- The chips of a Banked set share one select line, so that its polarity is the same for all. -/
def checkBanked : List ChipConfig → Except Error Unit
  | chip0 :: chips =>
    let primary := csPrimaryPolarity chip0
    chips.forM fun chip =>
      let polarity := csPrimaryPolarity chip
      refuse (polarity ≠ primary)
        (.inconsistentCsLogic (primary.getD .activeLow) (polarity.getD .activeLow))
  | [] => .ok ()

def checkSet (setId : ℕ) (set : ChipSetConfig) : Except Error Unit :=
  only (¬set.chips.all (·.chipType.isPlugin)) do
    set.chips.zipIdx.forM fun (chip, idx) =>
      only (¬chip.chipType.isPlugin)
        (checkChip chip ⟨setId, idx⟩ (set.setType = .multi ∧ 0 < idx))
    only (set.setType = .multi) (checkMulti setId set.chips)
    only (set.setType = .banked) (checkBanked set.chips)

def checkCsV2 (config : Config) : Except Error Unit :=
  config.chipSets.zipIdx.forM fun (set, setId) => checkSet setId set

/-! ### What an accepted configuration has -/

/-- A CS line is stated where its polarity is configured, and otherwise at most ignored. A line
the chip doesn't have is stated only where it is the half-select. -/
structure CsValueOk (chip : ChipConfig) (name : LineName) : Prop where
  absent : chip.chipType.line name = none →
    ((chip.line name).isSome ↔ chip.chipType.requiresHalfSelectCs1 ∧ name = .cs1)
  configurable : ∀ spec ∈ chip.chipType.line name, spec.lineType = .configurable →
    (chip.line name).isSome
  fixed : ∀ spec ∈ chip.chipType.line name, spec.lineType ≠ .configurable →
    ∀ logic ∈ chip.line name, logic = .ignore

lemma checkCsValue_ok {chip : ChipConfig} {place : Place} {name : LineName} :
    checkCsValue chip place name = .ok () ↔ CsValueOk chip name := by
  unfold checkCsValue
  cases hline : chip.chipType.line name with
  | none =>
    cases hstated : chip.line name with
    | none =>
      simp only [hline, refuse_eq_ok]
      exact ⟨fun h => ⟨by simp [hstated, h], by simp [hline], by simp [hline]⟩,
        fun h hv => by simpa [hstated] using (h.absent hline).mpr hv⟩
    | some logic =>
      simp only [hline, refuse_eq_ok, not_not]
      exact ⟨fun h => ⟨fun _ => iff_of_true (by simp [hstated]) h, by simp [hline], by simp [hline]⟩,
        fun h => (h.absent hline).mp (by simp [hstated])⟩
  | some spec =>
    cases hstated : chip.line name with
    | none =>
      simp only [hline, refuse_eq_ok]
      exact ⟨fun h => ⟨by simp [hline], by simp [hline, h], by simp [hstated]⟩,
        fun h hc => by simpa [hstated] using h.configurable spec hline hc⟩
    | some logic =>
      simp only [hline, refuse_eq_ok]
      exact ⟨fun h => ⟨by simp [hline], by simp [hstated], by simpa [hline, hstated] using h⟩,
        fun h hc => hc.2 (h.fixed spec hline hc.1 logic hstated)⟩

/-- What is established of the settings of a chip. -/
structure ChipOk (chip : ChipConfig) : Prop where
  ce : chip.ce.isSome → chip.hasLine .ce
  oe : chip.oe.isSome → chip.hasLine .oe
  ceOe : chip.hasLine .ce → chip.hasLine .oe → chip.lineLogic .ce = .ignore →
    chip.lineLogic .oe ≠ .ignore
  values : ∀ name ∈ csNames, CsValueOk chip name

lemma checkChip_ok {chip : ChipConfig} {place : Place} {secondary : Bool}
    (h : checkChip chip place secondary = .ok ()) : ChipOk chip := by
  simp only [checkChip, seq_eq_ok, refuse_eq_ok, forM_eq_ok, checkCsValue_ok] at h
  obtain ⟨hce, hoe, hceOe, hvalues, -⟩ := h
  refine ⟨fun hs => ?_, fun hs => ?_, fun hc ho hci hoi => hceOe ⟨hc, ho, hci, hoi⟩, hvalues⟩
  · by_contra hline
    exact hce ⟨hs, hline⟩
  · by_contra hline
    exact hoe ⟨hs, hline⟩

/-- A secondary of a Multi set selects on `select` alone, which the primary has, and has every
control line of the primary. -/
structure SecondaryOk (chip0 chip : ChipConfig) (select : LineName) : Prop where
  active : activeLines chip = [select]
  select_mem : select ∈ controlNames chip0.chipType
  lines : ∀ name ∈ controlNames chip0.chipType, name ∈ controlNames chip.chipType

lemma checkSecondary_ok {chip0 chip : ChipConfig} {place : Place} {setSelect : Option LineName}
    {select : LineName} (h : checkSecondary chip0 chip place setSelect = .ok select) :
    SecondaryOk chip0 chip select ∧ ∀ first ∈ setSelect, first = select := by
  unfold checkSecondary at h
  dsimp only at h
  split at h
  · next active hactive =>
    simp only [seq_eq_ok, refuse_eq_ok, option_forM_eq_ok, pure_eq_ok, not_not] at h
    obtain ⟨hmem, hlines, hfirst, rfl⟩ := h
    refine ⟨⟨hactive, hmem, fun name hn => ?_⟩, hfirst⟩
    by_contra hout
    obtain ⟨missing, hmissing⟩ := Option.isSome_iff_exists.mp
      (List.find?_isSome (p := fun n => n ∉ controlNames chip.chipType) |>.mpr
        ⟨name, hn, decide_eq_true hout⟩)
    exact nomatch hlines missing hmissing
  · cases h

lemma checkSecondaries_ok {chip0 : ChipConfig} {setId idx : ℕ} {setSelect r : Option LineName}
    {chips : List ChipConfig} (h : checkSecondaries chip0 setId setSelect idx chips = .ok r) :
    (∀ first ∈ setSelect, r = some first) ∧
      ∀ chip ∈ chips, ∃ select, r = some select ∧ SecondaryOk chip0 chip select := by
  induction chips generalizing idx setSelect with
  | nil =>
    cases h
    exact ⟨fun _ hf => hf, fun _ hc => nomatch hc⟩
  | cons chip chips ih =>
    obtain ⟨select, hchip, hrest⟩ := bind_eq_ok.mp h
    obtain ⟨hok, hfirst⟩ := checkSecondary_ok hchip
    obtain ⟨hr, hchips⟩ := ih hrest
    have hr := hr select rfl
    refine ⟨fun first hf => hfirst first hf ▸ hr, fun c hc => ?_⟩
    rcases List.mem_cons.mp hc with rfl | hc
    · exact ⟨select, hr, hok⟩
    · exact hchips c hc

/-- What is established of the chips of a set whose chips aren't all plugins. -/
structure SetOk (set : ChipSetConfig) : Prop where
  chips : ∀ chip ∈ set.chips, ¬chip.chipType.isPlugin → ChipOk chip
  multi : ∀ chip0 chip1 chips, set.setType = .multi → set.chips = chip0 :: chip1 :: chips →
    ∃ select, (∀ chip ∈ chip1 :: chips, SecondaryOk chip0 chip select) ∧
      chip0.lineLogic select ≠ .ignore
  banked : ∀ chip0 chips, set.setType = .banked → set.chips = chip0 :: chips →
    ∀ chip ∈ chips, csPrimaryPolarity chip = csPrimaryPolarity chip0

lemma checkSet_ok {set : ChipSetConfig} {setId : ℕ} (h : checkSet setId set = .ok ())
    (hplugin : ¬set.chips.all (·.chipType.isPlugin)) : SetOk set := by
  simp only [checkSet, only_eq_ok, seq_eq_ok, forM_eq_ok] at h
  obtain ⟨hchips, hmulti, hbanked⟩ := h hplugin
  refine ⟨fun chip hc hp => ?_, fun chip0 chip1 chips hset hcs => ?_, fun chip0 chips hset hcs => ?_⟩
  · obtain ⟨i, hi, rfl⟩ := List.getElem_of_mem hc
    exact checkChip_ok (hchips (set.chips[i], i)
      (List.mem_zipIdx_iff_getElem?.mpr (List.getElem?_eq_getElem hi)) hp)
  · have hm := hmulti hset
    rw [hcs] at hm
    obtain ⟨r, hsec, hselect⟩ := bind_eq_ok.mp hm
    obtain ⟨-, hok⟩ := checkSecondaries_ok hsec
    obtain ⟨select, rfl, -⟩ := hok chip1 (by simp)
    refine ⟨select, fun chip hc => ?_, ?_⟩
    · obtain ⟨select', heq, hchip⟩ := hok chip hc
      cases heq
      exact hchip
    · exact refuse_eq_ok.mp (option_forM_eq_ok.mp hselect select rfl)
  · have hb := hbanked hset
    rw [hcs] at hb
    exact fun chip hc => not_not.mp (refuse_eq_ok.mp (forM_eq_ok.mp hb chip hc))

/-- **What is accepted**: each set of an accepted configuration has its settings established,
or is a set of plugins. -/
theorem checkCsV2_ok {config : Config} (h : checkCsV2 config = .ok ()) :
    ∀ set ∈ config.chipSets, set.chips.all (·.chipType.isPlugin) ∨ SetOk set := by
  intro set hset
  obtain ⟨i, hi, rfl⟩ := List.getElem_of_mem hset
  by_cases hplugin : config.chipSets[i].chips.all (·.chipType.isPlugin)
  · exact Or.inl hplugin
  · exact Or.inr (checkSet_ok (forM_eq_ok.mp h (config.chipSets[i], i)
      (List.mem_zipIdx_iff_getElem?.mpr (List.getElem?_eq_getElem hi))) hplugin)

end OneRom.CheckCs
