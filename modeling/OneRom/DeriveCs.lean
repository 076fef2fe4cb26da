import OneRom.DeriveAddr

/-!
The CS and data layout of a slot.

`derive_cs_data_layout` goes through the bonds of the data and select lines for a run of data GPIOs
and a run of select GPIOs, with at most one gap, that one PIO reaches. `deriveCsDataLayout_ok` says
what it finds.
-/

namespace OneRom.DeriveCs

open OneRom.Bonds OneRom.Checks OneRom.Hw OneRom.ChipTypes OneRom.CsConfig OneRom.SlotLayout
open OneRom.MultiCs OneRom.Layout

/-! ### Lines -/

/-- The role of a control line that selects. -/
def controlLineKindToSelectRole : ControlLineKind → SelectRole
  | .ce => .ce
  | .oe => .oe
  | .cs1 => .cs1
  | .cs2 => .cs2
  | .cs3 => .cs3
  | .cs4 => .cs4

/-- The roles and pins of the control lines that aren't ignored. -/
def selectPhysPins (board : Board) (chipType : ChipType) (csConfig : CsConfig) :
    Except LayoutError (List (SelectRole × ℕ)) :=
  let pins := chipType.controlLines.filterMap fun line => do
    let kind ← nameToControlLineKind line.name
    if controlLineLogic line.name csConfig = .ignore then none
    else some (controlLineKindToSelectRole kind, line.pin)
  if pins = [] then .error (.noSelectLine board chipType) else .ok pins

/-- The GPIOs of a pin of the first chip. Data and select lines can't be fly-leaded. -/
def gpiosForPin (ctx : SlotContext) (physPin : ℕ) : Except LayoutError (List ℕ) :=
  match ctx.socketPin physPin with
  | none => .error (.unmappedPin ctx.board ctx.chip0 physPin)
  | some socketPin =>
    let gpios := ctx.board.gpiosForSocketPin socketPin
    if gpios = [] then .error (.unmappedPin ctx.board ctx.chip0 physPin) else .ok gpios

/-- The GPIOs of a control line of the first chip. -/
def gpiosForLine (ctx : SlotContext) (kind : ControlLineKind) : Except LayoutError (List ℕ) :=
  match ctx.chip0.line kind.name with
  | none => .error (.noSelectLine ctx.board ctx.chip0)
  | some line => gpiosForPin ctx line.pin

/-- The GPIOs of an X pin. -/
def gpiosForX (ctx : SlotContext) (n : ℕ) : Except LayoutError (List ℕ) :=
  let x := ctx.board.gpiosForXPin n
  if x = [] then .error (.missingXPin ctx.board n) else .ok x

/-- A line and the GPIOs it can be at. -/
structure Candidate where
  role : SelectRole
  gpios : List ℕ

/-- The lines of a slot that aren't data or address lines. -/
structure SelectCandidates where
  select : List Candidate
  /-- The lines the chips of a Multi set share, which are in the span of the select lines. -/
  commoned : List Candidate
  /-- The GPIOs of the lines that every chip of a Multi set ignores. -/
  ignored : List ℕ

/-- The select lines of a set whose chips share them. -/
def singleCandidates (ctx : SlotContext) : Except LayoutError SelectCandidates := do
  let pins ← selectPhysPins ctx.board ctx.chip0 ctx.csConfig
  let gpios ← pins.mapM fun (_, pin) => gpiosForPin ctx pin
  return ⟨List.zipWith (fun (role, _) gpios => ⟨role, gpios⟩) pins gpios, [], []⟩

/-- A line of a Multi set. -/
def multiLine (ctx : SlotContext) (kind : ControlLineKind) : Except LayoutError Candidate := do
  let gpios ← gpiosForLine ctx kind
  return ⟨controlLineKindToSelectRole kind, gpios⟩

/-- The select of a Multi set's chip `n`, where it has that chip. -/
def multiX (ctx : SlotContext) (role : SelectRole) (n : ℕ) : Except LayoutError (List Candidate) :=
  if n < ctx.chipTypes.length then (fun gpios => [⟨role, gpios⟩]) <$> gpiosForX ctx n else .ok []

def multiCandidates (ctx : SlotContext) (mcc : MultiChipCsConfig) :
    Except LayoutError SelectCandidates := do
  let select ← multiLine ctx mcc.perChipSelect
  let commoned ← mcc.commonedLines.mapM (multiLine ctx)
  let ignored ← mcc.ignoredLines.mapM (gpiosForLine ctx)
  let x1 ← multiX ctx .x1 1
  let x2 ← multiX ctx .x2 2
  return ⟨select :: x1 ++ x2, commoned, ignored.flatten⟩

def selectCandidates (ctx : SlotContext) : Except LayoutError SelectCandidates :=
  match ctx.setType, ctx.multiCsConfig with
  | .multi, none => .error .panic
  | .multi, some mcc => multiCandidates ctx mcc
  | _, _ => singleCandidates ctx

/-! ### Combinations of bonds -/

/-- How simple an algorithm is that finds the chip selected. -/
def csAlgPreference (csIgnoreIndex : Option ℕ) (algCs2 : Option AlgCs2Config) : ℕ :=
  if algCs2.isSome then 2 else if csIgnoreIndex.isSome then 1 else 0

/-- What becomes of a combination of bonds. -/
inductive Combo
  | skipped
  /-- The select GPIOs, which have more gaps than they may have. -/
  | nonContiguous (select : List ℕ)
  | found (layout : CsDataLayout) (score : ℕ × ℕ)

def Combo.layout? : Combo → Option (CsDataLayout × (ℕ × ℕ))
  | .found layout score => some (layout, score)
  | _ => none

/-- The gap of a span of select GPIOs, where there is one and it may be there. `none` is a span
that isn't served. -/
def csGap (setType : ChipSetType) (select : List ℕ) (selMin selMax : ℕ) : Option (Option ℕ) :=
  let span := selMax - selMin + 1
  if span = select.dedup.length then some none
  else if span = select.dedup.length + 1 ∧ setType ≠ .multi then
    some ((List.range' selMin span).findIdx? (· ∉ select))
  else none

/-- The parameters of address lines that deselect, from the PIO's base. The pattern is a `u8`, in
which a shift by eight or more wraps. -/
def qualifierConfig (gpioBase qMin qMax : ℕ) (qual : List ℕ) : AlgCs2Config where
  baseQualifierPin := qMin - gpioBase
  numQualifierPins := qMax - qMin + 1
  qualifierInactivePattern := qual.foldl (fun acc g => acc ||| 1 <<< ((g - qMin) % 8)) 0

def pairLines (candidates : List Candidate) (gpios : List ℕ) : List SelectLine :=
  List.zipWith (fun c gpio => ⟨c.role, gpio⟩) candidates gpios

/-- The top address lines select a half. -/
def halfSelects (excess : List ℕ) : List SelectLine := excess.map (⟨.halfSelect, ·⟩)

/-- The layout of a combination of bonds, from the GPIOs it chooses. -/
def csCombo (ctx : SlotContext) (lines : SelectCandidates) (excess : List ℕ)
    (qual : Option (List ℕ)) (data select commoned : List ℕ) : Combo :=
  let selectGpios := select ++ excess ++ commoned
  match extent data, extent selectGpios with
  | some (dataMin, dataMax), some (selMin, selMax) =>
    if dataMax - dataMin + 1 ≠ data.dedup.length then .skipped
    else
      match csGap ctx.setType selectGpios selMin selMax with
      | none => .nonContiguous selectGpios
      | some csIgnoreIndex =>
        let q := qual.bind extent
        let allMin := (q.toList.map (·.1)).foldl min (min dataMin selMin)
        let allMax := (q.toList.map (·.2)).foldl max (max dataMax selMax)
        let gpioBase := if allMin < 16 then 0 else 16
        if fitsPioWindow gpioBase (allMax - gpioBase + 1) = false then .skipped
        else
          let algCs2 := q.map fun (qMin, qMax) => qualifierConfig gpioBase qMin qMax (qual.getD [])
          .found
            { gpioBase := gpioBase
              baseDataPin := dataMin - gpioBase
              numDataPins := ctx.chip0.dataPins.length
              dataPinGpios := data
              baseCsPin := selMin - gpioBase
              numCsPins := selMax - selMin + 1
              csIgnoreIndex := csIgnoreIndex
              selectLines := pairLines lines.select select ++ halfSelects excess
              commonedLines := pairLines lines.commoned commoned
              algCs2 := algCs2 }
            (csAlgPreference csIgnoreIndex algCs2, allMax - allMin + 1)
  | _, _ => .skipped

/-- The lower of two scores: the algorithm's, and then the spread. -/
def lower (a b : ℕ × ℕ) : Bool := a.1 < b.1 || a.1 == b.1 && a.2 < b.2

/-! ### The layout -/

/-- The GPIOs of the address lines that, all high, deselect the chip. -/
def qualGpios (chipType : ChipType) (layout : AddrLayout) : Except LayoutError (Option (List ℕ)) :=
  match chipType.deselectWhenAddressAllHigh with
  | none => .ok none
  | some indices =>
    match indices.mapM fun i => layout.addrPinGpios[i]? with
    | some gpios => .ok (some gpios)
    | none => .error .panic

/-- An ignored line's GPIO in a gap of the select lines. -/
def interiorIgnored (ignored select : List ℕ) : Option ℕ := do
  let (selMin, selMax) ← extent select
  (List.range' selMin (selMax - selMin + 1)).find? fun g => g ∉ select ∧ g ∈ ignored

/-- Why no combination of bonds is served. -/
def noLayout (ctx : SlotContext) (ignored : List ℕ) (combos : List Combo) : LayoutError :=
  let gaps := combos.filterMap fun
    | .nonContiguous select => some select
    | _ => none
  match gaps.findSome? (interiorIgnored ignored), gaps.getLast? with
  | some gpio, _ => .interiorIgnoredLine ctx.board ctx.chip0 gpio
  | none, some gpios =>
    .nonContiguousSelect ctx.board ctx.chip0 (gpios.dedup.insertionSort (· ≤ ·))
  | none, none => .noValidLayout ctx.board

/-- The GPIOs a combination chooses, split into those of the data, the select and the commoned
lines. -/
def comboOf (ctx : SlotContext) (lines : SelectCandidates) (excess : List ℕ)
    (qual : Option (List ℕ)) (data : List (List ℕ)) (combo : ℕ) : Combo :=
  let resolved := resolve (data ++ lines.select.map (·.gpios) ++ lines.commoned.map (·.gpios)) combo
  let rest := resolved.drop data.length
  csCombo ctx lines excess qual (resolved.take data.length) (rest.take lines.select.length)
    (rest.drop lines.select.length)

def deriveCsDataLayout (ctx : SlotContext) (layout : AddrLayout) :
    Except LayoutError CsDataLayout := do
  let excess := layout.excessAddrPinGpios
  refuse (excess ≠ [] ∧ (ctx.csConfig.cs1Logic = none ∨ ctx.csConfig.cs1Logic = some .ignore))
    (.romTooLargeNoCsConfig ctx.board ctx.chip0)
  let qual ← qualGpios ctx.chip0 layout
  let data ← ctx.chip0.dataPins.mapM (gpiosForPin ctx)
  let lines ← selectCandidates ctx
  let combos :=
    numCombos (data ++ lines.select.map (·.gpios) ++ lines.commoned.map (·.gpios))
  let combo := comboOf ctx lines excess qual data
  match search lower combos fun c => (combo c).layout? with
  | some found => .ok found
  | none => .error (noLayout ctx lines.ignored ((List.range combos).map combo))

/-! ### What it finds -/

section Gap

variable {setType : ChipSetType} {select : List ℕ} {lo hi : ℕ} {gap : Option ℕ}

/-- A span's GPIOs are select GPIOs, apart from its gap. -/
lemma csGap_mem (hextent : extent select = some (lo, hi))
    (h : csGap setType select lo hi = some gap) {i : ℕ} (hi' : i < hi - lo + 1) :
    lo + i ∈ select ↔ gap ≠ some i := by
  have hcard := card_missing hextent
  have hmissing : ∀ {j : ℕ}, j < hi - lo + 1 → lo + j ∉ select →
      lo + j ∈ Finset.Icc lo hi \ select.toFinset := fun {j} hj hout => by
    obtain ⟨-, hmem, hb⟩ := extent_bounds hextent
    have hle := (hb hi hmem).1
    rw [Finset.mem_sdiff, Finset.mem_Icc, List.mem_toFinset]
    exact ⟨⟨by omega, by omega⟩, hout⟩
  unfold csGap at h
  dsimp only at h
  split_ifs at h with hfull hgap
  · cases h
    -- no GPIO of the span is missing
    have hnone : Finset.Icc lo hi \ select.toFinset = ∅ := Finset.card_eq_zero.mp (by omega)
    refine ⟨fun _ => by simp, fun _ => ?_⟩
    by_contra hout
    exact absurd (hnone ▸ hmissing hi' hout) (Finset.notMem_empty _)
  · cases h
    -- one GPIO of the span is missing
    have hone := Finset.card_le_one.mp (show (Finset.Icc lo hi \ select.toFinset).card ≤ 1 by omega)
    constructor
    · intro hmem hfound
      obtain ⟨hlt, hout, -⟩ := List.findIdx?_eq_some_iff_getElem.mp hfound
      rw [List.getElem_range', one_mul] at hout
      simp [hmem] at hout
    · intro hne
      by_contra hout
      cases hfound : (List.range' lo (hi - lo + 1)).findIdx? (· ∉ select) with
      | none =>
        have hall := List.findIdx?_eq_none_iff.mp hfound (lo + i)
          (List.mem_range'_1.mpr ⟨by omega, by omega⟩)
        simp [hout] at hall
      | some j =>
        obtain ⟨hlt, hj, -⟩ := List.findIdx?_eq_some_iff_getElem.mp hfound
        rw [List.length_range'] at hlt
        rw [List.getElem_range', one_mul] at hj
        have heq := hone _ (hmissing hi' hout) _ (hmissing hlt (by simpa using hj))
        exact hne (by rw [hfound, show j = i by omega])

lemma csGap_lt (h : csGap setType select lo hi = some gap) {i : ℕ} (hgap : gap = some i) :
    i < hi - lo + 1 ∧ setType ≠ .multi := by
  subst hgap
  unfold csGap at h
  dsimp only at h
  split_ifs at h with hfull hone
  · cases h
  · rw [Option.some.injEq] at h
    obtain ⟨hlt, -⟩ := List.findIdx?_eq_some_iff_getElem.mp h
    rw [List.length_range'] at hlt
    exact ⟨hlt, hone.2⟩

end Gap

variable {ctx : SlotContext} {addr : AddrLayout} {layout : CsDataLayout}

/-- A GPIO of a line, in its role. -/
def LineAt (c : Candidate) (line : SelectLine) : Prop := line.role = c.role ∧ line.gpio ∈ c.gpios

/-- A GPIO that a pin of the first chip is bonded to. -/
def BondedTo (ctx : SlotContext) (pin g : ℕ) : Prop :=
  ∃ n, ctx.socketPin pin = some n ∧ g ∈ ctx.board.gpiosForSocketPin n

/-- The GPIOs of a layout are those of its lines. One PIO reaches them all, the data GPIOs are a
run, and the select GPIOs fill their span but for its gap. -/
structure CsOk (ctx : SlotContext) (addr : AddrLayout) (layout : CsDataLayout) : Prop where
  base : layout.gpioBase = 0 ∨ layout.gpioBase = 16
  data : List.Forall₂ (BondedTo ctx) ctx.chip0.dataPins layout.dataPinGpios
  dataRun : layout.dataPinGpios.Perm
    (List.range' (layout.gpioBase + layout.baseDataPin) layout.numDataPins)
  dataWithin : layout.baseDataPin + layout.numDataPins ≤ 32
  lines : ∃ lines, selectCandidates ctx = .ok lines ∧
    List.Forall₂ LineAt lines.commoned layout.commonedLines ∧
    ∃ select, List.Forall₂ LineAt lines.select select ∧
      layout.selectLines = select ++ halfSelects addr.excessAddrPinGpios
  csWithin : layout.baseCsPin + layout.numCsPins ≤ 32
  span : ∀ i < layout.numCsPins, layout.csIgnoreIndex ≠ some i ↔
    ∃ line ∈ layout.selectLines ++ layout.commonedLines,
      line.gpio = layout.gpioBase + layout.baseCsPin + i
  spanned : ∀ line ∈ layout.selectLines ++ layout.commonedLines,
    ∃ i < layout.numCsPins, line.gpio = layout.gpioBase + layout.baseCsPin + i
  gap : ∀ i, layout.csIgnoreIndex = some i → i < layout.numCsPins ∧ ctx.setType ≠ .multi
  qualifiers : ∀ cs2, layout.algCs2 = some cs2 → cs2.baseQualifierPin + cs2.numQualifierPins ≤ 32

lemma dataPins_nodup (t : ChipType) : t.dataPins.Nodup := by
  cases t <;> decide

/-- The lines of a slot, with GPIOs in step. -/
lemma pairLines_at {candidates : List Candidate} {gpios : List ℕ}
    (h : List.Forall₂ (fun opts g => g ∈ opts) (candidates.map (·.gpios)) gpios) :
    List.Forall₂ LineAt candidates (pairLines candidates gpios) ∧
      (pairLines candidates gpios).map (·.gpio) = gpios := by
  induction candidates generalizing gpios with
  | nil =>
    cases h
    exact ⟨.nil, rfl⟩
  | cons c candidates ih =>
    cases h with
    | cons hg hrest =>
      obtain ⟨hat, heq⟩ := ih hrest
      exact ⟨.cons ⟨rfl, hg⟩ hat, by rw [pairLines, List.zipWith_cons_cons, List.map_cons,
        ← pairLines, heq]⟩

lemma foldl_min_le (l : List ℕ) (a : ℕ) : l.foldl min a ≤ a ∧ ∀ b ∈ l, l.foldl min a ≤ b := by
  induction l generalizing a with
  | nil => simp
  | cons c l ih =>
    obtain ⟨ha, hl⟩ := ih (min a c)
    rw [List.foldl_cons]
    refine ⟨ha.trans (Nat.min_le_left a c), List.forall_mem_cons.mpr ⟨?_, hl⟩⟩
    exact ha.trans (Nat.min_le_right a c)

lemma le_foldl_max (l : List ℕ) (a : ℕ) : a ≤ l.foldl max a ∧ ∀ b ∈ l, b ≤ l.foldl max a := by
  induction l generalizing a with
  | nil => simp
  | cons c l ih =>
    obtain ⟨ha, hl⟩ := ih (max a c)
    rw [List.foldl_cons]
    refine ⟨(Nat.le_max_left a c).trans ha, List.forall_mem_cons.mpr ⟨?_, hl⟩⟩
    exact (Nat.le_max_right a c).trans ha

lemma gpiosForPin_ok {pin : ℕ} {opts : List ℕ} (h : gpiosForPin ctx pin = .ok opts) :
    opts ≠ [] ∧ ∀ g ∈ opts, BondedTo ctx pin g := by
  unfold gpiosForPin at h
  cases hpin : ctx.socketPin pin with
  | none => rw [hpin] at h; cases h
  | some n =>
    simp only [hpin] at h
    split_ifs at h with hne
    cases h
    exact ⟨hne, fun g hg => ⟨n, hpin, hg⟩⟩

/-- A GPIO is of one pin of the first chip. -/
lemma bondedTo_inj {pin pin' g : ℕ} (h : BondedTo ctx pin g) (h' : BondedTo ctx pin' g) :
    pin = pin' := by
  obtain ⟨n, hn, hg⟩ := h
  obtain ⟨n', hn', hg'⟩ := h'
  have heq : Pin.socket n = Pin.socket n' :=
    Board.pin_eq (show g ∈ ctx.board.gpios (.socket n) from hg) hg'
  cases heq
  exact ctx.socketPin_inj hn hn'

lemma csCombo_ok {lines : SelectCandidates} {data select commoned : List ℕ}
    {qual : Option (List ℕ)} {score : ℕ × ℕ}
    (hdata : List.Forall₂ (BondedTo ctx) ctx.chip0.dataPins data)
    (hlines : selectCandidates ctx = .ok lines)
    (hselect : List.Forall₂ (fun opts g => g ∈ opts) (lines.select.map (·.gpios)) select)
    (hcommoned : List.Forall₂ (fun opts g => g ∈ opts) (lines.commoned.map (·.gpios)) commoned)
    (h : csCombo ctx lines addr.excessAddrPinGpios qual data select commoned =
      .found layout score) : CsOk ctx addr layout := by
  unfold csCombo at h
  dsimp only at h
  split at h
  swap
  · cases h
  next dataMin dataMax selMin selMax hdataExtent hselExtent =>
  split at h
  · cases h
  next hrun =>
  rw [not_not] at hrun
  split at h
  · cases h
  next gap hgap =>
  obtain ⟨hd1, hd2, hd⟩ := extent_bounds hdataExtent
  obtain ⟨hs1, hs2, hs⟩ := extent_bounds hselExtent
  obtain ⟨hminLe, hminAll⟩ :=
    foldl_min_le ((qual.bind extent).toList.map (·.1)) (min dataMin selMin)
  obtain ⟨hmaxLe, hmaxAll⟩ :=
    le_foldl_max ((qual.bind extent).toList.map (·.2)) (max dataMax selMax)
  set lo := ((qual.bind extent).toList.map (·.1)).foldl min (min dataMin selMin)
  set hi := ((qual.bind extent).toList.map (·.2)).foldl max (max dataMax selMax)
  set base := if lo < 16 then 0 else 16 with hbase
  split_ifs at h with hfits
  rw [Bool.not_eq_false] at hfits
  have hbases : base = 0 ∨ base = 16 := by
    rw [hbase]
    split_ifs <;> simp
  have hlo : base ≤ lo := by
    rw [hbase]
    split_ifs <;> omega
  have hhi : hi < base + 32 := by
    simp only [fitsPioWindow, List.any_cons, List.any_nil, Bool.or_false, Bool.or_eq_true,
      Bool.and_eq_true, decide_eq_true_eq] at hfits
    omega
  have hnodup : data.Nodup := nodup_of_forall₂ hdata (dataPins_nodup _) fun _ _ _ => bondedTo_inj
  have hlen := hdata.length_eq
  obtain ⟨hat, hgpios⟩ := pairLines_at hselect
  obtain ⟨hatCommoned, hgpiosCommoned⟩ := pairLines_at hcommoned
  have hmem : ∀ g, (∃ line ∈ (pairLines lines.select select ++
      halfSelects addr.excessAddrPinGpios) ++ pairLines lines.commoned commoned,
        line.gpio = g) ↔ g ∈ select ++ addr.excessAddrPinGpios ++ commoned := fun g => by
    have hhalf : (halfSelects addr.excessAddrPinGpios).map (·.gpio) = addr.excessAddrPinGpios := by
      simp [halfSelects, Function.comp_def]
    rw [← List.mem_map (f := SelectLine.gpio), List.map_append, List.map_append, hgpios,
      hgpiosCommoned, hhalf]
  have hsel := hs selMax hs2
  cases h
  refine ⟨hbases, hdata, ?_, ?_, ⟨lines, hlines, hatCommoned, _, hat, rfl⟩, ?_, ?_, ?_, ?_, ?_⟩
  · have hperm := perm_range'_of_extent hdataExtent hnodup (by rw [hrun, hnodup.dedup])
    dsimp only
    rwa [show base + (dataMin - base) = dataMin by omega, hlen]
  · rw [hnodup.dedup, ← hlen] at hrun
    have hmax := hd dataMax hd2
    dsimp only
    omega
  · dsimp only
    omega
  · intro i hi
    dsimp only at hi ⊢
    rw [hmem, show base + (selMin - base) + i = selMin + i by omega]
    exact (csGap_mem hselExtent hgap hi).symm
  · intro line hline
    have hg := hs line.gpio ((hmem _).mp ⟨line, hline, rfl⟩)
    dsimp only
    exact ⟨line.gpio - selMin, by omega, by omega⟩
  · intro i hi
    exact csGap_lt hgap hi
  · intro cs2 hcs2
    obtain ⟨⟨qMin, qMax⟩, hq, rfl⟩ := Option.map_eq_some_iff.mp hcs2
    have h1 := hminAll qMin (by simp [hq])
    have h2 := hmaxAll qMax (by simp [hq])
    obtain ⟨l, -, hq'⟩ := Option.bind_eq_some_iff.mp hq
    obtain ⟨-, hm, hb⟩ := extent_bounds hq'
    have h3 := hb qMax hm
    dsimp only [qualifierConfig]
    omega

/-- The GPIOs of the lines of a slot. -/
lemma mapM_gpiosForPin {pins : List ℕ} {data : List (List ℕ)}
    (h : pins.mapM (gpiosForPin ctx) = .ok data) :
    List.Forall₂ (fun pin opts => opts ≠ [] ∧ ∀ g ∈ opts, BondedTo ctx pin g) pins data :=
  (mapM_eq_ok h).imp fun _ _ => gpiosForPin_ok

lemma gpiosForLine_ok {kind : ControlLineKind} {opts : List ℕ}
    (h : gpiosForLine ctx kind = .ok opts) :
    ∃ line, ctx.chip0.line kind.name = some line ∧ opts ≠ [] ∧
      ∀ g ∈ opts, BondedTo ctx line.pin g := by
  unfold gpiosForLine at h
  split at h
  · cases h
  · next line hline => exact ⟨line, hline, gpiosForPin_ok h⟩

lemma gpiosForX_ok {n : ℕ} {opts : List ℕ} (h : gpiosForX ctx n = .ok opts) :
    opts ≠ [] ∧ opts = ctx.board.gpiosForXPin n := by
  unfold gpiosForX at h
  dsimp only at h
  split_ifs at h with hne
  cases h
  exact ⟨hne, rfl⟩

lemma multiLine_ok {kind : ControlLineKind} {c : Candidate} (h : multiLine ctx kind = .ok c) :
    c.role = controlLineKindToSelectRole kind ∧ gpiosForLine ctx kind = .ok c.gpios := by
  obtain ⟨gpios, hgpios, h⟩ := bind_eq_ok.mp h
  cases pure_eq_ok.mp h
  exact ⟨rfl, hgpios⟩

lemma multiX_ok {role : SelectRole} {n : ℕ} {r : List Candidate}
    (h : multiX ctx role n = .ok r) :
    r = if n < ctx.chipTypes.length then [⟨role, ctx.board.gpiosForXPin n⟩] else [] := by
  unfold multiX at h
  split_ifs at h ⊢
  · obtain ⟨opts, hopts, rfl⟩ := map_eq_ok.mp h
    rw [(gpiosForX_ok hopts).2]
  · cases h
    rfl

lemma multiX_ne {role : SelectRole} {n : ℕ} {r : List Candidate}
    (h : multiX ctx role n = .ok r) : ∀ c ∈ r, c.gpios ≠ [] := by
  unfold multiX at h
  split_ifs at h
  · obtain ⟨opts, hopts, rfl⟩ := map_eq_ok.mp h
    simpa using (gpiosForX_ok hopts).1
  · cases h
    simp

/-- Every line that selects is bonded somewhere. -/
lemma selectCandidates_ne {lines : SelectCandidates} (h : selectCandidates ctx = .ok lines) :
    ∀ c ∈ lines.select ++ lines.commoned, c.gpios ≠ [] := by
  have hline : ∀ {kind : ControlLineKind} {c : Candidate}, multiLine ctx kind = .ok c →
      c.gpios ≠ [] := fun hc => by
    obtain ⟨-, -, hne, -⟩ := gpiosForLine_ok (multiLine_ok hc).2
    exact hne
  unfold selectCandidates at h
  split at h
  · cases h
  · obtain ⟨select, hselect, h⟩ := bind_eq_ok.mp h
    obtain ⟨commoned, hcommoned, h⟩ := bind_eq_ok.mp h
    obtain ⟨ignored, -, h⟩ := bind_eq_ok.mp h
    obtain ⟨x1, hx1, h⟩ := bind_eq_ok.mp h
    obtain ⟨x2, hx2, h⟩ := bind_eq_ok.mp h
    cases pure_eq_ok.mp h
    intro c hc
    simp only [List.cons_append, List.mem_cons, List.mem_append] at hc
    rcases hc with rfl | (hc | hc) | hc
    · exact hline hselect
    · exact multiX_ne hx1 c hc
    · exact multiX_ne hx2 c hc
    · obtain ⟨kind, -, hkind⟩ := exists_left (mapM_eq_ok hcommoned) hc
      exact hline hkind
  · obtain ⟨pins, -, h⟩ := bind_eq_ok.mp h
    obtain ⟨gpios, hgpios, h⟩ := bind_eq_ok.mp h
    cases pure_eq_ok.mp h
    have hall := mapM_eq_ok hgpios
    intro c hc
    rw [List.append_nil] at hc
    obtain ⟨i, hi, rfl⟩ := List.getElem_of_mem hc
    rw [List.length_zipWith, lt_min_iff] at hi
    rw [List.getElem_zipWith]
    exact (gpiosForPin_ok (List.Forall₂.get hall hi.1 hi.2)).1

/-- A slot has a line that selects. -/
lemma selectCandidates_select {lines : SelectCandidates} (h : selectCandidates ctx = .ok lines) :
    lines.select ≠ [] := by
  unfold selectCandidates at h
  split at h
  · cases h
  · obtain ⟨select, -, h⟩ := bind_eq_ok.mp h
    obtain ⟨commoned, -, h⟩ := bind_eq_ok.mp h
    obtain ⟨ignored, -, h⟩ := bind_eq_ok.mp h
    obtain ⟨x1, -, h⟩ := bind_eq_ok.mp h
    obtain ⟨x2, -, h⟩ := bind_eq_ok.mp h
    cases pure_eq_ok.mp h
    exact List.cons_ne_nil _ _
  · obtain ⟨pins, hpins, h⟩ := bind_eq_ok.mp h
    obtain ⟨gpios, hgpios, h⟩ := bind_eq_ok.mp h
    cases pure_eq_ok.mp h
    have hne : pins ≠ [] := by
      unfold selectPhysPins at hpins
      dsimp only at hpins
      split_ifs at hpins with hnil
      cases hpins
      exact hnil
    have hlen := (mapM_eq_ok hgpios).length_eq
    intro hnil
    have hzero := congrArg List.length hnil
    rw [List.length_zipWith, List.length_nil, ← hlen, Nat.min_self] at hzero
    exact hne (List.length_eq_zero_iff.mp hzero)

/-- The GPIO of the first line that selects. -/
def firstSelect (layout : CsDataLayout) : ℕ := (layout.selectLines.head?.map (·.gpio)).getD 0

lemma CsOk.firstSelect_mem (h : CsOk ctx addr layout) :
    ∃ line ∈ layout.selectLines, line.gpio = firstSelect layout := by
  obtain ⟨lines, hlines, -, select, hselect, heq⟩ := h.lines
  have hne : layout.selectLines ≠ [] := by
    intro hnil
    rw [heq, List.append_eq_nil_iff] at hnil
    rw [hnil.1] at hselect
    exact selectCandidates_select hlines (List.forall₂_nil_right_iff.mp hselect)
  obtain ⟨line, rest, hcons⟩ := List.exists_cons_of_ne_nil hne
  exact ⟨line, by rw [hcons]; exact List.mem_cons_self, by rw [firstSelect, hcons]; rfl⟩

/-- The combination a layout is of, and the GPIOs it chooses. -/
lemma deriveCsDataLayout_combo (h : deriveCsDataLayout ctx addr = .ok layout) :
    ∃ qual lines data select commoned score, qualGpios ctx.chip0 addr = .ok qual ∧
      selectCandidates ctx = .ok lines ∧
      List.Forall₂ (BondedTo ctx) ctx.chip0.dataPins data ∧
      List.Forall₂ (fun opts g => g ∈ opts) (lines.select.map (·.gpios)) select ∧
      List.Forall₂ (fun opts g => g ∈ opts) (lines.commoned.map (·.gpios)) commoned ∧
      csCombo ctx lines addr.excessAddrPinGpios qual data select commoned =
        .found layout score := by
  unfold deriveCsDataLayout at h
  obtain ⟨-, -, h⟩ := bind_eq_ok.mp h
  obtain ⟨qual, hqual, h⟩ := bind_eq_ok.mp h
  obtain ⟨data, hdata, h⟩ := bind_eq_ok.mp h
  obtain ⟨lines, hlines, h⟩ := bind_eq_ok.mp h
  dsimp only at h
  split at h
  swap
  · cases h
  next found hfound =>
  cases h
  obtain ⟨combo, -, score, hcombo⟩ := search_eq_some hfound
  have hpins := mapM_gpiosForPin hdata
  have hne : ∀ opts ∈ data ++ lines.select.map (·.gpios) ++ lines.commoned.map (·.gpios),
      opts ≠ [] := by
    intro opts hopts
    rw [List.append_assoc, ← List.map_append] at hopts
    rcases List.mem_append.mp hopts with hl | hr
    · obtain ⟨_, _, hb, _⟩ := exists_left hpins hl
      exact hb
    · obtain ⟨c, hc, rfl⟩ := List.mem_map.mp hr
      exact selectCandidates_ne hlines c hc
  have hres := resolve_mem hne combo
  have hfoundCombo : comboOf ctx lines addr.excessAddrPinGpios qual data combo =
      .found layout score := by
    cases hc : comboOf ctx lines addr.excessAddrPinGpios qual data combo with
    | skipped => rw [hc] at hcombo; cases hcombo
    | nonContiguous select => rw [hc] at hcombo; cases hcombo
    | found l s => rw [hc] at hcombo; cases hcombo; rfl
  unfold comboOf at hfoundCombo
  generalize resolve (data ++ lines.select.map (·.gpios) ++ lines.commoned.map (·.gpios)) combo =
    resolved at hres hfoundCombo
  -- the chosen GPIOs, in the order of the data, the select and the commoned lines
  rw [List.append_assoc] at hres
  have htake := List.forall₂_take data.length hres
  have hdrop := List.forall₂_drop data.length hres
  rw [List.take_left] at htake
  rw [List.drop_left] at hdrop
  have hselect := List.forall₂_take (lines.select.map (·.gpios)).length hdrop
  have hcommoned := List.forall₂_drop (lines.select.map (·.gpios)).length hdrop
  rw [List.take_left, List.length_map] at hselect
  rw [List.drop_left, List.length_map] at hcommoned
  have hat : List.Forall₂ (BondedTo ctx) ctx.chip0.dataPins (resolved.take data.length) :=
    (forall₂_comp hpins htake).imp fun _ g ⟨_, hopts, hg⟩ => hopts.2 g hg
  exact ⟨qual, lines, _, _, _, score, hqual, hlines, hat, hselect, hcommoned, hfoundCombo⟩

/-- **The CS and data layout** has its lines at GPIOs they are bonded to, and one PIO reaches
them. -/
theorem deriveCsDataLayout_ok (h : deriveCsDataLayout ctx addr = .ok layout) :
    CsOk ctx addr layout := by
  obtain ⟨_, _, _, _, _, _, -, hlines, hdata, hselect, hcommoned, hfound⟩ :=
    deriveCsDataLayout_combo h
  exact csCombo_ok hdata hlines hselect hcommoned hfound

end OneRom.DeriveCs
