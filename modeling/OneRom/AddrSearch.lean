import OneRom.DeriveCs

/-!
The smallest address window.

Each line of a slot is at one of its pin's GPIOs, and a choice of GPIOs has a window.
`deriveAddrLayout_smallest` says that the search goes through every choice, and returns one whose
window is as small as any.
-/

namespace OneRom.AddrSearch

open OneRom.Bonds OneRom.Checks OneRom.ChipTypes OneRom.DeriveAddr OneRom.DeriveCs OneRom.Hw
open OneRom.Layout OneRom.MultiCs OneRom.SlotLayout

/-! ### Choices -/

/-- Where address lines are: in the socket, or on the next of the X pins. -/
def linePins (ctx : SlotContext) : ℕ → List ℕ → List Pin
  | _, [] => []
  | flyLeads, pin :: pins =>
    match ctx.socketPin pin with
    | some n => .socket n :: linePins ctx flyLeads pins
    | none => .x (flyLeads + 1) :: linePins ctx (flyLeads + 1) pins

/-- The pins of a slot's address lines, and then the X pins. -/
def slotPins (ctx : SlotContext) : List Pin := linePins ctx 0 ctx.addressLines ++ xPins ctx

/-- One of the GPIOs of each of a slot's pins. -/
def Choice (ctx : SlotContext) (gpios : List ℕ) : Prop :=
  List.Forall₂ (fun p g => g ∈ ctx.board.gpios p) (slotPins ctx) gpios

/-- The GPIOs of a choice that its window holds: those of the address lines the ROM table is indexed
by, of the X pins and of a Multi set's selects. -/
def spanGpios (ctx : SlotContext) (gpios : List ℕ) : List ℕ :=
  gpios.take ctx.numInRange ++ gpios.drop ctx.addressLines.length ++ multiSpanGpios ctx

/-- The first GPIO of a choice's window, and how many there are. -/
def windowOf (ctx : SlotContext) (gpios : List ℕ) : Option (ℕ × ℕ) :=
  (extent (spanGpios ctx gpios)).map fun (min, max) =>
    (min, Nat.max (max - min + 1) MIN_ADDR_PINS)

/-- A choice's layout with a window. -/
def layoutOf (ctx : SlotContext) (gpios : List ℕ) (base num : ℕ) : AddrLayout where
  gpioBase := base
  numAddrPins := num
  x1Gpio := gpios[ctx.addressLines.length]?
  x2Gpio := gpios[ctx.addressLines.length + 1]?
  addrPinGpios := gpios.take ctx.numInRange
  excessAddrPinGpios := (gpios.take ctx.addressLines.length).drop ctx.numInRange

/-- A window from `base` on is one that a choice has, and that one PIO reaches. -/
def Reachable (ctx : SlotContext) (gpios : List ℕ) (base num : ℕ) : Prop :=
  Choice ctx gpios ∧ windowOf ctx gpios = some (base, num) ∧ fitsPioWindow base num

/-- The select and the commoned lines of a Multi set have a GPIO each. -/
def SelectsFixed (ctx : SlotContext) : Prop :=
  ∀ mcc, ctx.multiCsConfig = some mcc → ∀ kind ∈ mcc.perChipSelect :: mcc.commonedLines,
    ∀ line n, ctx.chip0.line kind.name = some line → ctx.socketPin line.pin = some n →
      (ctx.board.gpiosForSocketPin n).length ≤ 1

/-! ### Combinations -/

variable {ctx : SlotContext} {lines xs : List (List ℕ)}

lemma length_gpios_le (board : Board) (p : Pin) : (board.gpios p).length ≤ 2 := by
  have hfind : ∀ {l : List (ℕ × List ℕ)}, (∀ entry ∈ l, entry.2.length ≤ 2) → ∀ n,
      (((l.find? (·.1 == n)).map (·.2)).getD []).length ≤ 2 := fun {l} hl n => by
    cases hf : l.find? (·.1 == n) with
    | none => simp
    | some entry => exact hl entry (List.mem_of_find?_eq_some hf)
  cases p with
  | socket n => exact hfind (fun entry he => board.bonds entry (List.mem_append_left _ he)) n
  | x n => exact hfind (fun entry he => board.bonds entry (List.mem_append_right _ he)) n

lemma linePins_at {flyLeads : ℕ} {pins : List ℕ}
    (h : lineCandidates ctx flyLeads pins = .ok lines) :
    List.Forall₂ (BondedAt ctx) (linePins ctx flyLeads pins) lines := by
  induction pins generalizing flyLeads lines with
  | nil =>
    cases h
    exact .nil
  | cons pin pins ih =>
    obtain ⟨⟨opts, flyLeads'⟩, hline, hstep⟩ := bind_eq_ok.mp h
    obtain ⟨rest, hrest, heq⟩ := bind_eq_ok.mp hstep
    cases pure_eq_ok.mp heq
    unfold addressLine at hline
    unfold linePins
    cases hpin : ctx.socketPin pin with
    | some n =>
      simp only [hpin] at hline ⊢
      split_ifs at hline with hne
      cases hline
      exact .cons ⟨rfl, hne⟩ (ih hrest)
    | none =>
      simp only [hpin] at hline ⊢
      split_ifs at hline with hset hfly hne
      cases hline
      exact .cons ⟨rfl, hne⟩ (ih hrest)

/-- The candidates of the search are the GPIOs of the slot's pins. -/
lemma slotPins_at (hlines : lineCandidates ctx 0 ctx.addressLines = .ok lines)
    (hxs : xCandidates ctx = .ok xs) : List.Forall₂ (BondedAt ctx) (slotPins ctx) (lines ++ xs) :=
  List.rel_append (linePins_at hlines) (xCandidates_ok hxs)

lemma length_linePins (flyLeads : ℕ) (pins : List ℕ) :
    (linePins ctx flyLeads pins).length = pins.length := by
  induction pins generalizing flyLeads with
  | nil => rfl
  | cons pin pins ih =>
    unfold linePins
    cases ctx.socketPin pin <;> simp [ih]

section Combos

variable (hat : List.Forall₂ (BondedAt ctx) (slotPins ctx) (lines ++ xs))
include hat

/-- A combination is a choice. -/
lemma choice_resolve (combo : ℕ) : Choice ctx (resolve (lines ++ xs) combo) := by
  have hne : ∀ opts ∈ lines ++ xs, opts ≠ [] := fun opts hopts => by
    obtain ⟨_, _, hb⟩ := exists_left hat hopts
    exact hb.2
  refine (forall₂_comp hat (resolve_mem hne combo)).imp ?_
  rintro p g ⟨opts, hb, hg⟩
  exact hb.1 ▸ hg

/-- A choice is a combination. -/
lemma exists_combo {gpios : List ℕ} (h : Choice ctx gpios) :
    ∃ combo < numCombos (lines ++ xs), resolve (lines ++ xs) combo = gpios := by
  refine ⟨_, comboFor_lt _ gpios, resolve_comboFor (fun opts hopts => ?_) ?_⟩
  · obtain ⟨p, _, rfl, _⟩ := exists_left hat hopts
    exact length_gpios_le ctx.board p
  · refine (forall₂_comp hat.flip h).imp ?_
    rintro opts g ⟨p, hb, hg⟩
    exact hb.1 ▸ hg

/-- The window of a combination is the window of its choice. -/
lemma addrCombo_eq (combo : ℕ) :
    addrCombo ctx (lines ++ xs) combo =
      (windowOf ctx (resolve (lines ++ xs) combo)).bind fun (base, num) =>
        if fitsPioWindow base num then
          some (layoutOf ctx (resolve (lines ++ xs) combo) base num, num * 1000 + base)
        else none := by
  have hchoice := choice_resolve hat combo
  unfold addrCombo windowOf spanGpios
  generalize resolve (lines ++ xs) combo = gpios at hchoice
  have hlen : (gpios.drop ctx.addressLines.length).length ≤ 2 := by
    have hlength := hchoice.length_eq
    have hx := length_xPins_le ctx
    rw [slotPins, List.length_append, length_linePins] at hlength
    rw [List.length_drop]
    omega
  have hx := getElem?_toList hlen
  rw [List.getElem?_drop, List.getElem?_drop, Nat.add_zero] at hx
  dsimp only
  rw [← hx, ← List.append_assoc]
  cases extent (gpios.take ctx.numInRange ++ gpios[ctx.addressLines.length]?.toList ++
    gpios[ctx.addressLines.length + 1]?.toList ++ multiSpanGpios ctx) with
  | none => rfl
  | some bounds => rfl

end Combos

/-! ### The window -/

/-- The layout is that of a choice, whose window holds its GPIOs and is as small as any. -/
structure Smallest (ctx : SlotContext) (layout : AddrLayout) (gpios : List ℕ) : Prop where
  reachable : Reachable ctx gpios layout.gpioBase layout.numAddrPins
  layout_eq : layout = layoutOf ctx gpios layout.gpioBase layout.numAddrPins
  within : ∀ g ∈ spanGpios ctx gpios,
    layout.gpioBase ≤ g ∧ g < layout.gpioBase + layout.numAddrPins
  least : ∀ other base num, Reachable ctx other base num → layout.numAddrPins ≤ num

lemma lt_trans_score (a b c : ℕ) (h : decide (a < b) = true) (h' : decide (b < c) = true) :
    decide (a < c) = true := by
  rw [decide_eq_true_eq] at *
  omega

lemma lt_irrefl_score (a : ℕ) : decide (a < a) = false := by
  simp

lemma windowOf_within {gpios : List ℕ} {base num : ℕ} (h : windowOf ctx gpios = some (base, num)) :
    ∀ g ∈ spanGpios ctx gpios, base ≤ g ∧ g < base + num := by
  obtain ⟨⟨lo, hi⟩, hextent, heq⟩ := Option.map_eq_some_iff.mp h
  obtain ⟨rfl, rfl⟩ := Prod.mk.inj heq
  obtain ⟨-, -, hb⟩ := extent_bounds hextent
  intro g hg
  obtain ⟨h1, h2⟩ := hb g hg
  have hmax : hi - lo + 1 ≤ Nat.max (hi - lo + 1) MIN_ADDR_PINS := Nat.le_max_left _ _
  exact ⟨h1, by omega⟩

/-- What a combination gives where its choice has a window that one PIO reaches. -/
lemma addrCombo_of_reachable (hat : List.Forall₂ (BondedAt ctx) (slotPins ctx) (lines ++ xs))
    {gpios : List ℕ} {base num : ℕ} (h : Reachable ctx gpios base num) :
    ∃ combo < numCombos (lines ++ xs), ∃ layout,
      addrCombo ctx (lines ++ xs) combo = some (layout, num * 1000 + base) := by
  obtain ⟨hchoice, hwindow, hfits⟩ := h
  obtain ⟨combo, hlt, rfl⟩ := exists_combo hat hchoice
  refine ⟨combo, hlt, layoutOf ctx (resolve (lines ++ xs) combo) base num, ?_⟩
  rw [addrCombo_eq hat, hwindow, Option.bind_some]
  exact if_pos hfits

lemma smallest_of_search (hat : List.Forall₂ (BondedAt ctx) (slotPins ctx) (lines ++ xs))
    {layout : AddrLayout}
    (h : search (fun a b : ℕ => a < b) (numCombos (lines ++ xs)) (addrCombo ctx (lines ++ xs)) =
      some layout) : ∃ gpios, Smallest ctx layout gpios := by
  obtain ⟨score, ⟨combo, -, hcombo⟩, hbest⟩ := search_best lt_trans_score lt_irrefl_score h
  have hchoice := choice_resolve hat combo
  rw [addrCombo_eq hat, Option.bind_eq_some_iff] at hcombo
  obtain ⟨⟨base, num⟩, hwindow, hfound⟩ := hcombo
  dsimp only at hfound
  split_ifs at hfound with hfits
  cases hfound
  refine ⟨_, ⟨hchoice, hwindow, hfits⟩, rfl, windowOf_within hwindow, ?_⟩
  intro other base' num' hother
  obtain ⟨combo', hlt, layout', hcombo'⟩ := addrCombo_of_reachable hat hother
  have hle := hbest combo' hlt _ hcombo'
  -- the width counts for a thousand times the base, which is below a thousand
  have hend := lt_of_fitsPioWindow hother.2.2
  rw [decide_eq_false_iff_not] at hle
  dsimp only [layoutOf] at hle ⊢
  omega

/-- Where no address line overhangs, no line says that there is no layout. -/
lemma lineCandidates_ne (board : Board) {flyLeads : ℕ} {pins : List ℕ}
    (hin : ∀ pin ∈ pins, (ctx.socketPin pin).isSome) :
    lineCandidates ctx flyLeads pins ≠ .error (.noValidLayout board) := by
  induction pins generalizing flyLeads with
  | nil => exact fun h => by cases h
  | cons pin pins ih =>
    obtain ⟨n, hpin⟩ := Option.isSome_iff_exists.mp (hin pin List.mem_cons_self)
    intro h
    rcases bind_eq_error.mp h with hline | ⟨⟨opts, flyLeads'⟩, -, h⟩
    · unfold addressLine at hline
      simp only [hpin] at hline
      split_ifs at hline
      cases hline
    · rcases bind_eq_error.mp h with hrest | ⟨rest, -, h⟩
      · exact ih (fun p hp => hin p (List.mem_cons_of_mem _ hp)) hrest
      · cases h

lemma xCandidates_ne (board : Board) : xCandidates ctx ≠ .error (.noValidLayout board) := by
  have hx : ∀ n, xPin ctx n ≠ .error (.noValidLayout board) := fun n h => by
    unfold xPin at h
    dsimp only at h
    split_ifs at h
    cases h
  intro h
  unfold xCandidates at h
  split_ifs at h
  · cases h
  · rcases bind_eq_error.mp h with hx1 | ⟨x1, -, h⟩
    · exact hx 1 hx1
    · cases h
  · rcases bind_eq_error.mp h with hx1 | ⟨x1, -, h⟩
    · exact hx 1 hx1
    · rcases bind_eq_error.mp h with hx2 | ⟨x2, -, h⟩
      · exact hx 2 hx2
      · cases h

/-- Where no address line overhangs and there is no layout, the search found nothing. -/
lemma search_of_noValidLayout {board : Board}
    (hin : ∀ pin ∈ ctx.addressLines, (ctx.socketPin pin).isSome)
    (h : deriveAddrLayout ctx = .error (.noValidLayout board)) :
    ∃ lines xs, lineCandidates ctx 0 ctx.addressLines = .ok lines ∧ xCandidates ctx = .ok xs ∧
      search (fun a b : ℕ => a < b) (numCombos (lines ++ xs)) (addrCombo ctx (lines ++ xs)) =
        none := by
  unfold deriveAddrLayout at h
  rcases bind_eq_error.mp h with h | ⟨-, -, h⟩
  · cases (refuse_eq_error.mp h).2
  rcases bind_eq_error.mp h with h | ⟨lines, hlines, h⟩
  · exact absurd h (lineCandidates_ne board hin)
  rcases bind_eq_error.mp h with h | ⟨xs, hxs, h⟩
  · exact absurd h (xCandidates_ne board)
  rcases bind_eq_error.mp h with h | ⟨-, -, h⟩
  · cases (refuse_eq_error.mp h).2
  refine ⟨lines, xs, hlines, hxs, ?_⟩
  dsimp only at h
  split at h
  · cases h
  · next hsearch => exact hsearch

/-! ### The selects of a Multi set -/

/-- The GPIO of a select whose pin has one is among those the window holds. -/
lemma mem_multiSpanGpios {mcc : MultiChipCsConfig} {kind : ControlLineKind} {opts : List ℕ} {g : ℕ}
    (hmulti : ctx.setType = .multi) (hmcc : ctx.multiCsConfig = some mcc) (hfixed : SelectsFixed ctx)
    (hkind : kind ∈ mcc.perChipSelect :: mcc.commonedLines) (h : gpiosForLine ctx kind = .ok opts)
    (hg : g ∈ opts) : g ∈ multiSpanGpios ctx := by
  obtain ⟨line, hline, -, hopts⟩ := gpiosForLine_ok h
  obtain ⟨n, hpin, hmem⟩ := hopts g hg
  have hlen := hfixed mcc hmcc kind hkind line n hline hpin
  have hhead : (ctx.board.gpiosForSocketPin n).head? = some g := by
    obtain ⟨a, ha⟩ := List.length_eq_one_iff.mp
      (le_antisymm hlen (List.length_pos_of_mem hmem))
    rw [ha, List.mem_singleton] at hmem
    rw [ha, hmem]
    rfl
  unfold multiSpanGpios
  rw [hmulti, hmcc]
  dsimp only
  rw [List.mem_filterMap]
  refine ⟨kind, hkind, ?_⟩
  simp only [Option.bind_eq_bind, hline, Option.bind_some, hpin]
  exact hhead

/-- The GPIOs of a Multi set's first chip's select and of the lines its chips share. -/
lemma selects_of_multi {layout : AddrLayout} {cs : CsDataLayout} (hmulti : ctx.setType = .multi)
    (hfixed : SelectsFixed ctx) (h : deriveCsDataLayout ctx layout = .ok cs) :
    ∀ g ∈ firstSelect cs :: cs.commonedLines.map (·.gpio), g ∈ multiSpanGpios ctx := by
  obtain ⟨lines, hlines, hcommoned, select, hselect, heq⟩ := (deriveCsDataLayout_ok h).lines
  unfold selectCandidates at hlines
  rw [hmulti] at hlines
  cases hmcc : ctx.multiCsConfig with
  | none =>
    rw [hmcc] at hlines
    cases hlines
  | some mcc =>
    rw [hmcc] at hlines
    obtain ⟨first, hfirst, hrest⟩ := bind_eq_ok.mp hlines
    obtain ⟨commoned, hlist, hrest⟩ := bind_eq_ok.mp hrest
    obtain ⟨ignored, -, hrest⟩ := bind_eq_ok.mp hrest
    obtain ⟨x1, -, hrest⟩ := bind_eq_ok.mp hrest
    obtain ⟨x2, -, hrest⟩ := bind_eq_ok.mp hrest
    cases pure_eq_ok.mp hrest
    intro g hg
    rcases List.mem_cons.mp hg with rfl | hg
    · -- the first line that selects is the first chip's
      rw [List.cons_append] at hselect
      cases hselect with
      | cons hat htail =>
        refine mem_multiSpanGpios hmulti hmcc hfixed List.mem_cons_self
          (multiLine_ok hfirst).2 ?_
        rw [firstSelect, heq]
        exact hat.2
    · obtain ⟨line, hline, rfl⟩ := List.mem_map.mp hg
      obtain ⟨c, hc, hat⟩ := exists_left hcommoned hline
      obtain ⟨kind, hkind, hmulti'⟩ := exists_left (mapM_eq_ok hlist) hc
      exact mem_multiSpanGpios hmulti hmcc hfixed (List.mem_cons_of_mem _ hkind)
        (multiLine_ok hmulti').2 hat.2

/-- **The window that is found is the smallest**: it is that of a choice of GPIOs, no choice has a
smaller one within one PIO's reach, and where none is found and no line overhangs, no choice has
one. It holds a Multi set's selects where these aren't bonded twice. -/
theorem deriveAddrLayout_smallest (ctx : SlotContext) :
    (∀ layout, deriveAddrLayout ctx = .ok layout → (∃ gpios, Smallest ctx layout gpios) ∧
      ∀ cs, ctx.setType = .multi → SelectsFixed ctx → deriveCsDataLayout ctx layout = .ok cs →
        ∀ g ∈ firstSelect cs :: cs.commonedLines.map (·.gpio),
          layout.gpioBase ≤ g ∧ g < layout.gpioBase + layout.numAddrPins) ∧
      ∀ board, deriveAddrLayout ctx = .error (.noValidLayout board) →
        (∀ pin ∈ ctx.addressLines, (ctx.socketPin pin).isSome) →
        ∀ gpios base num, ¬Reachable ctx gpios base num := by
  constructor
  · intro layout h
    obtain ⟨lines, xs, hlines, hxs, hsearch⟩ := deriveAddrLayout_search h
    obtain ⟨gpios, hsmallest⟩ := smallest_of_search (slotPins_at hlines hxs) hsearch
    refine ⟨⟨gpios, hsmallest⟩, fun cs hmulti hfixed hcs g hg => ?_⟩
    exact hsmallest.within g
      (List.mem_append_right _ (selects_of_multi hmulti hfixed hcs g hg))
  · intro board h hin gpios base num hreach
    obtain ⟨lines, xs, hlines, hxs, hsearch⟩ := search_of_noValidLayout hin h
    obtain ⟨combo, hlt, layout, hcombo⟩ :=
      addrCombo_of_reachable (slotPins_at hlines hxs) hreach
    rw [search_eq_none lt_trans_score lt_irrefl_score hsearch hlt] at hcombo
    cases hcombo

/-- A board whose pin 20, the select of a 2364, is bonded to GPIO 24 and to GPIO 9. -/
def selectTwice : Board where
  name := "fire-24-e"
  name_ne := fire24E.name_ne
  chipPins := 24
  socketPinMap := signal24.zip
    [[16], [17], [18], [19], [20], [21], [22], [23], [7], [6], [5], [0], [1], [2], [3], [4], [11],
     [13], [24, 9], [12], [14], [15]]
  xPinMap := [(1, [10])]

/-- A Multi set of two 2364s. -/
def multi2364 (board : Board) : SlotContext where
  board := board
  setType := .multi
  chipTypes := [.chip2364, .chip2364]
  chipTypes_ne := List.cons_ne_nil _ _
  csConfig := .chipSelect .activeLow none none none
  bitMode := .bitMode8
  pinOffset := 0
  force16Bit := false
  multiCsConfig := some ⟨.cs1, [], []⟩

/-- There the window is made for GPIO 24, and GPIO 9 is the select. -/
theorem select_outside : ∃ layout cs, deriveAddrLayout (multi2364 selectTwice) = .ok layout ∧
    deriveCsDataLayout (multi2364 selectTwice) layout = .ok cs ∧
    layout.gpioBase = 10 ∧ layout.numAddrPins = 15 ∧
    cs.selectLines = [⟨.cs1, 9⟩, ⟨.x1, 10⟩] := by
  exact ⟨_, _, rfl, rfl, rfl, rfl, rfl⟩

end OneRom.AddrSearch
