import OneRom.Layout

/-!
The address window of a slot.

`derive_addr_layout` goes through the bonds of the address and X lines for the narrowest window
of GPIOs that holds them. `deriveAddrLayout_ok` says what it finds.
-/

namespace OneRom.DeriveAddr

open OneRom.Bonds OneRom.Checks OneRom.Hw OneRom.ChipTypes OneRom.SlotLayout OneRom.MultiCs
open OneRom.Layout

/-- The fewest GPIOs an address window has. -/
def MIN_ADDR_PINS : ℕ := 8

/-- The GPIOs of an address line, and the X pins that overhanging lines have taken with it. -/
def addressLine (ctx : SlotContext) (flyLeads pin : ℕ) : Except LayoutError (List ℕ × ℕ) :=
  match ctx.socketPin pin with
  | some socketPin =>
    let gpios := ctx.board.gpiosForSocketPin socketPin
    if gpios = [] then .error (.unmappedPin ctx.board ctx.chip0 socketPin) else .ok (gpios, flyLeads)
  | none =>
    -- The X pins of a set select its chips
    if ctx.setType ≠ .single then .error (.noValidLayout ctx.board)
    else if 2 < flyLeads + 1 then .error (.noValidLayout ctx.board)
    else
      let xGpios := ctx.board.gpiosForXPin (flyLeads + 1)
      if xGpios = [] then .error (.missingXPin ctx.board (flyLeads + 1))
      else .ok (xGpios, flyLeads + 1)

/-- The GPIOs of each address line. -/
def lineCandidates (ctx : SlotContext) : ℕ → List ℕ → Except LayoutError (List (List ℕ))
  | _, [] => .ok []
  | flyLeads, pin :: pins => do
    let (gpios, flyLeads) ← addressLine ctx flyLeads pin
    return gpios :: (← lineCandidates ctx flyLeads pins)

/-- The GPIOs of an X pin. -/
def xPin (ctx : SlotContext) (n : ℕ) : Except LayoutError (List ℕ) :=
  let x := ctx.board.gpiosForXPin n
  if x = [] then .error (.missingXPin ctx.board n) else .ok x

/-- The GPIOs of the X pins a set needs: X1, and X2 from its third chip on. -/
def xCandidates (ctx : SlotContext) : Except LayoutError (List (List ℕ)) := do
  if ctx.setType = .single then return []
  let x1 ← xPin ctx 1
  if ctx.chipTypes.length < 3 then return [x1]
  return [x1, ← xPin ctx 2]

/-- The GPIOs of the select and the commoned lines of a Multi set, which its window holds too. -/
def multiSpanGpios (ctx : SlotContext) : List ℕ :=
  match ctx.setType, ctx.multiCsConfig with
  | .multi, some mcc =>
    (mcc.perChipSelect :: mcc.commonedLines).filterMap fun kind => do
      let line ← ctx.chip0.line kind.name
      let socketPin ← ctx.socketPin line.pin
      (ctx.board.gpiosForSocketPin socketPin).head?
  | _, _ => []

/-- The window of a combination of bonds, unless no PIO reaches it all. The first lines are the
address lines, X1 and X2 follow. -/
def addrCombo (ctx : SlotContext) (candidates : List (List ℕ)) (combo : ℕ) :
    Option (AddrLayout × ℕ) := do
  let resolved := resolve candidates combo
  let numAddrLines := ctx.addressLines.length
  let x1 := resolved[numAddrLines]?
  let x2 := resolved[numAddrLines + 1]?
  let inRange := resolved.take ctx.numInRange
  let (min, max) ← extent (inRange ++ x1.toList ++ x2.toList ++ multiSpanGpios ctx)
  let numAddrPins := Nat.max (max - min + 1) MIN_ADDR_PINS
  if fitsPioWindow min numAddrPins then
    some (⟨min, numAddrPins, x1, x2, inRange,
      (resolved.take numAddrLines).drop ctx.numInRange⟩, numAddrPins * 1000 + min)
  else none

def deriveAddrLayout (ctx : SlotContext) : Except LayoutError AddrLayout := do
  -- the count of the address lines is a `usize`
  refuse (ctx.chip0.addressPins.length < ctx.addrLineStart) .panic
  let lines ← lineCandidates ctx 0 ctx.addressLines
  let xs ← xCandidates ctx
  -- a window of nothing has no first GPIO
  refuse (ctx.numInRange = 0 ∧ xs = [] ∧ multiSpanGpios ctx = []) .panic
  let candidates := lines ++ xs
  match search (fun a b : ℕ => a < b) (numCombos candidates) (addrCombo ctx candidates) with
  | some layout => .ok layout
  | none => .error (.noValidLayout ctx.board)

/-! ### What it finds -/

variable {ctx : SlotContext}

/-- Where an address line is: in the socket, or on the X header where the set needs no X pin. -/
inductive AddressPin (ctx : SlotContext) (pin : ℕ) : Pin → Prop
  | socket {n : ℕ} : ctx.socketPin pin = some n → AddressPin ctx pin (.socket n)
  | flyLead {n : ℕ} : ctx.setType = .single → AddressPin ctx pin (.x n)

/-- The GPIOs of a pin the board has. -/
def BondedAt (ctx : SlotContext) (p : Pin) (opts : List ℕ) : Prop :=
  opts = ctx.board.gpios p ∧ opts ≠ []

lemma addressLine_ok {flyLeads pin flyLeads' : ℕ} {opts : List ℕ}
    (h : addressLine ctx flyLeads pin = .ok (opts, flyLeads')) :
    ∃ p, AddressPin ctx pin p ∧ BondedAt ctx p opts := by
  unfold addressLine at h
  cases hpin : ctx.socketPin pin with
  | some n =>
    simp only [hpin] at h
    split_ifs at h with hne
    cases h
    exact ⟨.socket n, .socket hpin, rfl, hne⟩
  | none =>
    simp only [hpin] at h
    split_ifs at h with hset hfly hne
    cases h
    exact ⟨.x (flyLeads + 1), .flyLead (not_not.mp hset), rfl, hne⟩

lemma lineCandidates_ok {flyLeads : ℕ} {pins : List ℕ} {lines : List (List ℕ)}
    (h : lineCandidates ctx flyLeads pins = .ok lines) :
    List.Forall₂ (fun pin opts => ∃ p, AddressPin ctx pin p ∧ BondedAt ctx p opts) pins lines := by
  induction pins generalizing flyLeads lines with
  | nil =>
    cases h
    exact .nil
  | cons pin pins ih =>
    obtain ⟨⟨opts, flyLeads'⟩, hline, hstep⟩ := bind_eq_ok.mp h
    obtain ⟨rest, hrest, heq⟩ := bind_eq_ok.mp hstep
    cases pure_eq_ok.mp heq
    exact .cons (addressLine_ok hline) (ih hrest)

lemma xPin_ok {n : ℕ} {opts : List ℕ} (h : xPin ctx n = .ok opts) : BondedAt ctx (.x n) opts := by
  unfold xPin at h
  dsimp only at h
  split_ifs at h with hne
  cases h
  exact ⟨rfl, hne⟩

/-- The X pins a set needs. -/
def xPins (ctx : SlotContext) : List Pin :=
  if ctx.setType = .single then []
  else if ctx.chipTypes.length < 3 then [.x 1] else [.x 1, .x 2]

lemma xCandidates_ok {xs : List (List ℕ)} (h : xCandidates ctx = .ok xs) :
    List.Forall₂ (BondedAt ctx) (xPins ctx) xs := by
  unfold xCandidates at h
  unfold xPins
  split_ifs at h with hset hlen
  · cases h
    rw [if_pos hset]
    exact .nil
  · obtain ⟨x1, hx1, heq⟩ := bind_eq_ok.mp h
    cases pure_eq_ok.mp heq
    rw [if_neg hset, if_pos hlen]
    exact .cons (xPin_ok hx1) .nil
  · obtain ⟨x1, hx1, hrest⟩ := bind_eq_ok.mp h
    obtain ⟨x2, hx2, heq⟩ := bind_eq_ok.mp hrest
    cases pure_eq_ok.mp heq
    rw [if_neg hset, if_neg hlen]
    exact .cons (xPin_ok hx1) (.cons (xPin_ok hx2) .nil)

lemma length_xPins_le (ctx : SlotContext) : (xPins ctx).length ≤ 2 := by
  unfold xPins
  split_ifs <;> simp

/-- The GPIO of an address line, at its pin. -/
def AddressAt (ctx : SlotContext) (pin g : ℕ) : Prop :=
  ∃ p, AddressPin ctx pin p ∧ g ∈ ctx.board.gpios p

/-- The GPIOs of a window are those of its lines, and lie in it. -/
structure AddrOk (ctx : SlotContext) (layout : AddrLayout) : Prop where
  inRange : List.Forall₂ (AddressAt ctx) (ctx.addressLines.take ctx.numInRange) layout.addrPinGpios
  excess : List.Forall₂ (AddressAt ctx) (ctx.addressLines.drop ctx.numInRange)
    layout.excessAddrPinGpios
  x : List.Forall₂ (fun p g => g ∈ ctx.board.gpios p) (xPins ctx)
    (layout.x1Gpio.toList ++ layout.x2Gpio.toList)
  within : ∀ g ∈ layout.addrPinGpios ++ (layout.x1Gpio.toList ++ layout.x2Gpio.toList) ++
    multiSpanGpios ctx, layout.gpioBase ≤ g ∧ g < layout.gpioBase + layout.numAddrPins

lemma addrCombo_ok {lines xs : List (List ℕ)} {combo score : ℕ} {layout : AddrLayout}
    (hlines : List.Forall₂ (fun pin opts => ∃ p, AddressPin ctx pin p ∧ BondedAt ctx p opts)
      ctx.addressLines lines)
    (hxs : List.Forall₂ (BondedAt ctx) (xPins ctx) xs)
    (h : addrCombo ctx (lines ++ xs) combo = some (layout, score)) : AddrOk ctx layout := by
  have hne : ∀ opts ∈ lines ++ xs, opts ≠ [] := by
    intro opts hopts
    rcases List.mem_append.mp hopts with hl | hx
    · obtain ⟨_, _, _, _, hb⟩ := exists_left hlines hl
      exact hb.2
    · obtain ⟨_, _, hb⟩ := exists_left hxs hx
      exact hb.2
  have hres := resolve_mem hne combo
  unfold addrCombo at h
  generalize resolve (lines ++ xs) combo = resolved at h hres
  have hlen := hlines.length_eq
  -- The first of the chosen are at the address lines, the others at the X pins
  have haddr : List.Forall₂ (AddressAt ctx) ctx.addressLines
      (resolved.take ctx.addressLines.length) := by
    have htake := List.forall₂_take lines.length hres
    rw [List.take_left, ← hlen] at htake
    refine (forall₂_comp hlines htake).imp ?_
    rintro pin g ⟨opts, ⟨p, hp, hb⟩, hg⟩
    exact ⟨p, hp, hb.1 ▸ hg⟩
  have hx : List.Forall₂ (fun p g => g ∈ ctx.board.gpios p) (xPins ctx)
      (resolved.drop ctx.addressLines.length) := by
    have hdrop := List.forall₂_drop lines.length hres
    rw [List.drop_left, ← hlen] at hdrop
    refine (forall₂_comp hxs hdrop).imp ?_
    rintro p g ⟨opts, hb, hg⟩
    exact hb.1 ▸ hg
  have hxlist : resolved[ctx.addressLines.length]?.toList ++
      resolved[ctx.addressLines.length + 1]?.toList = resolved.drop ctx.addressLines.length := by
    have hle : (resolved.drop ctx.addressLines.length).length ≤ 2 :=
      hx.length_eq ▸ length_xPins_le ctx
    have hlist := getElem?_toList hle
    rwa [List.getElem?_drop, List.getElem?_drop, Nat.add_zero] at hlist
  simp only [Option.bind_eq_bind, Option.bind_eq_some_iff, Prod.exists] at h
  obtain ⟨lo, hi, hextent, h⟩ := h
  split_ifs at h
  cases h
  obtain ⟨-, hmax, hbounds⟩ := extent_bounds hextent
  refine ⟨?_, ?_, ?_, fun g hg => ?_⟩
  · have htake := List.forall₂_take ctx.numInRange haddr
    have hle : ctx.numInRange ≤ ctx.addressLines.length := Nat.min_le_left _ _
    rwa [List.take_take, Nat.min_eq_left hle] at htake
  · exact List.forall₂_drop ctx.numInRange haddr
  · rwa [hxlist]
  · obtain ⟨h1, h2⟩ := hbounds g (by rwa [← List.append_assoc] at hg)
    have hnum : hi - lo + 1 ≤ Nat.max (hi - lo + 1) MIN_ADDR_PINS := Nat.le_max_left _ _
    dsimp only
    exact ⟨h1, by omega⟩

lemma deriveAddrLayout_search {layout : AddrLayout} (h : deriveAddrLayout ctx = .ok layout) :
    ∃ lines xs, lineCandidates ctx 0 ctx.addressLines = .ok lines ∧ xCandidates ctx = .ok xs ∧
      search (fun a b : ℕ => a < b) (numCombos (lines ++ xs)) (addrCombo ctx (lines ++ xs)) =
        some layout := by
  obtain ⟨-, -, h⟩ := bind_eq_ok.mp h
  obtain ⟨lines, hlines, h⟩ := bind_eq_ok.mp h
  obtain ⟨xs, hxs, h⟩ := bind_eq_ok.mp h
  obtain ⟨-, -, h⟩ := bind_eq_ok.mp h
  refine ⟨lines, xs, hlines, hxs, ?_⟩
  dsimp only at h
  split at h
  · next found hfound =>
    cases h
    exact hfound
  · cases h

/-- **The address window** holds the address lines and the X pins at the GPIOs they are bonded
to. -/
theorem deriveAddrLayout_ok {layout : AddrLayout} (h : deriveAddrLayout ctx = .ok layout) :
    AddrOk ctx layout := by
  obtain ⟨lines, xs, hlines, hxs, hsearch⟩ := deriveAddrLayout_search h
  obtain ⟨combo, -, score, hcombo⟩ := search_eq_some hsearch
  exact addrCombo_ok (lineCandidates_ok hlines) (xCandidates_ok hxs) hcombo

/-- One PIO reaches the address window. -/
lemma deriveAddrLayout_fits {layout : AddrLayout} (h : deriveAddrLayout ctx = .ok layout) :
    fitsPioWindow layout.gpioBase layout.numAddrPins := by
  obtain ⟨lines, xs, -, -, hsearch⟩ := deriveAddrLayout_search h
  obtain ⟨combo, -, score, hcombo⟩ := search_eq_some hsearch
  simp only [addrCombo, Option.bind_eq_bind, Option.bind_eq_some_iff, Prod.exists] at hcombo
  obtain ⟨lo, hi, -, h⟩ := hcombo
  split_ifs at h with hfits
  cases h
  exact hfits

end OneRom.DeriveAddr
