import Mathlib.Logic.Function.Basic
import Mathlib.Data.List.GetD

/-!
A terminal that executes carriage returns and backspaces and prints everything else, and how a
line on it is edited with no more than these.
-/

namespace OneRom.Terminal

/-- The line the cursor is in, blank to its right for ever. -/
structure Screen where
  cells : ℕ → Char
  col : ℕ

def CR : Char := '\r'
def BS : Char := '\x08'

/-- A character that is printed in its cell. -/
def isPrintable (c : Char) : Bool := 0x20 ≤ c.toNat && c.toNat ≤ 0x7E

def blank : Screen := ⟨fun _ => ' ', 0⟩

def put (s : Screen) (c : Char) : Screen :=
  if c = CR then { s with col := 0 }
  else if c = BS then { s with col := s.col - 1 }
  else if isPrintable c then ⟨Function.update s.cells s.col c, s.col + 1⟩
  else s

def feed (s : Screen) (text : List Char) : Screen := text.foldl put s

/-- The screen holds a line and nothing else, and the cursor is at a place in it. -/
def Shows (s : Screen) (line : List Char) (cursor : ℕ) : Prop :=
  (∀ i, s.cells i = line.getD i ' ') ∧ s.col = cursor

@[simp] lemma feed_nil (s : Screen) : feed s [] = s := rfl
@[simp] lemma feed_cons (s : Screen) (c : Char) (text : List Char) :
    feed s (c :: text) = feed (put s c) text := rfl
lemma feed_append (s : Screen) (text text' : List Char) :
    feed s (text ++ text') = feed (feed s text) text' :=
  List.foldl_append

@[simp] lemma put_cr (s : Screen) : put s CR = ⟨s.cells, 0⟩ := rfl
@[simp] lemma put_bs (s : Screen) : put s BS = ⟨s.cells, s.col - 1⟩ := rfl

lemma put_printable (s : Screen) {c : Char} (h : isPrintable c) :
    put s c = ⟨Function.update s.cells s.col c, s.col + 1⟩ := by
  have hne : c ≠ CR ∧ c ≠ BS := by
    refine ⟨?_, ?_⟩ <;> rintro rfl <;> exact absurd h (by decide)
  rw [put, if_neg hne.1, if_neg hne.2, if_pos h]

/-- A text is printed from the cursor on. -/
lemma feed_printable (s : Screen) {text : List Char} (h : ∀ c ∈ text, isPrintable c) :
    (feed s text).col = s.col + text.length ∧
      ∀ i, (feed s text).cells i =
        if s.col ≤ i ∧ i < s.col + text.length then text.getD (i - s.col) ' ' else s.cells i := by
  induction text generalizing s with
  | nil => exact ⟨rfl, fun i => by rw [if_neg (by simp)]; rfl⟩
  | cons c text ih =>
    obtain ⟨hc, htext⟩ := List.forall_mem_cons.mp h
    obtain ⟨hcol, hcells⟩ := ih (put s c) htext
    rw [put_printable s hc] at hcol hcells
    rw [feed_cons, put_printable s hc]
    refine ⟨by rw [hcol, List.length_cons]; dsimp only; omega, fun i => ?_⟩
    rw [hcells, List.length_cons]
    dsimp only
    rcases Nat.lt_trichotomy i s.col with hi | rfl | hi
    · rw [if_neg (by omega), if_neg (by omega), Function.update_of_ne (by omega)]
    · rw [if_neg (by omega), if_pos (by omega), Function.update_self, Nat.sub_self]
      rfl
    · obtain ⟨k, rfl⟩ := Nat.exists_eq_add_of_lt hi
      rw [Function.update_of_ne (by omega), show s.col + k + 1 - (s.col + 1) = k by omega,
        show s.col + k + 1 - s.col = k + 1 by omega, List.getD_cons_succ]
      exact if_congr (by omega) rfl rfl

lemma feed_backspaces (s : Screen) (n : ℕ) :
    feed s (List.replicate n BS) = ⟨s.cells, s.col - n⟩ := by
  induction n generalizing s with
  | zero => rfl
  | succ n ih =>
    rw [List.replicate_succ, feed_cons, ih, put_bs]
    simp only [Screen.mk.injEq, true_and]
    omega

/-! ### Editing -/

section Edit

variable {s : Screen} {row : List Char} {cursor : ℕ}

lemma shows_blank : Shows blank [] 0 := ⟨fun _ => rfl, rfl⟩

/-- Printing what is there already moves the cursor over it. -/
lemma Shows.over (h : Shows s row cursor) {c : Char} (hc : isPrintable c)
    (hat : row[cursor]? = some c) : Shows (feed s [c]) row (cursor + 1) := by
  obtain ⟨hcells, rfl⟩ := h
  rw [feed_cons, feed_nil, put_printable s hc]
  refine ⟨fun i => ?_, rfl⟩
  dsimp only
  by_cases hi : i = s.col
  · subst hi
    rw [Function.update_self, List.getD_eq_getElem?_getD, hat, Option.getD_some]
  · rw [Function.update_of_ne hi, hcells]

/-- A character at the line's end is one more of it. -/
lemma Shows.append (h : Shows s row row.length) {c : Char} (hc : isPrintable c) :
    Shows (feed s [c]) (row ++ [c]) (row.length + 1) := by
  obtain ⟨hcells, hcol⟩ := h
  rw [feed_cons, feed_nil, put_printable s hc, hcol]
  refine ⟨fun i => ?_, rfl⟩
  dsimp only
  rcases Nat.lt_trichotomy i row.length with hi | rfl | hi
  · rw [Function.update_of_ne (by omega), hcells, List.getD_append _ _ _ _ hi]
  · rw [Function.update_self, List.getD_append_right _ _ _ _ (Nat.le_refl _), Nat.sub_self]
    rfl
  · rw [Function.update_of_ne (by omega), hcells, List.getD_eq_default _ _ (Nat.le_of_lt hi),
      List.getD_eq_default _ _ (by simp; omega)]

/-- A backspace, a blank and a backspace take the last character off. -/
lemma Shows.rubOut {c : Char} (h : Shows s (row ++ [c]) (row.length + 1)) :
    Shows (feed s [BS, ' ', BS]) row row.length := by
  obtain ⟨hcells, hcol⟩ := h
  rw [feed_cons, feed_cons, feed_cons, feed_nil, put_bs, put_printable _ (by decide), put_bs, hcol]
  refine ⟨fun i => ?_, by dsimp only; omega⟩
  dsimp only
  rw [Nat.add_sub_cancel]
  by_cases hi : i = row.length
  · subst hi
    rw [Function.update_self, List.getD_eq_default _ _ (Nat.le_refl _)]
  · rw [Function.update_of_ne hi, hcells]
    rcases Nat.lt_or_gt_of_ne hi with hlt | hgt
    · rw [List.getD_append _ _ _ _ hlt]
    · rw [List.getD_eq_default _ _ (by simp; omega), List.getD_eq_default _ _ (Nat.le_of_lt hgt)]

lemma Shows.back (h : Shows s row (cursor + 1)) : Shows (feed s [BS]) row cursor :=
  ⟨h.1, by rw [feed_cons, feed_nil, put_bs, h.2, Nat.add_sub_cancel]⟩

/-- Printing a line over one that was longer, with blanks for the rest of it, leaves the line. -/
lemma Shows.repaint (h : Shows s row cursor) {row' : List Char} {tail back : ℕ}
    (hrow : ∀ c ∈ row', isPrintable c) (htail : row.length ≤ row'.length + tail) :
    Shows (feed s (CR :: row' ++ List.replicate tail ' ' ++ List.replicate back BS)) row'
      (row'.length + tail - back) := by
  have hprint : ∀ c ∈ row' ++ List.replicate tail ' ', isPrintable c := by
    intro c hc
    rcases List.mem_append.mp hc with hc | hc
    · exact hrow c hc
    · rw [List.eq_of_mem_replicate hc]
      decide
  obtain ⟨hcol, hcells⟩ := feed_printable ⟨s.cells, 0⟩ hprint
  rw [List.cons_append, List.cons_append, feed_cons, put_cr, feed_append, feed_backspaces]
  refine ⟨fun i => ?_, by rw [hcol]; simp⟩
  rw [hcells]
  dsimp only
  rw [List.length_append, List.length_replicate]
  split
  · next hi =>
    rw [Nat.sub_zero]
    rcases Nat.lt_or_ge i row'.length with hlt | hge
    · rw [List.getD_append _ _ _ _ hlt]
    · rw [List.getD_append_right _ _ _ _ hge, List.getD_eq_default _ _ hge,
        List.getD_eq_getElem _ _ (by simp; omega), List.getElem_replicate]
  · next hi =>
    rw [h.1, List.getD_eq_default _ _ (by omega), List.getD_eq_default _ _ (by omega)]

/-- Printing the start of the line again leaves the cursor behind it. -/
lemma Shows.reposition (h : Shows s row cursor) {pre post : List Char} (hrow : pre ++ post = row)
    (hpre : ∀ c ∈ pre, isPrintable c) : Shows (feed s (CR :: pre)) row pre.length := by
  obtain ⟨hcol, hcells⟩ := feed_printable ⟨s.cells, 0⟩ hpre
  rw [feed_cons, put_cr]
  refine ⟨fun i => ?_, by rw [hcol]; simp⟩
  rw [hcells, ← hrow]
  dsimp only
  split
  · next hi => rw [Nat.sub_zero, List.getD_append _ _ _ _ (by omega)]
  · rw [h.1, hrow]

end Edit

end OneRom.Terminal
