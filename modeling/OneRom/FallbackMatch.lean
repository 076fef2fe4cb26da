import Mathlib

/-!
Finding a pattern in a text with one place to fall back to.

The matcher keeps how much of the pattern it has seen. Where the next element isn't the one it
expects, it starts again, with that element if it is the pattern's first. `run_eq_length_iff` says
that this finds a pattern that never needs a longer fallback, and `exists_missed` that any other is
missed in some text.
-/

namespace OneRom.FallbackMatch

variable {α : Type*} [DecidableEq α] (pattern : List α)

def step (pos : ℕ) (x : α) : ℕ :=
  if pattern[pos]? = some x then pos + 1 else if pattern[0]? = some x then 1 else 0

def run (text : List α) : ℕ := text.foldl (step pattern) 0

@[simp] lemma run_nil : run pattern [] = 0 := rfl

@[simp] lemma run_concat (text : List α) (x : α) :
    run pattern (text ++ [x]) = step pattern (run pattern text) x := by
  simp [run]

/-- No element that isn't the expected one leaves a prefix of two elements or more seen. -/
def NoFallback : Prop :=
  ∀ pos < pattern.length, ∀ j, 2 ≤ j → j ≤ pos →
    pattern.take (j - 1) <:+ pattern.take pos → pattern[j - 1]? = pattern[pos]?

instance : Decidable (NoFallback pattern) :=
  inferInstanceAs (Decidable (∀ pos < pattern.length, ∀ j, 2 ≤ j → j ≤ pos →
    pattern.take (j - 1) <:+ pattern.take pos → pattern[j - 1]? = pattern[pos]?))

variable {pattern} {text : List α} {x : α}

variable (pattern) in
lemma step_le (pos : ℕ) (x : α) : step pattern pos x ≤ pos + 1 := by
  unfold step
  split_ifs <;> omega

omit [DecidableEq α] in
lemma take_concat {l : List α} {n : ℕ} (h : l[n]? = some x) : l.take (n + 1) = l.take n ++ [x] := by
  rw [List.take_add_one, h]
  rfl

/-- What the matcher has seen is at the end of the text. -/
lemma take_run (pattern text : List α) :
    run pattern text ≤ pattern.length ∧ pattern.take (run pattern text) <:+ text := by
  induction text using List.reverseRecOn with
  | nil => simp
  | append_singleton text x ih =>
    obtain ⟨-, hsuffix⟩ := ih
    rw [run_concat, step]
    split_ifs with hnext hfirst
    · have hlt := (List.getElem?_eq_some_iff.mp hnext).1
      rw [take_concat hnext]
      exact ⟨hlt, List.suffix_append_self_iff.mpr hsuffix⟩
    · have hlt := (List.getElem?_eq_some_iff.mp hfirst).1
      rw [show (1 : ℕ) = 0 + 1 from rfl, take_concat hfirst, List.take_zero]
      exact ⟨hlt, List.suffix_append text [x]⟩
    · simp

omit [DecidableEq α] in
/-- A prefix at the end of a longer text is a shorter one at the end of the text, and one more. -/
lemma suffix_concat {j : ℕ} (hj : 0 < j) (hle : j ≤ pattern.length)
    (h : pattern.take j <:+ text ++ [x]) :
    pattern.take (j - 1) <:+ text ∧ pattern[j - 1]? = some x := by
  have hlt : j - 1 < pattern.length := by omega
  have hget : pattern[j - 1]? = some pattern[j - 1] := List.getElem?_eq_getElem hlt
  rw [show j = j - 1 + 1 by omega, take_concat hget] at h
  obtain ⟨front, heq⟩ := h
  rw [← List.append_assoc] at heq
  obtain ⟨htext, hx⟩ := List.append_inj' heq rfl
  rw [hget, List.singleton_inj.mp hx]
  exact ⟨⟨front, htext⟩, rfl⟩

/-- Nothing longer than what the matcher has seen is at the end of the text. -/
lemma le_run (hno : NoFallback pattern) (hbefore : ∀ before x after, text = before ++ x :: after →
    run pattern before < pattern.length) {j : ℕ} (hj : j ≤ pattern.length)
    (h : pattern.take j <:+ text) : j ≤ run pattern text := by
  induction text using List.reverseRecOn generalizing j with
  | nil =>
    have hlen := h.length_le
    rw [List.length_take, List.length_nil] at hlen
    omega
  | append_singleton text x ih =>
    have hlt : run pattern text < pattern.length := hbefore text x [] rfl
    rcases Nat.eq_zero_or_pos j with rfl | hpos
    · exact Nat.zero_le _
    obtain ⟨hshort, hx⟩ := suffix_concat hpos hj h
    have hle : j - 1 ≤ run pattern text :=
      ih (fun before y after heq => hbefore before y (after ++ [x]) (by simp [heq])) (by omega)
        hshort
    -- two prefixes are at the end of the text, so the shorter is at the end of the longer
    have hfall : pattern[run pattern text]? ≠ some x → j < 2 := fun hnext => by
      by_contra htwo
      have hne : j - 1 ≠ run pattern text := fun heq => hnext (heq ▸ hx)
      have hborder : pattern.take (j - 1) <:+ pattern.take (run pattern text) :=
        List.suffix_of_suffix_length_le hshort (take_run pattern text).2
          (by rw [List.length_take, List.length_take]; omega)
      exact hnext (hno _ hlt j (by omega) (by omega) hborder ▸ hx)
    rw [run_concat, step]
    split_ifs with hnext hfirst
    · omega
    · have := hfall hnext
      omega
    · have := hfall hnext
      exact absurd (by rw [← hx, show j - 1 = 0 by omega]) hfirst

/-- **The pattern is found** where it is first at the end of the text. -/
theorem run_eq_length_iff (hno : NoFallback pattern)
    (hbefore : ∀ before x after, text = before ++ x :: after →
      run pattern before < pattern.length) :
    run pattern text = pattern.length ↔ pattern <:+ text := by
  obtain ⟨hle, hsuffix⟩ := take_run pattern text
  constructor
  · intro heq
    rwa [heq, List.take_length] at hsuffix
  · intro h
    exact le_antisymm hle (le_run hno hbefore le_rfl (by rwa [List.take_length]))

/-! ### A text in which it is missed -/

variable (pattern) in
lemma run_append_le (text more : List α) :
    run pattern (text ++ more) ≤ run pattern text + more.length := by
  induction more using List.reverseRecOn with
  | nil => simp
  | append_singleton more x ih =>
    rw [← List.append_assoc, run_concat, List.length_append, List.length_singleton]
    have := step_le pattern (run pattern (text ++ more)) x
    omega

/-- The pattern itself is seen as it comes. -/
lemma run_take {n : ℕ} (h : n ≤ pattern.length) : run pattern (pattern.take n) = n := by
  induction n with
  | zero => simp
  | succ n ih =>
    have hget : pattern[n]? = some pattern[n] := List.getElem?_eq_getElem (by omega)
    rw [take_concat hget, run_concat, ih (by omega), step, if_pos hget]

/-- **A pattern that needs a longer fallback is missed** in a text of its own elements. -/
theorem exists_missed (h : ¬NoFallback pattern) :
    ∃ text, pattern <:+ text ∧ (∀ x ∈ text, x ∈ pattern) ∧
      ∀ before, before <+: text → run pattern before < pattern.length := by
  unfold NoFallback at h
  push Not at h
  obtain ⟨pos, hpos, j, htwo, hj, hborder, hne⟩ := h
  refine ⟨pattern.take pos ++ pattern.drop (j - 1), ?_, fun x hx => ?_, fun before hbefore => ?_⟩
  · have happend : pattern.take (j - 1) ++ pattern.drop (j - 1) <:+
        pattern.take pos ++ pattern.drop (j - 1) := List.suffix_append_self_iff.mpr hborder
    rwa [List.take_append_drop] at happend
  · rcases List.mem_append.mp hx with hx | hx
    · exact List.mem_of_mem_take hx
    · exact List.mem_of_mem_drop hx
  · have hget : pattern[j - 1]? = some pattern[j - 1] := List.getElem?_eq_getElem (by omega)
    rw [List.prefix_iff_eq_take.mp hbefore, List.take_append, List.length_take,
      Nat.min_eq_left hpos.le, List.take_take]
    rcases Nat.lt_or_ge pos before.length with hlong | hshort
    · -- after the part that is seen comes an element that isn't expected
      have hcons : pattern.drop (j - 1) = pattern[j - 1] :: pattern.drop j := by
        rw [List.drop_eq_getElem_cons (by omega), show j - 1 + 1 = j by omega]
      rw [Nat.min_eq_right hlong.le, hcons, show before.length - pos = before.length - pos - 1 + 1
        by omega, List.take_succ_cons, List.append_cons]
      have hstep : run pattern (pattern.take pos ++ [pattern[j - 1]]) ≤ 1 := by
        rw [run_concat, run_take hpos.le, step, if_neg fun heq => hne (hget.trans heq.symm)]
        split_ifs <;> omega
      have hrest := run_append_le pattern (pattern.take pos ++ [pattern[j - 1]])
        ((pattern.drop j).take (before.length - pos - 1))
      rw [List.length_take, List.length_drop] at hrest
      omega
    · rw [Nat.min_eq_left hshort, show before.length - pos = 0 by omega, List.take_zero,
        List.append_nil, run_take (by omega)]
      omega

end OneRom.FallbackMatch
