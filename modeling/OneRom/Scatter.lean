import Mathlib.Data.List.Induction
import Mathlib.Data.List.Nodup
import Mathlib.Data.List.Perm.Basic
import Mathlib.Order.MinMax

/-!
Cells scattered over offsets, in any order: the list that grows to hold the highest of them, with
a blank in every gap.
-/

namespace OneRom.Scatter

variable {α : Type}

/-- One past the highest offset. -/
def extent (cells : List (ℕ × α)) : ℕ := cells.foldr (fun c n => max (c.1 + 1) n) 0

def cell? (cells : List (ℕ × α)) (offset : ℕ) : Option α :=
  (cells.find? (fun c => c.1 = offset)).map Prod.snd

/-- The cells in their places. -/
def laidOut (blank : α) (cells : List (ℕ × α)) : List α :=
  (List.range (extent cells)).map fun offset => (cell? cells offset).getD blank

/-- Which places a cell was put in. -/
def taken (cells : List (ℕ × α)) : List Bool :=
  (List.range (extent cells)).map fun offset => (cell? cells offset).isSome

/-! ### Extent -/

@[simp] lemma extent_nil : extent ([] : List (ℕ × α)) = 0 := rfl

@[simp] lemma extent_cons (c : ℕ × α) (cells : List (ℕ × α)) :
    extent (c :: cells) = max (c.1 + 1) (extent cells) := rfl

@[simp] lemma extent_append (xs ys : List (ℕ × α)) :
    extent (xs ++ ys) = max (extent xs) (extent ys) := by
  induction xs with
  | nil => simp
  | cons c xs ih => simp [ih, max_assoc]

lemma lt_extent {cells : List (ℕ × α)} {c : ℕ × α} (h : c ∈ cells) : c.1 < extent cells := by
  induction cells with
  | nil => cases h
  | cons d cells ih =>
    rcases List.mem_cons.mp h with rfl | h
    · simp
    · exact lt_max_of_lt_right (ih h)

lemma exists_extent {cells : List (ℕ × α)} (h : cells ≠ []) :
    ∃ c ∈ cells, extent cells = 1 + c.1 := by
  induction cells with
  | nil => exact absurd rfl h
  | cons c cells ih =>
    by_cases hle : extent cells ≤ c.1 + 1
    · exact ⟨c, List.mem_cons_self, by simp; omega⟩
    · have hcells : cells ≠ [] := by
        rintro rfl
        simp at hle
      obtain ⟨d, hd, hlast⟩ := ih hcells
      exact ⟨d, List.mem_cons_of_mem _ hd, by simp; omega⟩

lemma extent_perm {xs ys : List (ℕ × α)} (h : xs.Perm ys) : extent xs = extent ys := by
  induction h with
  | nil => rfl
  | cons c _ ih => simp [ih]
  | swap c d cells => simp [max_left_comm]
  | trans _ _ ih₁ ih₂ => exact ih₁.trans ih₂

/-! ### Cells -/

lemma cell?_append (xs ys : List (ℕ × α)) (offset : ℕ) :
    cell? (xs ++ ys) offset = (cell? xs offset).or (cell? ys offset) := by
  rw [cell?, List.find?_append]
  cases h : xs.find? (fun c => c.1 = offset) <;> simp [cell?, h]

@[simp] lemma cell?_singleton (o : ℕ) (a : α) (offset : ℕ) :
    cell? [(o, a)] offset = if o = offset then some a else none := by
  by_cases h : o = offset <;> simp [cell?, h]

lemma cell?_eq_none {cells : List (ℕ × α)} {offset : ℕ} :
    cell? cells offset = none ↔ offset ∉ cells.map Prod.fst := by
  simp only [cell?, Option.map_eq_none_iff, List.find?_eq_none, List.mem_map, not_exists, not_and,
    decide_eq_true_eq]

lemma cell?_isSome {cells : List (ℕ × α)} {offset : ℕ} :
    (cell? cells offset).isSome ↔ offset ∈ cells.map Prod.fst := by
  rw [Option.isSome_iff_ne_none, ne_eq, cell?_eq_none, not_not]

lemma cell?_of_extent_le {cells : List (ℕ × α)} {offset : ℕ} (h : extent cells ≤ offset) :
    cell? cells offset = none := by
  rw [cell?_eq_none, List.mem_map]
  rintro ⟨c, hc, rfl⟩
  exact absurd (lt_extent hc) (by omega)

/-- Where no two cells share an offset, the one found is the one put there. -/
lemma cell?_eq_some {cells : List (ℕ × α)} (hnodup : (cells.map Prod.fst).Nodup) {offset : ℕ}
    {a : α} : cell? cells offset = some a ↔ (offset, a) ∈ cells := by
  induction cells with
  | nil => simp [cell?]
  | cons c cells ih =>
    obtain ⟨hfst, hrest⟩ := List.nodup_cons.mp hnodup
    rw [← List.singleton_append, cell?_append, cell?_singleton, List.singleton_append,
      List.mem_cons]
    by_cases h : c.1 = offset
    · subst h
      rw [if_pos rfl, Option.some_or, Option.some_inj]
      constructor
      · rintro rfl
        exact Or.inl rfl
      · rintro (h | h)
        · exact (congrArg Prod.snd h).symm
        · exact absurd (List.mem_map_of_mem h) hfst
    · rw [if_neg h, Option.none_or, ih hrest]
      constructor
      · exact Or.inr
      · rintro (rfl | h')
        · exact absurd rfl h
        · exact h'

lemma cell?_perm {xs ys : List (ℕ × α)} (h : xs.Perm ys) (hnodup : (xs.map Prod.fst).Nodup)
    (offset : ℕ) : cell? xs offset = cell? ys offset := by
  have hys : (ys.map Prod.fst).Nodup := (h.map Prod.fst).nodup_iff.mp hnodup
  ext a
  rw [cell?_eq_some hnodup, cell?_eq_some hys, h.mem_iff]

/-! ### Layout -/

variable (blank : α)

@[simp] lemma length_laidOut (cells : List (ℕ × α)) : (laidOut blank cells).length = extent cells := by
  simp [laidOut]

@[simp] lemma length_taken (cells : List (ℕ × α)) : (taken cells).length = extent cells := by
  simp [taken]

lemma getElem?_laidOut (cells : List (ℕ × α)) (i : ℕ) :
    (laidOut blank cells)[i]? =
      if i < extent cells then some ((cell? cells i).getD blank) else none := by
  rw [laidOut, List.getElem?_map]
  split <;> simp [*]

lemma getElem?_taken (cells : List (ℕ × α)) (i : ℕ) :
    (taken cells)[i]? = if i < extent cells then some (cell? cells i).isSome else none := by
  rw [taken, List.getElem?_map]
  split <;> simp [*]

lemma laidOut_perm {xs ys : List (ℕ × α)} (h : xs.Perm ys) (hnodup : (xs.map Prod.fst).Nodup) :
    laidOut blank xs = laidOut blank ys := by
  rw [laidOut, laidOut, extent_perm h]
  exact List.map_congr_left fun i _ => by rw [cell?_perm h hnodup]

lemma taken_perm {xs ys : List (ℕ × α)} (h : xs.Perm ys) (hnodup : (xs.map Prod.fst).Nodup) :
    taken xs = taken ys := by
  rw [taken, taken, extent_perm h]
  exact List.map_congr_left fun i _ => by rw [cell?_perm h hnodup]

/-- What a grown list holds. -/
lemma getElem?_grown (l : List α) (n i : ℕ) :
    (l ++ List.replicate (n - l.length) blank)[i]? =
      if i < l.length then l[i]? else if i < n then some blank else none := by
  split
  · next h => rw [List.getElem?_append_left h]
  · next h =>
    rw [List.getElem?_append_right (by omega), List.getElem?_replicate]
    exact if_congr (by omega) rfl rfl

/-- Growing the list to a free offset and setting it there lays out one cell more. -/
lemma laidOut_snoc (cells : List (ℕ × α)) (o : ℕ) (a : α) (hfree : cell? cells o = none) :
    (laidOut blank cells ++
        List.replicate (o + 1 - (laidOut blank cells).length) blank).set o a =
      laidOut blank (cells ++ [(o, a)]) := by
  ext1 i
  rw [List.getElem?_set, getElem?_grown, getElem?_laidOut, getElem?_laidOut, cell?_append,
    cell?_singleton]
  simp only [length_laidOut, List.length_append, List.length_replicate, extent_append, extent_cons,
    extent_nil]
  by_cases hi : o = i
  · subst hi
    rw [if_pos rfl, if_pos (by omega), if_pos (by omega), hfree]
    simp
  · rw [if_neg hi, if_neg hi, Option.or_none]
    by_cases hin : i < extent cells
    · rw [if_pos hin, if_pos hin, if_pos (by omega)]
    · rw [if_neg hin, cell?_of_extent_le (by omega)]
      exact if_congr (by omega) rfl rfl

lemma taken_snoc (cells : List (ℕ × α)) (o : ℕ) (a : α) :
    (taken cells ++ List.replicate (o + 1 - (taken cells).length) false).set o true =
      taken (cells ++ [(o, a)]) := by
  ext1 i
  rw [List.getElem?_set, getElem?_grown, getElem?_taken, getElem?_taken, cell?_append,
    cell?_singleton]
  simp only [length_taken, List.length_append, List.length_replicate, extent_append, extent_cons,
    extent_nil]
  by_cases hi : o = i
  · subst hi
    rw [if_pos rfl, if_pos (by omega), if_pos (by omega)]
    cases cell? cells o <;> simp
  · rw [if_neg hi, if_neg hi, Option.or_none]
    by_cases hin : i < extent cells
    · rw [if_pos hin, if_pos hin, if_pos (by omega)]
    · rw [if_neg hin, cell?_of_extent_le (by omega)]
      exact if_congr (by omega) rfl rfl

/-! ### Cells in a row -/

/-- A list's elements, each at its own place. -/
def inARow (xs : List α) : List (ℕ × α) := xs.zipIdx.map Prod.swap

lemma mem_inARow {xs : List α} {i : ℕ} {a : α} : (i, a) ∈ inARow xs ↔ xs[i]? = some a := by
  simp [inARow, List.mem_zipIdx_iff_getElem?]

lemma map_fst_inARow (xs : List α) : (inARow xs).map Prod.fst = List.range xs.length := by
  rw [inARow, List.map_map]
  exact (List.zipIdx_map_snd 0 xs).trans List.range_eq_range'.symm

lemma extent_inARow (xs : List α) : extent (inARow xs) = xs.length := by
  induction xs using List.reverseRecOn with
  | nil => rfl
  | append_singleton xs a ih =>
    rw [inARow, List.zipIdx_append, List.map_append, extent_append]
    change max (extent (inARow xs)) _ = _
    simp [ih]

/-- A list in its own places is laid out as it is. -/
lemma laidOut_inARow (xs : List α) : laidOut blank (inARow xs) = xs := by
  ext1 i
  rw [getElem?_laidOut, extent_inARow]
  split
  · next h =>
    have hcell : cell? (inARow xs) i = some (xs[i]) := by
      rw [cell?_eq_some (by rw [map_fst_inARow]; exact List.nodup_range), mem_inARow]
      exact List.getElem?_eq_getElem h
    rw [hcell, List.getElem?_eq_getElem h, Option.getD_some]
  · next h => rw [List.getElem?_eq_none (by omega)]

end OneRom.Scatter
