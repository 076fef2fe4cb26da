import Mathlib

/-!
Places on a circle. A buffer of `size` places is filled going round, and what lies from one place
up to another is read going round too.
-/

namespace OneRom.Circular

variable {α : Type} {size r w n k : ℕ}

/-- How many places there are from `r` up to `w`, going round. -/
def span (size r w : ℕ) : ℕ := if r ≤ w then w - r else size - r + w

/-- What lies in the `n` places from `start` on, going round. -/
def window (mem : ℕ → α) (size start n : ℕ) : List α :=
  (List.range n).map fun i => mem ((start + i) % size)

/-- The place is one of those from `r` up to `w`. -/
def Within (size r w i : ℕ) : Prop := ∃ k < span size r w, i = (r + k) % size

lemma add_mod_eq (hr : r < size) (hn : n ≤ size) :
    (r + n) % size = if r + n < size then r + n else r + n - size := by
  split_ifs with h
  · exact Nat.mod_eq_of_lt h
  · rw [Nat.mod_eq_sub_mod (by omega), Nat.mod_eq_of_lt (by omega)]

lemma mod_lt_of (hr : r < size) : n % size < size := Nat.mod_lt _ (by omega)

/-! ### Counting -/

@[simp] lemma span_self : span size r r = 0 := by simp [span]

lemma span_lt (hr : r < size) (hw : w < size) : span size r w < size := by
  unfold span
  split_ifs <;> omega

/-- The far end of a span. -/
lemma add_span (hr : r < size) (hw : w < size) : (r + span size r w) % size = w := by
  rw [add_mod_eq hr (span_lt hr hw).le]
  unfold span
  split_ifs <;> omega

/-- The far end moves away. -/
lemma span_add_right (hr : r < size) (hw : w < size) (h : span size r w + n < size) :
    span size r ((w + n) % size) = span size r w + n := by
  rw [add_mod_eq hw (by omega)]
  unfold span at h ⊢
  split_ifs at h ⊢ <;> omega

/-- The near end moves up. -/
lemma span_add_left (hr : r < size) (hw : w < size) (h : k ≤ span size r w) :
    span size ((r + k) % size) w = span size r w - k := by
  rw [add_mod_eq hr (h.trans (span_lt hr hw).le)]
  unfold span at h ⊢
  split_ifs at h ⊢ <;> omega

/-- Places less than once round from one another are different. -/
lemma place_inj (hr : r < size) (hk : k < size) (hn : n < size)
    (h : (r + k) % size = (r + n) % size) : k = n := by
  rw [add_mod_eq hr hk.le, add_mod_eq hr hn.le] at h
  split_ifs at h <;> omega

/-- The places after `w`, as long as `r` is not reached, are none of those from `r` up to `w`. -/
lemma not_within (hr : r < size) (hw : w < size) (h : span size r w + n < size) :
    ¬ Within size r w ((w + n) % size) := by
  rintro ⟨k, hk, heq⟩
  have hplace : (w + n) % size = (r + (span size r w + n)) % size := by
    conv_lhs => rw [← add_span hr hw]
    rw [Nat.mod_add_mod, Nat.add_assoc]
  have hlt := span_lt hr hw
  have := place_inj hr h (by omega) (hplace.symm.trans heq)
  omega

/-! ### Windows -/

variable {mem mem' : ℕ → α}

@[simp] lemma window_length : (window mem size r n).length = n := by simp [window]

@[simp] lemma window_zero : window mem size r 0 = [] := rfl

lemma window_one : window mem size r 1 = [mem (r % size)] := rfl

/-- A window is what lies in its first places, then what lies in the others. -/
lemma window_add : window mem size r (k + n)
    = window mem size r k ++ window mem size ((r + k) % size) n := by
  simp only [window, List.range_add, List.map_append, List.map_map, Function.comp_def,
    Nat.mod_add_mod, Nat.add_assoc]

lemma window_congr (h : ∀ i < n, mem ((r + i) % size) = mem' ((r + i) % size)) :
    window mem size r n = window mem' size r n :=
  List.map_congr_left fun i hi => h i (List.mem_range.mp hi)

/-- A place less than once round from the near end, and not among the first `n`, is not in the
window. -/
lemma window_update (hr : r < size) (hn : n ≤ k) (hk : k < size) (x : α) :
    window (Function.update mem ((r + k) % size) x) size r n = window mem size r n := by
  refine window_congr fun i hi => Function.update_of_ne (fun heq => ?_) _ _
  have := place_inj hr (by omega) hk heq
  omega

/-- One more place is filled. -/
lemma window_update_last (hr : r < size) (hn : n < size) (x : α) :
    window (Function.update mem ((r + n) % size) x) size r (n + 1)
      = window mem size r n ++ [x] := by
  rw [window_add, window_update hr le_rfl hn, window_one]
  simp

end OneRom.Circular
