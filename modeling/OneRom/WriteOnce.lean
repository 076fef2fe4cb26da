import Mathlib

/-!
Writes to the cells of a memory, one after the other.

`Lays base img ws` says that the writes `ws` lay the block `img` out from cell `base`, each of
its cells exactly once and in any order. A prefix of such writes leaves every cell outside the
block as it was, and all of them leave the block in memory.
-/

namespace OneRom.WriteOnce

variable {α : Type*}

/-- A write of `value` to `cell`. -/
structure Write (α : Type*) where
  cell : ℕ
  value : α
  deriving DecidableEq

/-- The memory after a list of writes. -/
def apply (m : ℕ → α) (ws : List (Write α)) : ℕ → α :=
  ws.foldl (fun m w => Function.update m w.cell w.value) m

@[simp] lemma apply_nil (m : ℕ → α) : apply m [] = m := rfl
@[simp] lemma apply_cons (m : ℕ → α) (w : Write α) (ws : List (Write α)) :
    apply m (w :: ws) = apply (Function.update m w.cell w.value) ws := rfl
lemma apply_append (m : ℕ → α) (us ws : List (Write α)) :
    apply m (us ++ ws) = apply (apply m us) ws := by simp [apply]

/-- Frame: a cell no write is to is unchanged. -/
lemma apply_of_notMem (m : ℕ → α) {ws : List (Write α)} {c : ℕ}
    (h : c ∉ ws.map Write.cell) : apply m ws c = m c := by
  induction ws generalizing m with
  | nil => rfl
  | cons w ws ih =>
    simp only [List.map_cons, List.mem_cons, not_or] at h
    rw [apply_cons, ih _ h.2, Function.update_of_ne h.1]

lemma apply_of_mem (m : ℕ → α) {ws : List (Write α)} (hn : (ws.map Write.cell).Nodup)
    {w : Write α} (hw : w ∈ ws) : apply m ws w.cell = w.value := by
  induction ws generalizing m with
  | nil => simp at hw
  | cons u ws ih =>
    simp only [List.map_cons, List.nodup_cons] at hn
    rw [apply_cons]
    rcases List.mem_cons.mp hw with rfl | hw
    · rw [apply_of_notMem _ hn.1, Function.update_self]
    · exact ih _ hn.2 hw

/-! ### Blocks -/

/-- Memory holds the block `img` from cell `base`. -/
def Holds (m : ℕ → α) (base : ℕ) (img : List α) : Prop :=
  (List.range' base img.length).map m = img

@[simp] lemma holds_nil (m : ℕ → α) (base : ℕ) : Holds m base [] := rfl

@[simp] lemma holds_cons {m : ℕ → α} {base : ℕ} {x : α} {img : List α} :
    Holds m base (x :: img) ↔ m base = x ∧ Holds m (base + 1) img := by
  simp [Holds, List.range'_succ]

lemma holds_append {m : ℕ → α} {base : ℕ} {img img' : List α} :
    Holds m base (img ++ img') ↔ Holds m base img ∧ Holds m (base + img.length) img' := by
  induction img generalizing base with
  | nil => simp
  | cons x img ih =>
    have hb : base + (img.length + 1) = base + 1 + img.length := by omega
    simp only [List.cons_append, holds_cons, ih, List.length_cons, hb, and_assoc]

lemma Holds.congr {m m' : ℕ → α} {base : ℕ} {img : List α} (h : Holds m base img)
    (heq : ∀ c, base ≤ c → c < base + img.length → m' c = m c) : Holds m' base img := by
  refine Eq.trans (List.map_congr_left fun c hc => ?_) h
  obtain ⟨i, hi, rfl⟩ := List.mem_range'.mp hc
  exact heq _ (by omega) (by omega)

/-- The writes `ws` lay the block `img` out from cell `base`, each cell once. -/
structure Lays (base : ℕ) (img : List α) (ws : List (Write α)) : Prop where
  cells : (ws.map Write.cell).Perm (List.range' base img.length)
  values : ∀ w ∈ ws, img[w.cell - base]? = some w.value

variable {base : ℕ} {img img' : List α} {ws ws' : List (Write α)}

lemma Lays.nodup (h : Lays base img ws) : (ws.map Write.cell).Nodup :=
  h.cells.nodup_iff.mpr List.nodup_range'

lemma Lays.mem_cells (h : Lays base img ws) {c : ℕ} :
    c ∈ ws.map Write.cell ↔ base ≤ c ∧ c < base + img.length := by
  rw [h.cells.mem_iff, List.mem_range'_1]

lemma Lays.length (h : Lays base img ws) : ws.length = img.length := by
  simpa using h.cells.length_eq

lemma Lays.nil (base : ℕ) : Lays base ([] : List α) [] := ⟨by simp, by simp⟩

lemma Lays.single (base : ℕ) (x : α) : Lays base [x] [⟨base, x⟩] := ⟨by simp, by simp⟩

lemma Lays.append (h : Lays base img ws) (h' : Lays (base + img.length) img' ws') :
    Lays base (img ++ img') (ws ++ ws') where
  cells := by
    rw [List.map_append, List.length_append, ← List.range'_append_1]
    exact h.cells.append h'.cells
  values := by
    intro w hw
    rcases List.mem_append.mp hw with hw | hw
    · have hc := h.mem_cells.mp (List.mem_map_of_mem hw)
      rw [List.getElem?_append_left (by omega), h.values w hw]
    · have hc := h'.mem_cells.mp (List.mem_map_of_mem hw)
      rw [List.getElem?_append_right (by omega), ← h'.values w hw]
      congr 1; omega

/-- **Layout**: once all its writes are performed, the block is in memory. -/
theorem Lays.holds_apply (h : Lays base img ws) (m : ℕ → α) : Holds (apply m ws) base img := by
  refine List.ext_getElem (by simp) fun i hi hi' => ?_
  simp only [List.getElem_map, List.getElem_range', one_mul]
  obtain ⟨w, hw, hc⟩ := List.mem_map.mp (h.mem_cells.mpr ⟨Nat.le_add_right base i, by omega⟩)
  have hv := h.values w hw
  rw [hc, Nat.add_sub_cancel_left, List.getElem?_eq_getElem hi'] at hv
  rw [← hc, apply_of_mem m h.nodup hw]
  exact (Option.some.inj hv).symm

/-- Frame: a prefix of the writes changes no cell outside the block. -/
lemma Lays.apply_take_of_notMem (h : Lays base img ws) (m : ℕ → α) (k : ℕ) {c : ℕ}
    (hc : c < base ∨ base + img.length ≤ c) : apply m (ws.take k) c = m c := by
  refine apply_of_notMem m fun hmem => ?_
  rw [List.map_take] at hmem
  have := h.mem_cells.mp (List.mem_of_mem_take hmem)
  omega

end OneRom.WriteOnce
