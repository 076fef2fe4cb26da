import Mathlib

/-!
Words whose bits are moved between positions, and words sampled from lines.

`gather` reads a word's bits at listed positions, `scatter` puts them there: over distinct
positions, what is scattered is gathered back.
-/

namespace OneRom.BitLines

/-- Bit `src` of `w` moved to bit `dst`, for each `(src, dst)`. -/
def moveBits (w : ℕ) (moves : List (ℕ × ℕ)) : ℕ :=
  moves.foldl (fun acc m => acc ||| ((w >>> m.1 &&& 1) <<< m.2)) 0

/-- Bit `n` is the bit of `w` at position `ps[n]`. -/
def gather (w : ℕ) (ps : List ℕ) : ℕ := moveBits w ps.zipIdx

/-- Bit `ps[n]` is bit `n` of `w`. -/
def scatter (w : ℕ) (ps : List ℕ) : ℕ := moveBits w (ps.zipIdx.map Prod.swap)

lemma testBit_bit (w src dst p : ℕ) :
    ((w >>> src &&& 1) <<< dst).testBit p = (dst == p && w.testBit src) := by
  have hbit : ∀ k, (w >>> src &&& 1).testBit k = (decide (k = 0) && w.testBit src) := by
    intro k
    rw [Bool.eq_iff_iff, Nat.testBit_and, Nat.testBit_shiftRight, Bool.and_eq_true,
      Nat.testBit_one_eq_true_iff_self_eq_zero, Bool.and_eq_true, decide_eq_true_iff]
    constructor
    · rintro ⟨h, rfl⟩
      exact ⟨rfl, h⟩
    · rintro ⟨rfl, h⟩
      exact ⟨h, rfl⟩
  rw [Nat.testBit_shiftLeft, hbit]
  by_cases h : dst = p
  · simp [h]
  · by_cases hle : dst ≤ p
    · have : p - dst ≠ 0 := by omega
      simp [h, this]
    · simp [h, hle]

lemma testBit_moveBits (w : ℕ) (moves : List (ℕ × ℕ)) (p : ℕ) :
    (moveBits w moves).testBit p = moves.any fun m => m.2 == p && w.testBit m.1 := by
  suffices h : ∀ acc, (moves.foldl (fun acc m => acc ||| ((w >>> m.1 &&& 1) <<< m.2)) acc).testBit p
      = (acc.testBit p || moves.any fun m => m.2 == p && w.testBit m.1) by
    simpa [moveBits] using h 0
  intro acc
  induction moves generalizing acc with
  | nil => simp
  | cons m moves ih =>
    rw [List.foldl_cons, ih, Nat.testBit_or, testBit_bit, List.any_cons, Bool.or_assoc]

lemma moveBits_lt {w k : ℕ} {moves : List (ℕ × ℕ)} (h : ∀ m ∈ moves, m.2 < k) :
    moveBits w moves < 2 ^ k := by
  refine Nat.lt_pow_two_of_testBit _ fun p hp => ?_
  rw [testBit_moveBits, List.any_eq_false]
  intro m hm
  have := h m hm
  have hne : m.2 ≠ p := by omega
  simp [hne]

variable {w p n k : ℕ} {ps : List ℕ}

lemma testBit_gather : (gather w ps).testBit n = ps[n]?.any w.testBit := by
  rw [gather, testBit_moveBits, Bool.eq_iff_iff, List.any_eq_true, Option.any_eq_true]
  constructor
  · rintro ⟨⟨p, i⟩, hmem, hbit⟩
    simp only [Bool.and_eq_true, beq_iff_eq] at hbit
    obtain ⟨rfl, hbit⟩ := hbit
    exact ⟨p, List.mem_zipIdx_iff_getElem?.mp hmem, hbit⟩
  · rintro ⟨p, hp, hbit⟩
    exact ⟨(p, n), List.mem_zipIdx_iff_getElem?.mpr hp, by simp [hbit]⟩

lemma gather_lt : gather w ps < 2 ^ ps.length := by
  refine moveBits_lt fun m hm => ?_
  have := (List.getElem?_eq_some_iff.mp (List.mem_zipIdx_iff_getElem?.mp hm)).1
  exact this

lemma testBit_scatter (hn : ps.Nodup) (hp : ps[n]? = some p) :
    (scatter w ps).testBit p = w.testBit n := by
  rw [scatter, testBit_moveBits, Bool.eq_iff_iff, List.any_eq_true]
  constructor
  · rintro ⟨m, hmem, hbit⟩
    obtain ⟨⟨p', i⟩, hzip, rfl⟩ := List.mem_map.mp hmem
    simp only [Prod.fst_swap, Prod.snd_swap, Bool.and_eq_true, beq_iff_eq] at hbit
    obtain ⟨rfl, hbit⟩ := hbit
    obtain ⟨hi, hget⟩ := List.getElem?_eq_some_iff.mp (List.mem_zipIdx_iff_getElem?.mp hzip)
    obtain ⟨hi', hget'⟩ := List.getElem?_eq_some_iff.mp hp
    have heq : i = n := hn.getElem_inj_iff.mp (hget.trans hget'.symm)
    rwa [heq] at hbit
  · intro hbit
    exact ⟨(n, p), List.mem_map.mpr ⟨(p, n), List.mem_zipIdx_iff_getElem?.mpr hp, rfl⟩, by simp [hbit]⟩

lemma scatter_lt (h : ∀ p ∈ ps, p < k) : scatter w ps < 2 ^ k := by
  refine moveBits_lt fun m hm => ?_
  obtain ⟨⟨p, i⟩, hzip, rfl⟩ := List.mem_map.mp hm
  exact h p (List.fst_mem_of_mem_zipIdx hzip)

/-- **Round trip**: what is scattered over distinct positions is gathered back. -/
theorem gather_scatter (hn : ps.Nodup) (hw : w < 2 ^ ps.length) : gather (scatter w ps) ps = w := by
  refine Nat.eq_of_testBit_eq fun n => ?_
  rw [testBit_gather]
  cases hp : ps[n]? with
  | none =>
    have hlen : ps.length ≤ n := List.getElem?_eq_none_iff.mp hp
    have : w < 2 ^ n := hw.trans_le (Nat.pow_le_pow_right (by decide) hlen)
    simp [Nat.testBit_lt_two_pow this]
  | some p => simpa using testBit_scatter hn hp

/-! ### Lines -/

/-- The word of `n` lines from line `base` on. -/
def sample (levels : ℕ → Bool) (base n : ℕ) : ℕ := Nat.ofBits fun b : Fin n => levels (base + b)

lemma sample_lt (levels : ℕ → Bool) (base n : ℕ) : sample levels base n < 2 ^ n :=
  Nat.ofBits_lt_two_pow _

lemma testBit_sample {levels : ℕ → Bool} {base : ℕ} (h : k < n) :
    (sample levels base n).testBit k = levels (base + k) :=
  Nat.testBit_ofBits_lt _ k h

/-- The word gathered from a sample is the one on the lines gathered. -/
lemma gather_sample {levels : ℕ → Bool} {base a : ℕ} {lines : List ℕ}
    (hin : ∀ g ∈ lines, base ≤ g ∧ g < base + n) (ha : a < 2 ^ lines.length)
    (h : ∀ i g, lines[i]? = some g → levels g = a.testBit i) :
    gather (sample levels base n) (lines.map (· - base)) = a := by
  refine Nat.eq_of_testBit_eq fun i => ?_
  rw [testBit_gather, List.getElem?_map]
  cases hg : lines[i]? with
  | none =>
    have hlen : lines.length ≤ i := List.getElem?_eq_none_iff.mp hg
    have : a < 2 ^ i := ha.trans_le (Nat.pow_le_pow_right (by decide) hlen)
    simp [Nat.testBit_lt_two_pow this]
  | some g =>
    have := hin g (List.mem_of_getElem? hg)
    simp only [Option.map_some, Option.any_some]
    rw [testBit_sample (by omega), ← h i g hg]
    congr 1
    omega

end OneRom.BitLines
