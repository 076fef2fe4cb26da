import OneRom.ImageFile
import OneRom.Lanes

/-!
What deinterleaving keeps: lane by lane the whole image, and its 16-bit words, where a lane is of
whole words, whether their bytes are swapped before or after.
-/

namespace OneRom.Deinterleave

open OneRom.Checks OneRom.ChipTypes OneRom.ImageFile OneRom.Lanes OneRom.SlotArg

section Lane

variable {offset stride bytes : ℕ} {data : List UInt8}

lemma validate_deinterleave (hbytes : 1 ≤ bytes) (hstride : 2 ≤ stride)
    (hgroup : bytes * stride ≤ usizeMax) (hoffset : offset < stride) :
    validate (.deinterleave offset stride bytes) = .ok () := by
  rw [validate, refuse, if_neg (by omega), refuse, if_neg (by omega), refuse, if_neg (by omega),
    refuse, if_neg (by omega)]
  rfl

/-- Deinterleaving keeps a lane. -/
lemma deinterleave_eq (hdvd : bytes * stride ∣ data.length) :
    deinterleave data offset stride bytes = .ok (lane data stride bytes offset) := by
  rw [deinterleave, if_neg (by simpa using Nat.mod_eq_zero_of_dvd hdvd)]
  rfl

lemma apply_deinterleave (hbytes : 1 ≤ bytes) (hstride : 2 ≤ stride)
    (hgroup : bytes * stride ≤ usizeMax) (hoffset : offset < stride)
    (hdvd : bytes * stride ∣ data.length) (sizeHandling : SizeHandling) (blankByte : UInt8) :
    apply (.deinterleave offset stride bytes) data sizeHandling blankByte =
      .ok ⟨lane data stride bytes offset, false⟩ := by
  rw [apply, validate_deinterleave hbytes hstride hgroup hoffset]
  simp only [deinterleave_eq hdvd]
  rfl

end Lane

/-! ### Byte pairs -/

lemma swapPairs_append {xs : List UInt8} (h : 2 ∣ xs.length) (ys : List UInt8) :
    swapPairs (xs ++ ys) = swapPairs xs ++ swapPairs ys := by
  induction xs using swapPairs.induct with
  | case1 a b rest ih =>
    rw [List.length_cons, List.length_cons] at h
    rw [List.cons_append, List.cons_append, swapPairs, swapPairs, ih (by omega)]
    rfl
  | case2 xs hshort =>
    match xs, hshort with
    | [], _ => rfl
    | [_], _ => simp at h
    | a :: b :: rest, hshort => exact absurd rfl (hshort a b rest)

lemma length_swapPairs {xs : List UInt8} (h : 2 ∣ xs.length) :
    (swapPairs xs).length = xs.length := by
  induction xs using swapPairs.induct with
  | case1 a b rest ih =>
    rw [List.length_cons, List.length_cons] at h
    rw [swapPairs, List.length_cons, List.length_cons, ih (by omega)]
    rfl
  | case2 xs hshort =>
    match xs, hshort with
    | [], _ => rfl
    | [_], _ => simp at h
    | a :: b :: rest, hshort => exact absurd rfl (hshort a b rest)

/-- Pairs that lie behind an even offset are swapped in their places. -/
lemma swapPairs_drop (xs : List UInt8) {n : ℕ} (h : 2 ∣ n) :
    swapPairs (xs.drop n) = (swapPairs xs).drop n := by
  obtain ⟨k, rfl⟩ := h
  induction k generalizing xs with
  | zero => rfl
  | succ k ih =>
    match xs with
    | [] => simp [swapPairs]
    | [_] => simp [swapPairs, Nat.mul_succ]
    | a :: b :: rest => exact ih rest

lemma swapPairs_take (xs : List UInt8) {n : ℕ} (h : 2 ∣ n) :
    swapPairs (xs.take n) = (swapPairs xs).take n := by
  obtain ⟨k, rfl⟩ := h
  induction k generalizing xs with
  | zero => rfl
  | succ k ih =>
    match xs with
    | [] => simp [swapPairs]
    | [_] => simp [swapPairs, Nat.mul_succ]
    | a :: b :: rest => exact congrArg (fun xs => b :: a :: xs) (ih rest)

/-- Pieces of whole pairs are swapped in their places. -/
lemma swapPairs_pieces {data : List UInt8} {start step width n : ℕ} (hstart : 2 ∣ start)
    (hstep : 2 ∣ step) (hwidth : 2 ∣ width)
    (hfits : ∀ i < n, start + i * step + width ≤ data.length) :
    swapPairs (pieces data start step width n) = pieces (swapPairs data) start step width n := by
  induction n with
  | zero => rfl
  | succ n ih =>
    have hbelow : ∀ i < n, start + i * step + width ≤ data.length := fun i hi => hfits i (by omega)
    have heven : 2 ∣ (pieces data start step width n).length := by
      rw [length_pieces hbelow]
      exact hwidth.mul_left n
    have hsucc (xs : List UInt8) : pieces xs start step width (n + 1) =
        pieces xs start step width n ++ (xs.drop (start + n * step)).take width := by
      rw [pieces, List.range_succ, List.flatMap_append, List.flatMap_singleton, pieces]
    rw [hsucc, hsucc, swapPairs_append heven, ih hbelow, swapPairs_take _ hwidth,
      swapPairs_drop _ (dvd_add hstart (hstep.mul_left n))]

/-- A lane of whole pairs is swapped as the image is. -/
lemma swapPairs_lane {data : List UInt8} {stride bytes offset : ℕ} (hbytes : 2 ∣ bytes)
    (hoffset : offset < stride) (hdata : 2 ∣ data.length) :
    swapPairs (lane data stride bytes offset) = lane (swapPairs data) stride bytes offset := by
  rw [lane, lane, length_swapPairs hdata]
  exact swapPairs_pieces (hbytes.mul_left offset) (hbytes.mul_right stride) hbytes
    fun i hi => lane_fits hoffset hi

/-! ### Transforms -/

lemma applyTransforms_pair (data : List UInt8) (t u : Transform) (sizeHandling : SizeHandling)
    (blankByte : UInt8) :
    applyTransforms data [t, u] sizeHandling blankByte = do
      let first ← apply t data sizeHandling blankByte
      let second ← apply u first.data sizeHandling blankByte
      return ⟨second.data, first.usedSizeHandling || second.usedSizeHandling⟩ := by
  simp [applyTransforms]

lemma apply_swapBytes {data : List UInt8} (h : 2 ∣ data.length) (sizeHandling : SizeHandling)
    (blankByte : UInt8) :
    apply .swapBytes data sizeHandling blankByte = .ok ⟨swapPairs data, false⟩ := by
  change swapBytes data sizeHandling blankByte = _
  rw [swapBytes.eq_def, if_pos (Nat.mod_eq_zero_of_dvd h)]

/-- The lanes of an image interleave to the image, and lanes that are interleaved are its lanes;
where a lane is of whole 16-bit words, swapping their bytes may come before or after. -/
theorem deinterleave_inverse {stride bytes : ℕ} (hbytes : 1 ≤ bytes) (hstride : 2 ≤ stride)
    (hgroup : bytes * stride ≤ usizeMax) (data : List UInt8) (hdvd : bytes * stride ∣ data.length)
    (sizeHandling : SizeHandling) (blankByte : UInt8) :
    (∃ lanes : List (List UInt8), lanes.length = stride ∧
      (∀ offset < stride, apply (.deinterleave offset stride bytes) data sizeHandling blankByte =
          .ok ⟨lanes.getD offset [], false⟩ ∧
        (lanes.getD offset []).length = data.length / stride) ∧
      interleave bytes lanes = data) ∧
    (∀ (n : ℕ) (lanes : List (List UInt8)), lanes.length = stride →
      (∀ l ∈ lanes, l.length = n * bytes) → ∀ offset < stride,
        apply (.deinterleave offset stride bytes) (interleave bytes lanes) sizeHandling blankByte =
          .ok ⟨lanes.getD offset [], false⟩) ∧
    (Even bytes → ∀ offset,
      applyTransforms data [.deinterleave offset stride bytes, .swapBytes] sizeHandling blankByte =
        applyTransforms data [.swapBytes, .deinterleave offset stride bytes] sizeHandling
          blankByte) := by
  refine ⟨⟨(List.range stride).map (lane data stride bytes), by simp, fun offset hoffset => ?_,
    interleave_lanes hbytes (by omega) hdvd⟩, fun n lanes hlen hlanes offset hoffset => ?_,
    fun heven offset => ?_⟩
  · have hlane : ((List.range stride).map (lane data stride bytes)).getD offset [] =
        lane data stride bytes offset := by
      rw [List.getD_eq_getElem _ _ (by simpa using hoffset), List.getElem_map, List.getElem_range]
    rw [hlane]
    exact ⟨apply_deinterleave hbytes hstride hgroup hoffset hdvd _ _,
      length_lane hbytes hoffset hdvd⟩
  · subst hlen
    obtain ⟨hlength, hlane⟩ := lane_interleave hbytes hlanes hoffset
    rw [apply_deinterleave hbytes hstride hgroup hoffset ⟨n, by rw [hlength, Nat.mul_comm]⟩, hlane]
  · have hpairs : 2 ∣ bytes := heven.two_dvd
    have hdata : 2 ∣ data.length := (hpairs.mul_right stride).trans hdvd
    rw [applyTransforms_pair, applyTransforms_pair, apply_swapBytes hdata]
    by_cases hoffset : offset < stride
    · have hlane : 2 ∣ (lane data stride bytes offset).length := by
        rw [lane, length_pieces fun i hi => lane_fits hoffset hi]
        exact hpairs.mul_left _
      rw [apply_deinterleave hbytes hstride hgroup hoffset hdvd]
      change (apply .swapBytes (lane data stride bytes offset) _ _ >>= _) =
        (apply _ (swapPairs data) _ _ >>= _)
      rw [apply_swapBytes hlane, apply_deinterleave hbytes hstride hgroup hoffset
        (by rwa [length_swapPairs hdata]), swapPairs_lane hpairs hoffset hdata]
    · -- a lane that is not there is refused first or last
      have hrefused (xs : List UInt8) :
          apply (.deinterleave offset stride bytes) xs sizeHandling blankByte =
            .error (.invalidOffset offset stride) := by
        rw [apply, validate, refuse, if_neg (by omega), refuse, if_neg (by omega), refuse,
          if_pos (by omega)]
        rfl
      rw [hrefused]
      change _ = (apply _ (swapPairs data) _ _ >>= _)
      rw [hrefused]
      rfl

theorem deinterleave_inverse_words :
    interleave 2 [[0, 1, 4, 5], [2, 3, 6, 7]] = [0, 1, 2, 3, 4, 5, 6, 7] ∧
      applyTransforms [0, 1, 2, 3, 4, 5, 6, 7] [.deinterleave 1 2 2, .swapBytes] .none 0 =
        applyTransforms [0, 1, 2, 3, 4, 5, 6, 7] [.swapBytes, .deinterleave 1 2 2] .none 0 := by
  obtain ⟨-, -, hswap⟩ := deinterleave_inverse (show 1 ≤ 2 by decide) (show 2 ≤ 2 by decide)
    (by decide) [0, 1, 2, 3, 4, 5, 6, 7] (by decide) .none 0
  exact ⟨by decide, hswap even_two 1⟩

end OneRom.Deinterleave
