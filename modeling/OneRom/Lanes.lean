import Mathlib.Data.List.Basic
import Mathlib.Data.List.GetD
import Mathlib.Data.List.Range
import Mathlib.Tactic.Ring

/-!
Lists that are cut into lanes, and lanes that are put back together.

A list is a sequence of groups, each with one piece of every lane. A lane is its pieces, one after
another; interleaving takes a piece of each lane in turn.
-/

namespace OneRom.Lanes

variable {α : Type}

/-- `n` pieces of a list, each `width` long, the first at `start` and each `step` after the one
before. -/
def pieces (data : List α) (start step width n : ℕ) : List α :=
  (List.range n).flatMap fun i => (data.drop (start + i * step)).take width

/-- `width` elements of each lane in turn, until the first lane runs out. -/
def interleave (width : ℕ) (lanes : List (List α)) : List α :=
  (List.range ((lanes.headD []).length / width)).flatMap fun i =>
    lanes.flatMap fun lane => (lane.drop (i * width)).take width

/-! ### Pieces -/

lemma length_flatMap_of_length {f : ℕ → List α} {width n : ℕ} (h : ∀ i < n, (f i).length = width) :
    ((List.range n).flatMap f).length = n * width := by
  induction n with
  | zero => simp
  | succ n ih =>
    rw [List.range_succ, List.flatMap_append, List.length_append, ih fun i hi => h i (by omega),
      List.flatMap_singleton, h n (by omega), Nat.succ_mul]

/-- One of many pieces of one length. -/
lemma piece_flatMap {f : ℕ → List α} {width n i : ℕ} (h : ∀ i < n, (f i).length = width)
    (hi : i < n) : (((List.range n).flatMap f).drop (i * width)).take width = f i := by
  induction n with
  | zero => omega
  | succ n ih =>
    have hbelow : ∀ i < n, (f i).length = width := fun i hi => h i (by omega)
    rw [List.range_succ, List.flatMap_append, List.flatMap_singleton]
    rcases Nat.lt_succ_iff_lt_or_eq.mp hi with hi | rfl
    · have hfits : i * width + width ≤ n * width := by
        rw [← Nat.succ_mul]
        exact Nat.mul_le_mul_right _ hi
      rw [List.drop_append_of_le_length (by rw [length_flatMap_of_length hbelow]; omega),
        List.take_append_of_le_length
          (by rw [List.length_drop, length_flatMap_of_length hbelow]; omega), ih hbelow hi]
    · rw [List.drop_left' (length_flatMap_of_length hbelow), ← h i (by omega), List.take_length]

/-- Pieces without gaps are the stretch they cover. -/
lemma pieces_adjacent (data : List α) (start width n : ℕ) :
    pieces data start width width n = (data.drop start).take (n * width) := by
  induction n with
  | zero => simp [pieces]
  | succ n ih =>
    rw [pieces, List.range_succ, List.flatMap_append, List.flatMap_singleton, ← pieces, ih,
      ← List.drop_drop, Nat.succ_mul, List.take_add]

lemma length_pieces {data : List α} {start step width n : ℕ}
    (h : ∀ i < n, start + i * step + width ≤ data.length) :
    (pieces data start step width n).length = n * width := by
  refine length_flatMap_of_length fun i hi => ?_
  have := h i hi
  rw [List.length_take, List.length_drop]
  omega

/-! ### Lanes -/

/-- Lane `offset` of the `stride` lanes of a list, each `width` wide. -/
def lane (data : List α) (stride width offset : ℕ) : List α :=
  pieces data (offset * width) (width * stride) width (data.length / (width * stride))

section Lane

variable {data : List α} {stride width offset : ℕ}

/-- A lane's pieces lie within the list. -/
lemma lane_fits (hoffset : offset < stride) {i : ℕ} (hi : i < data.length / (width * stride)) :
    offset * width + i * (width * stride) + width ≤ data.length := by
  have hgroup : offset * width + width ≤ width * stride := by
    rw [← Nat.succ_mul, Nat.mul_comm width]
    exact Nat.mul_le_mul_right _ hoffset
  have hgroups : (i + 1) * (width * stride) ≤ data.length :=
    (Nat.mul_le_mul_right _ hi).trans (Nat.div_mul_le_self _ _)
  rw [Nat.succ_mul] at hgroups
  omega

lemma length_lane (hwidth : 0 < width) (hoffset : offset < stride)
    (hdvd : width * stride ∣ data.length) :
    (lane data stride width offset).length = data.length / stride := by
  obtain ⟨n, hn⟩ := hdvd
  have hstride : 0 < stride := by omega
  rw [lane, length_pieces fun i hi => lane_fits hoffset hi, hn,
    Nat.mul_div_cancel_left _ (Nat.mul_pos hwidth hstride),
    show width * stride * n = stride * (n * width) by ring, Nat.mul_div_cancel_left _ hstride]

/-- A piece of a lane is a piece of the list. -/
lemma piece_lane (hoffset : offset < stride) {i : ℕ} (hi : i < data.length / (width * stride)) :
    ((lane data stride width offset).drop (i * width)).take width =
      (data.drop (offset * width + i * (width * stride))).take width := by
  refine piece_flatMap (fun j hj => ?_) hi
  have hfits : offset * width + j * (width * stride) + width ≤ data.length := lane_fits hoffset hj
  rw [List.length_take, List.length_drop]
  omega

/-- Interleaving the lanes of a list gives back the list. -/
lemma interleave_lanes (hwidth : 0 < width) (hstride : 0 < stride)
    (hdvd : width * stride ∣ data.length) :
    interleave width ((List.range stride).map (lane data stride width)) = data := by
  have hrounds : ((((List.range stride).map (lane data stride width)).headD []).length) / width =
      data.length / (width * stride) := by
    obtain ⟨n, rfl⟩ := Nat.exists_eq_add_of_lt hstride
    rw [Nat.zero_add, List.range_succ_eq_map, List.map_cons, List.headD_cons,
      length_lane hwidth (by omega) (by simpa using hdvd), Nat.div_div_eq_div_mul, Nat.mul_comm width]
  -- each round takes a group, piece by piece
  have hround : ∀ i < data.length / (width * stride),
      ((List.range stride).map (lane data stride width)).flatMap
          (fun lane => (lane.drop (i * width)).take width) =
        (data.drop (i * (width * stride))).take (width * stride) := by
    intro i hi
    calc _ = (List.range stride).flatMap fun offset =>
            (data.drop (i * (width * stride) + offset * width)).take width := by
          rw [List.flatMap_map]
          refine List.flatMap_congr fun offset hoffset => ?_
          rw [piece_lane (List.mem_range.mp hoffset) hi, Nat.add_comm]
      _ = (data.drop (i * (width * stride))).take (stride * width) :=
          pieces_adjacent data _ width stride
      _ = _ := by rw [Nat.mul_comm]
  calc _ = (List.range (data.length / (width * stride))).flatMap fun i =>
          (data.drop (0 + i * (width * stride))).take (width * stride) := by
        rw [interleave, hrounds]
        refine List.flatMap_congr fun i hi => ?_
        rw [hround i (List.mem_range.mp hi), Nat.zero_add]
    _ = (data.drop 0).take (data.length / (width * stride) * (width * stride)) :=
        pieces_adjacent data 0 _ _
    _ = data := by rw [Nat.div_mul_cancel hdvd, List.drop_zero, List.take_length]

end Lane

/-- The lanes of interleaved lanes are those lanes. -/
lemma lane_interleave {width n offset : ℕ} {lanes : List (List α)} (hwidth : 0 < width)
    (hlanes : ∀ l ∈ lanes, l.length = n * width) (hoffset : offset < lanes.length) :
    (interleave width lanes).length = n * (width * lanes.length) ∧
      lane (interleave width lanes) lanes.length width offset = lanes.getD offset [] := by
  have hlane (o : ℕ) (ho : o < lanes.length) : (lanes.getD o []).length = n * width := by
    rw [List.getD_eq_getElem _ _ ho]
    exact hlanes _ (List.getElem_mem ho)
  have hrounds : (lanes.headD []).length / width = n := by
    rw [List.headD_eq_getD, hlane 0 (by omega), Nat.mul_div_cancel _ hwidth]
  have hpiece (i : ℕ) (hi : i < n) (o : ℕ) (ho : o < lanes.length) :
      (((lanes.getD o []).drop (i * width)).take width).length = width := by
    have hfits : (i + 1) * width ≤ n * width := Nat.mul_le_mul_right _ hi
    rw [Nat.succ_mul] at hfits
    rw [List.length_take, List.length_drop, hlane o ho]
    omega
  have hlist : (List.range lanes.length).map (fun o => lanes.getD o []) = lanes := by
    refine List.ext_getElem (by simp) fun o ho _ => ?_
    rw [List.length_map, List.length_range] at ho
    rw [List.getElem_map, List.getElem_range, List.getD_eq_getElem _ _ ho]
  have hgroup (i : ℕ) : (lanes.flatMap fun l => (l.drop (i * width)).take width) =
      (List.range lanes.length).flatMap fun o =>
        ((lanes.getD o []).drop (i * width)).take width := by
    conv_lhs => rw [← hlist, List.flatMap_map]
  have hlength (i : ℕ) (hi : i < n) :
      (lanes.flatMap fun l => (l.drop (i * width)).take width).length = width * lanes.length := by
    rw [hgroup, length_flatMap_of_length (hpiece i hi), Nat.mul_comm]
  have htotal : (interleave width lanes).length = n * (width * lanes.length) := by
    rw [interleave, hrounds, length_flatMap_of_length hlength]
  have hwithin : offset * width + width ≤ width * lanes.length := by
    rw [← Nat.succ_mul, Nat.mul_comm width]
    exact Nat.mul_le_mul_right _ hoffset
  refine ⟨htotal, ?_⟩
  calc lane (interleave width lanes) lanes.length width offset
      = (List.range n).flatMap fun i =>
          ((lanes.getD offset []).drop (0 + i * width)).take width := by
        rw [lane, pieces, htotal,
          Nat.mul_div_cancel _ (Nat.mul_pos hwidth (Nat.zero_lt_of_lt hoffset))]
        refine List.flatMap_congr fun i hi => ?_
        have hi := List.mem_range.mp hi
        have hround := piece_flatMap hlength hi
        rw [hgroup] at hround
        rw [Nat.zero_add, ← piece_flatMap (hpiece i hi) hoffset, ← hround, List.drop_take,
          List.take_take, Nat.min_eq_left (by omega), List.drop_drop, interleave, hrounds,
          Nat.add_comm]
    _ = ((lanes.getD offset []).drop 0).take (n * width) := pieces_adjacent _ 0 width n
    _ = lanes.getD offset [] := by
        rw [List.drop_zero, ← hlane offset hoffset, List.take_length]

end OneRom.Lanes
