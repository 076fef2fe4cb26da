import Mathlib

/-!
Blocks copied into a buffer, one after the other.

Where the blocks lie within the buffer and apart from one another, each is found where it was
copied and every other place keeps what the buffer held.
-/

namespace OneRom.Overlay

variable {α : Type*}

/-- The buffer with `data` copied in at `start`. -/
def splice (buf : List α) (start : ℕ) (data : List α) : List α :=
  buf.take start ++ data ++ buf.drop (start + data.length)

/-- Data and the place it is copied to. -/
structure Block (α : Type*) where
  start : ℕ
  data : List α

def Block.stop (b : Block α) : ℕ := b.start + b.data.length

/-- One of the blocks ends before the other starts. -/
def Apart (a b : Block α) : Prop := a.stop ≤ b.start ∨ b.stop ≤ a.start

/-- The place `p` lies outside the block. -/
def Outside (p : ℕ) (b : Block α) : Prop := p < b.start ∨ b.stop ≤ p

def overlay (buf : List α) (blocks : List (Block α)) : List α :=
  blocks.foldl (fun buf b => splice buf b.start b.data) buf

@[simp] lemma overlay_nil (buf : List α) : overlay buf [] = buf := rfl
@[simp] lemma overlay_cons (buf : List α) (b : Block α) (blocks : List (Block α)) :
    overlay buf (b :: blocks) = overlay (splice buf b.start b.data) blocks := rfl

variable {buf : List α} {b : Block α} {blocks : List (Block α)}

lemma length_splice (h : b.stop ≤ buf.length) :
    (splice buf b.start b.data).length = buf.length := by
  simp only [Block.stop] at h
  simp [splice]; omega

lemma getElem?_splice_of_outside (h : b.stop ≤ buf.length) {p : ℕ} (hp : Outside p b) :
    (splice buf b.start b.data)[p]? = buf[p]? := by
  simp only [Block.stop, Outside] at h hp
  unfold splice
  rcases hp with hp | hp
  · rw [List.append_assoc, List.getElem?_append_left (by simp; omega),
      List.getElem?_take_of_lt hp]
  · rw [List.getElem?_append_right (by simp; omega), List.getElem?_drop]
    congr 1
    simp; omega

lemma getElem?_splice_of_lt (h : b.stop ≤ buf.length) {i : ℕ} (hi : i < b.data.length) :
    (splice buf b.start b.data)[b.start + i]? = b.data[i]? := by
  simp only [Block.stop] at h
  unfold splice
  rw [List.append_assoc, List.getElem?_append_right (by simp),
    List.getElem?_append_left (by simp; omega)]
  congr 1
  simp; omega

lemma length_overlay (h : ∀ b ∈ blocks, b.stop ≤ buf.length) :
    (overlay buf blocks).length = buf.length := by
  induction blocks generalizing buf with
  | nil => rfl
  | cons b blocks ih =>
    have hb := length_splice (h b (by simp))
    rw [overlay_cons, ih fun b' hb' => by rw [hb]; exact h b' (by simp [hb']), hb]

/-- Frame: a place outside all blocks keeps what the buffer held. -/
theorem getElem?_overlay_of_outside (h : ∀ b ∈ blocks, b.stop ≤ buf.length) {p : ℕ}
    (hp : ∀ b ∈ blocks, Outside p b) : (overlay buf blocks)[p]? = buf[p]? := by
  induction blocks generalizing buf with
  | nil => rfl
  | cons b blocks ih =>
    have hb := length_splice (h b (by simp))
    rw [overlay_cons, ih (fun b' hb' => by rw [hb]; exact h b' (by simp [hb']))
      fun b' hb' => hp b' (by simp [hb'])]
    exact getElem?_splice_of_outside (h b (by simp)) (hp b (by simp))

/-- Each of some blocks apart from one another is found where it was copied. -/
theorem getElem?_overlay_of_mem (h : ∀ b ∈ blocks, b.stop ≤ buf.length)
    (hapart : blocks.Pairwise Apart) (hb : b ∈ blocks) {i : ℕ} (hi : i < b.data.length) :
    (overlay buf blocks)[b.start + i]? = b.data[i]? := by
  induction blocks generalizing buf with
  | nil => cases hb
  | cons a blocks ih =>
    obtain ⟨ha, hrest⟩ := List.pairwise_cons.mp hapart
    have hlen := length_splice (h a (by simp))
    have hfit : ∀ b ∈ blocks, b.stop ≤ (splice buf a.start a.data).length := fun b' hb' => by
      rw [hlen]; exact h b' (by simp [hb'])
    rw [overlay_cons]
    rcases List.mem_cons.mp hb with rfl | hb
    · rw [getElem?_overlay_of_outside hfit fun b' hb' => ?_]
      · exact getElem?_splice_of_lt (h b (by simp)) hi
      · have := ha b' hb'
        simp only [Apart, Block.stop, Outside] at this ⊢
        omega
    · exact ih hfit hrest hb

end OneRom.Overlay
