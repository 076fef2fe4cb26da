import OneRom.Editor

/-!
What the editor's loops make of its buffer: the line with a byte more, a byte less, or another
line in its place.
-/

namespace OneRom.EditBuf

open OneRom.Editor OneRom.OtpEntry OneRom.SlotArg

/-! ### Loops -/

@[simp] lemma length_toList_buf (buf : Buf) : buf.toList.length = LINE_BUF := by simp

lemma getElem?_set {l : List UInt8} {i : ℕ} (b : UInt8) (hi : i < l.length) (k : ℕ) :
    (l.set i b)[k]? = if k = i then some b else l[k]? := by
  rw [List.getElem?_set]
  by_cases hk : i = k
  · rw [if_pos hk, if_pos hi, if_pos hk.symm]
  · rw [if_neg hk, if_neg (Ne.symm hk)]

lemma some_getD {l : List UInt8} {i : ℕ} (hi : i < l.length) : some (l.getD i 0) = l[i]? := by
  rw [List.getD_eq_getElem _ _ hi, List.getElem?_eq_getElem hi]

/-- Bytes behind the cursor move one place up. -/
lemma getElem?_shiftUp (buf : Buf) (pos : ℕ) {i : ℕ} (hi : i < LINE_BUF) (k : ℕ) :
    (shiftUp buf pos i).toList[k]? =
      if pos < k ∧ k ≤ i then buf.toList[k - 1]? else buf.toList[k]? := by
  induction i generalizing buf with
  | zero => rw [shiftUp, if_neg (by omega)]
  | succ i ih =>
    rw [shiftUp]
    split
    · next hpos =>
      rw [ih _ (by omega), Vector.toList_setIfInBounds, getElem?_set _ (by simpa using hi),
        getElem?_set _ (by simpa using hi), some_getD (by simp; omega)]
      by_cases hk : k = i + 1
      · subst hk
        rw [if_neg (by omega), if_pos rfl, if_pos ⟨hpos, Nat.le_refl _⟩, Nat.add_sub_cancel]
      · by_cases hin : pos < k ∧ k ≤ i
        · rw [if_pos hin, if_neg (by omega), if_pos (by omega)]
        · rw [if_neg hin, if_neg hk, if_neg (by omega)]
    · rw [if_neg (by omega)]

/-- Bytes from `start` on move one place down. -/
lemma getElem?_shiftDown (buf : Buf) {start stop : ℕ} (hstart : 1 ≤ start) (hle : start ≤ stop)
    (hstop : stop ≤ LINE_BUF) (k : ℕ) :
    (shiftDown buf start stop).toList[k]? =
      if start ≤ k + 1 ∧ k + 1 < stop then buf.toList[k + 1]? else buf.toList[k]? := by
  obtain ⟨n, rfl⟩ := Nat.exists_eq_add_of_le hle
  rw [shiftDown, Nat.add_sub_cancel_left]
  clear hle
  induction n generalizing k with
  | zero => rw [if_neg (by omega)]; rfl
  | succ n ih =>
    rw [List.range'_1_concat, List.foldl_append, List.foldl_cons, List.foldl_nil,
      Vector.toList_setIfInBounds, getElem?_set _ (by simp; omega), some_getD (by simp; omega),
      ih _ (by omega), ih _ (by omega),
      if_neg (show ¬ (start ≤ start + n + 1 ∧ start + n + 1 < start + n) by omega)]
    by_cases hk : k = start + n - 1
    · rw [if_pos hk, if_pos (by omega)]
      congr 1
      omega
    · rw [if_neg hk]
      exact if_congr (by omega) rfl rfl

/-- Bytes over the start of a buffer. -/
lemma getElem?_copyInto (buf : Buf) {bytes : List UInt8} (h : bytes.length ≤ LINE_BUF) (k : ℕ) :
    (LineEditor.copyInto buf bytes).toList[k]? =
      if k < bytes.length then bytes[k]? else buf.toList[k]? := by
  rw [LineEditor.copyInto]
  induction bytes using List.reverseRecOn generalizing k with
  | nil => rfl
  | append_singleton bytes b ih =>
    rw [List.length_append, List.length_singleton] at h
    rw [List.zipIdx_append, List.foldl_append, List.zipIdx_singleton, List.foldl_cons,
      List.foldl_nil, Vector.toList_setIfInBounds, Nat.zero_add, getElem?_set _ (by simp; omega),
      ih (by omega), List.length_append, List.length_singleton]
    rcases Nat.lt_trichotomy k bytes.length with hk | rfl | hk
    · rw [if_neg (by omega), if_pos hk, if_pos (by omega), List.getElem?_append_left hk]
    · rw [if_pos rfl, if_pos (by omega), List.getElem?_append_right (Nat.le_refl _), Nat.sub_self]
      rfl
    · rw [if_neg (by omega), if_neg (by omega), if_neg (by omega)]

/-! ### The line -/

section Line

variable {e : LineEditor}

lemma getElem?_content (e : LineEditor) (k : ℕ) :
    e.content[k]? = if k < e.len then e.buf.toList[k]? else none := by
  rw [LineEditor.content, List.getElem?_take]

lemma length_content (h : e.len ≤ LINE_BUF) : e.content.length = e.len := by
  rw [LineEditor.content, List.length_take, length_toList_buf, Nat.min_eq_left h]

lemma content_insert (hpos : e.pos ≤ e.len) (hlen : e.len < LINE_BUF) (b : UInt8) :
    (e.insert b).1.content = e.content.insertIdx e.pos b := by
  ext1 k
  rw [LineEditor.insert, if_neg (by omega), getElem?_content, List.getElem?_insertIdx,
    length_content (by omega), getElem?_content, getElem?_content, Vector.toList_setIfInBounds,
    getElem?_set _ (by simp; omega), getElem?_shiftUp _ _ hlen]
  rcases Nat.lt_trichotomy k e.pos with hk | rfl | hk
  · rw [if_pos (by dsimp only; omega), if_neg (by omega), if_neg (by omega), if_pos hk,
      if_pos (by omega)]
  · rw [if_pos (by dsimp only; omega), if_pos rfl, if_neg (by omega), if_pos rfl, if_pos hpos]
  · rw [if_neg (by omega : ¬ k = e.pos), if_neg (by omega : ¬ k < e.pos),
      if_neg (by omega : ¬ k = e.pos)]
    by_cases hin : k - 1 < e.len
    · rw [if_pos (by dsimp only; omega), if_pos (by omega), if_pos hin]
    · rw [if_neg (by dsimp only; omega), if_neg hin]

lemma content_deleteBefore (hpos : 0 < e.pos) (hle : e.pos ≤ e.len) (hlen : e.len ≤ LINE_BUF) :
    e.deleteBefore.1.content = e.content.eraseIdx (e.pos - 1) := by
  ext1 k
  rw [LineEditor.deleteBefore, if_neg (by omega), getElem?_content, List.getElem?_eraseIdx,
    getElem?_content, getElem?_content, getElem?_shiftDown _ hpos hle hlen]
  dsimp only
  by_cases hk : k < e.pos - 1
  · rw [if_pos (by omega), if_neg (by omega), if_pos hk, if_pos (by omega)]
  · rw [if_neg hk]
    by_cases hin : k + 1 < e.len
    · rw [if_pos (by omega), if_pos (by omega), if_pos hin]
    · rw [if_neg (by omega), if_neg hin]

lemma content_deleteAt (hlt : e.pos < e.len) (hlen : e.len ≤ LINE_BUF) :
    e.deleteAt.1.content = e.content.eraseIdx e.pos := by
  ext1 k
  rw [LineEditor.deleteAt, if_neg (by omega), getElem?_content, List.getElem?_eraseIdx,
    getElem?_content, getElem?_content, getElem?_shiftDown _ (by omega) hlt hlen]
  dsimp only
  by_cases hk : k < e.pos
  · rw [if_pos (by omega), if_neg (by omega), if_pos hk, if_pos (by omega)]
  · rw [if_neg hk]
    by_cases hin : k + 1 < e.len
    · rw [if_pos (by omega), if_pos (by omega), if_pos hin]
    · rw [if_neg (by omega), if_neg hin]

lemma content_copyInto (buf : Buf) {bytes : List UInt8} (h : bytes.length ≤ LINE_BUF) :
    (LineEditor.copyInto buf bytes).toList.take bytes.length = bytes := by
  ext1 k
  rw [List.getElem?_take, getElem?_copyInto buf h]
  split
  · rfl
  · next hk => rw [List.getElem?_eq_none (by omega)]

end Line

end OneRom.EditBuf
