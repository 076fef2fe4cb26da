import OneRom.Fallible
import OneRom.LittleEndian

/-!
Programs that read a byte buffer, or fill one, from a running position. Such a program refuses, or
panics on an index past the buffer's end.

`Reads r bs a` says that `r` reads `a` off exactly the bytes `bs`, wherever they stand and whatever
follows them, and refuses where they are cut short. `Writes w bs` says that `w` puts exactly `bs` in
the room it is given. Both compose: reading a field and then another reads the two one after the
other.
-/

namespace OneRom.Cursor

open OneRom.Fallible OneRom.LittleEndian

variable {ε α β : Type}

/-- How a program over a buffer stops short. -/
inductive Failure (ε : Type)
  | refused (e : ε)
  | panicked
  deriving DecidableEq, Repr

/-- A buffer and the position reached in it. -/
@[ext]
structure Cursor where
  buf : List UInt8
  pos : ℕ
  deriving DecidableEq, Repr

/-- A program over a buffer. -/
abbrev Step (ε α : Type) : Type := Prog Cursor (Failure ε) α

/-- Refuses with `e` unless `n` more bytes are there. -/
def need (e : ε) (n : ℕ) : Step ε PUnit := fun c =>
  if c.buf.length < c.pos + n then (.error (.refused e), c) else (.ok ⟨⟩, c)

/-- The next `n` bytes, `buf[pos..pos + n]`. -/
def slice (n : ℕ) : Step ε (List UInt8) := fun c =>
  if c.pos + n ≤ c.buf.length then (.ok ((c.buf.drop c.pos).take n), ⟨c.buf, c.pos + n⟩)
  else (.error .panicked, c)

/-- The bytes up to the next zero byte, which is passed over; `e` where there is none. -/
def terminated (e : ε) : Step ε (List UInt8) := fun c =>
  if c.pos ≤ c.buf.length then
    match (c.buf.drop c.pos).findIdx? (· == 0) with
    | some k => (.ok ((c.buf.drop c.pos).take k), ⟨c.buf, c.pos + (k + 1)⟩)
    | none => (.error (.refused e), c)
  else (.error .panicked, c)

/-- The next four bytes as a word, low byte first. -/
def word : Step ε UInt32 := slice 4 >>= fun
  | [b₀, b₁, b₂, b₃] => pure (ofBytes32 b₀ b₁ b₂ b₃)
  | _ => Prog.throw .panicked

/-- Copies `bs` over the next bytes of the buffer. -/
def put (bs : List UInt8) : Step ε PUnit := fun c =>
  if c.pos + bs.length ≤ c.buf.length then
    (.ok ⟨⟩, ⟨c.buf.take c.pos ++ bs ++ c.buf.drop (c.pos + bs.length), c.pos + bs.length⟩)
  else (.error .panicked, c)

/-- Reads a buffer from its start. -/
def decode (r : Step ε α) (buf : List UInt8) : Except (Failure ε) α := (r ⟨buf, 0⟩).1

/-- Fills a zeroed buffer of `size` bytes. -/
def encode (size : ℕ) (w : Step ε PUnit) : Except (Failure ε) (List UInt8) :=
  match w ⟨List.replicate size 0, 0⟩ with
  | (.ok _, c) => .ok c.buf
  | (.error f, _) => .error f

/-! ### Reading -/

/-- `r` reads `a` off the bytes `bs`, and refuses bytes that stop short of them. -/
structure Reads (r : Step ε α) (bs : List UInt8) (a : α) : Prop where
  whole : ∀ pre post, r ⟨pre ++ bs ++ post, pre.length⟩ =
    (.ok a, ⟨pre ++ bs ++ post, pre.length + bs.length⟩)
  short : ∀ pre cut, cut <+: bs → cut ≠ bs →
    ∃ e c, r ⟨pre ++ cut, pre.length⟩ = (.error (.refused e), c)

namespace Reads

lemma pure (a : α) : Reads (Pure.pure a : Step ε α) [] a where
  whole pre post := by simp
  short _ _ hcut hne := absurd (List.prefix_nil.mp hcut) hne

/-- **Composition**: two fields one after the other. -/
theorem bind {r : Step ε α} {f : α → Step ε β} {as bs : List UInt8} {a : α} {b : β}
    (hr : Reads r as a) (hf : Reads (f a) bs b) : Reads (r >>= f) (as ++ bs) b where
  whole pre post := by
    have h := hr.whole pre (bs ++ post)
    have h' := hf.whole (pre ++ as) post
    simp only [List.append_assoc, List.length_append] at h h' ⊢
    rw [Prog.bind_of_ok h, h', Nat.add_assoc]
  short pre cut hcut hne := by
    by_cases has : as <+: cut
    · obtain ⟨rest, rfl⟩ := has
      have h := hr.whole pre rest
      obtain ⟨e, c, he⟩ := hf.short (pre ++ as) rest ((List.prefix_append_right_inj as).mp hcut)
        (fun heq => hne (by rw [heq]))
      simp only [List.append_assoc, List.length_append] at h he ⊢
      exact ⟨e, c, by rw [Prog.bind_of_ok h, he]⟩
    · have hcutas : cut <+: as :=
        (List.prefix_or_prefix_of_prefix hcut (List.prefix_append as bs)).resolve_right has
      obtain ⟨e, c, he⟩ := hr.short pre cut hcutas (fun heq => has (heq ▸ List.prefix_rfl))
      exact ⟨e, c, by rw [Prog.bind_run, he]⟩

/-- A field that is checked, or made something of, once it is read. -/
lemma bind_pure {r : Step ε α} {f : α → Step ε β} {as : List UInt8} {a : α} {b : β}
    (hr : Reads r as a) (hf : f a = Pure.pure b) : Reads (r >>= f) as b := by
  have h := hr.bind (hf ▸ pure b)
  rwa [List.append_nil] at h

/-- The next bytes, once they are known to be there. -/
lemma need_slice (e : ε) (bs : List UInt8) :
    Reads (need e bs.length >>= fun _ => slice bs.length) bs bs where
  whole pre post := by
    have hneed : ¬(pre ++ bs ++ post).length < pre.length + bs.length := by simp
    have hslice : pre.length + bs.length ≤ (pre ++ bs ++ post).length := by simp
    rw [Prog.bind_run, need, if_neg hneed]
    simp only [slice, if_pos hslice]
    simp
  short pre cut hcut hne := by
    have hlen : cut.length < bs.length :=
      lt_of_le_of_ne hcut.length_le fun heq => hne (hcut.eq_of_length heq)
    have hneed : (pre ++ cut).length < pre.length + bs.length := by simp [hlen]
    exact ⟨e, _, by rw [Prog.bind_run, need, if_pos hneed]⟩

lemma need_word (e : ε) (w : UInt32) : Reads (need e 4 >>= fun _ => word) (toBytes32 w) w := by
  have h := need_slice e (toBytes32 w)
  rw [word, ← Prog.bind_assoc]
  exact h.bind_pure (by simp only [toBytes32, ofBytes32_toBytes32])

/-- A string and the zero byte that ends it. -/
lemma terminated (e : ε) {bs : List UInt8} (h0 : 0 ∉ bs) :
    Reads (Cursor.terminated e) (bs ++ [0]) bs where
  whole pre post := by
    have hfind : (bs ++ 0 :: post).findIdx? (· == 0) = some bs.length := by
      rw [List.findIdx?_append, List.findIdx?_eq_none_iff.mpr]
      · simp [List.findIdx?_cons]
      · intro b hb
        simpa using fun hb0 : b = 0 => h0 (hb0 ▸ hb)
    simp [Cursor.terminated, hfind]
  short pre cut hcut hne := by
    have hcutbs : cut <+: bs := by
      rcases List.prefix_concat_iff.mp hcut with heq | hpre
      · exact absurd heq hne
      · exact hpre
    have hfind : cut.findIdx? (· == 0) = none := by
      rw [List.findIdx?_eq_none_iff]
      intro b hb
      simpa using fun hb0 : b = 0 => h0 (hb0 ▸ hcutbs.subset hb)
    exact ⟨e, _, by simp [Cursor.terminated, hfind]; rfl⟩

/-- What is read off the start of a buffer. -/
lemma decode_append {r : Step ε α} {bs : List UInt8} {a : α} (h : Reads r bs a)
    (rest : List UInt8) : decode r (bs ++ rest) = .ok a := by
  have hwhole := h.whole [] rest
  simp only [List.nil_append, List.length_nil] at hwhole
  rw [decode, hwhole]

lemma decode_cut {r : Step ε α} {bs : List UInt8} {a : α} (h : Reads r bs a) {cut : List UInt8}
    (hcut : cut <+: bs) (hne : cut ≠ bs) : ∃ e, decode r cut = .error (.refused e) := by
  obtain ⟨e, c, he⟩ := h.short [] cut hcut hne
  simp only [List.nil_append, List.length_nil] at he
  exact ⟨e, by rw [decode, he]⟩

end Reads

/-! ### Filling -/

/-- `w` puts exactly `bs` over the start of what room there is. -/
def Writes (w : Step ε PUnit) (bs : List UInt8) : Prop :=
  ∀ done room, bs.length ≤ room.length → w ⟨done ++ room, done.length⟩ =
    (.ok ⟨⟩, ⟨done ++ bs ++ room.drop bs.length, done.length + bs.length⟩)

namespace Writes

lemma put (bs : List UInt8) : Writes (Cursor.put bs : Step ε PUnit) bs := by
  intro done room hroom
  have hlen : done.length + bs.length ≤ (done ++ room).length := by simp [hroom]
  simp [Cursor.put, hroom]

/-- **Composition**: two fields one after the other. -/
theorem bind {v w : Step ε PUnit} {as bs : List UInt8} (hv : Writes v as) (hw : Writes w bs) :
    Writes (v >>= fun _ => w) (as ++ bs) := by
  intro done room hroom
  rw [List.length_append] at hroom
  have h := hv done room (by omega)
  have h' := hw (done ++ as) (room.drop as.length) (by rw [List.length_drop]; omega)
  rw [List.length_append] at h'
  rw [Prog.bind_of_ok h, h', List.drop_drop, List.length_append]
  simp [Nat.add_assoc]

/-- The room a field asks for, where the field takes it. -/
lemma need {w : Step ε PUnit} {bs : List UInt8} (hw : Writes w bs) (e : ε) {n : ℕ}
    (hn : n ≤ bs.length) : Writes (Cursor.need e n >>= fun _ => w) bs := by
  intro done room hroom
  have hneed : ¬(done ++ room).length < done.length + n := by simp; omega
  rw [Prog.bind_run, Cursor.need, if_neg hneed]
  exact hw done room hroom

/-- A buffer made to the length of what is put in it holds exactly that. -/
theorem encode {w : Step ε PUnit} {bs : List UInt8} (hw : Writes w bs) {size : ℕ}
    (hsize : size = bs.length) : encode size w = .ok bs := by
  have h := hw [] (List.replicate size 0) (by simp [hsize])
  simp only [List.nil_append, List.length_nil] at h
  rw [Cursor.encode, h]
  simp [hsize]

end Writes

end OneRom.Cursor
