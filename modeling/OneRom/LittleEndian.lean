import Mathlib

/-!
Words of 16 and of 32 bits as bytes, low byte first.

`bytes` and `words` are inverse to each other on whole words; `padded` is the shortest whole
number of words that holds a byte string, the spare byte 0.
-/

namespace OneRom.LittleEndian

/-- The two bytes of a word, low byte first. -/
def toBytes (w : UInt16) : List UInt8 := [UInt8.ofNat (w.toNat % 256), UInt8.ofNat (w.toNat / 256)]

def ofBytes (lo hi : UInt8) : UInt16 := UInt16.ofNat (lo.toNat + 256 * hi.toNat)

/-- The bytes of a list of words. -/
def bytes (ws : List UInt16) : List UInt8 := ws.flatMap toBytes

/-- The words of a byte string; an odd byte at its end is dropped. -/
def words : List UInt8 → List UInt16
  | lo :: hi :: bs => ofBytes lo hi :: words bs
  | _ => []

/-- A byte string filled up to a whole word. -/
def padded (bs : List UInt8) : List UInt8 := bs ++ List.replicate (bs.length % 2) 0

@[simp] lemma bytes_nil : bytes [] = [] := rfl
@[simp] lemma bytes_cons (w : UInt16) (ws : List UInt16) :
    bytes (w :: ws) = toBytes w ++ bytes ws := rfl
lemma bytes_append (us ws : List UInt16) : bytes (us ++ ws) = bytes us ++ bytes ws := by
  simp [bytes]

@[simp] lemma length_toBytes (w : UInt16) : (toBytes w).length = 2 := rfl

@[simp] lemma length_bytes (ws : List UInt16) : (bytes ws).length = 2 * ws.length := by
  induction ws with
  | nil => rfl
  | cons w ws ih => simp [ih]; omega

lemma ofBytes_toBytes (w : UInt16) :
    ofBytes (UInt8.ofNat (w.toNat % 256)) (UInt8.ofNat (w.toNat / 256)) = w := by
  have hw := w.toNat_lt
  have hd : w.toNat / 256 < 256 := by omega
  apply UInt16.toNat_inj.mp
  simp only [ofBytes, UInt16.toNat_ofNat', UInt8.toNat_ofNat']
  omega

lemma toBytes_ofBytes (lo hi : UInt8) : toBytes (ofBytes lo hi) = [lo, hi] := by
  have hl := lo.toNat_lt
  have hh := hi.toNat_lt
  have h2 : (lo.toNat + 256 * hi.toNat) % 65536 % 256 = lo.toNat := by omega
  have h3 : (lo.toNat + 256 * hi.toNat) % 65536 / 256 = hi.toNat := by omega
  simp only [toBytes, ofBytes, UInt16.toNat_ofNat', Nat.reducePow, h2, h3, UInt8.ofNat_toNat]

/-- **Decoding**: the words of the bytes of a list of words are that list. -/
@[simp] theorem words_bytes (ws : List UInt16) : words (bytes ws) = ws := by
  induction ws with
  | nil => rfl
  | cons w ws ih => simp [toBytes, words, ofBytes_toBytes, ih]

/-- **Encoding**: a whole number of words is the bytes of its words. -/
theorem bytes_words {bs : List UInt8} (h : bs.length % 2 = 0) : bytes (words bs) = bs := by
  induction bs using words.induct with
  | case1 lo hi bs ih =>
    have h' : bs.length % 2 = 0 := by simp only [List.length_cons] at h; omega
    simp [words, toBytes_ofBytes, ih h']
  | case2 bs hbs =>
    rcases bs with _ | ⟨lo, _ | ⟨hi, bs⟩⟩
    · rfl
    · simp at h
    · exact absurd rfl (hbs lo hi bs)

lemma length_words (bs : List UInt8) : (words bs).length = bs.length / 2 := by
  induction bs using words.induct with
  | case1 lo hi bs ih => simp [words, ih]; omega
  | case2 bs hbs =>
    rcases bs with _ | ⟨lo, _ | ⟨hi, bs⟩⟩
    · rfl
    · simp [words]
    · exact absurd rfl (hbs lo hi bs)

lemma words_append {as : List UInt8} (bs : List UInt8) (h : as.length % 2 = 0) :
    words (as ++ bs) = words as ++ words bs := by
  induction as using words.induct with
  | case1 lo hi as ih =>
    have h' : as.length % 2 = 0 := by simp only [List.length_cons] at h; omega
    simp [words, ih h']
  | case2 as has =>
    rcases as with _ | ⟨lo, _ | ⟨hi, as⟩⟩
    · simp [words]
    · simp at h
    · exact absurd rfl (has lo hi as)

@[simp] lemma words_toBytes_append (w : UInt16) (bs : List UInt8) :
    words (toBytes w ++ bs) = w :: words bs := by
  have h := words_bytes [w]
  simp only [bytes_cons, bytes_nil, List.append_nil] at h
  rw [words_append bs (by simp), h]
  rfl

lemma length_padded (bs : List UInt8) : (padded bs).length = 2 * ((bs.length + 1) / 2) := by
  simp [padded]; omega

lemma take_padded (bs : List UInt8) : (padded bs).take bs.length = bs := by simp [padded]

/-- The four bytes of a word of 32 bits, low byte first. -/
def toBytes32 (w : UInt32) : List UInt8 :=
  [UInt8.ofNat (w.toNat % 256), UInt8.ofNat (w.toNat / 256 % 256),
    UInt8.ofNat (w.toNat / 65536 % 256), UInt8.ofNat (w.toNat / 16777216)]

def ofBytes32 (b₀ b₁ b₂ b₃ : UInt8) : UInt32 :=
  UInt32.ofNat (b₀.toNat + 256 * b₁.toNat + 65536 * b₂.toNat + 16777216 * b₃.toNat)

@[simp] lemma length_toBytes32 (w : UInt32) : (toBytes32 w).length = 4 := rfl

lemma ofBytes32_toBytes32 (w : UInt32) :
    ofBytes32 (UInt8.ofNat (w.toNat % 256)) (UInt8.ofNat (w.toNat / 256 % 256))
      (UInt8.ofNat (w.toNat / 65536 % 256)) (UInt8.ofNat (w.toNat / 16777216)) = w := by
  have hw := w.toNat_lt
  have hd : w.toNat / 16777216 < 256 := by omega
  apply UInt32.toNat_inj.mp
  simp only [ofBytes32, UInt32.toNat_ofNat', UInt8.toNat_ofNat']
  omega

end OneRom.LittleEndian
