import Mathlib

/-!
ROM images as Intel HEX and Motorola S-record text, as the image generator writes them. A text is
its bytes, all of them ASCII.

Both formats cut the image into records of at most sixteen bytes. A record has its own hex digits,
a checksum over the bytes it writes, and ends a line.
-/

namespace OneRom.HexFile

abbrev Text := List UInt8

def ascii (c : Char) : UInt8 := c.toNat.toUInt8

def text (s : String) : Text := s.toList.map ascii

def HEX : Vector UInt8 16 :=
  #v[ascii '0', ascii '1', ascii '2', ascii '3', ascii '4', ascii '5', ascii '6', ascii '7',
    ascii '8', ascii '9', ascii 'A', ascii 'B', ascii 'C', ascii 'D', ascii 'E', ascii 'F']

lemma high_lt (b : UInt8) : (b >>> 4).toNat < 16 := by
  have := b.toNat_lt
  simp only [UInt8.toNat_shiftRight, UInt8.reduceToNat, Nat.reduceMod, Nat.shiftRight_eq_div_pow]
  omega

lemma low_lt (b : UInt8) : (b &&& 0xF).toNat < 16 := by
  rw [UInt8.toNat_and]
  exact Nat.and_lt_two_pow (n := 4) _ (by decide)

/-- The two digits of a byte, as both the generator and lab index them. -/
def hexDigits (b : UInt8) : Text :=
  [HEX.get ⟨(b >>> 4).toNat, high_lt b⟩, HEX.get ⟨(b &&& 0xF).toNat, low_lt b⟩]

@[simp] lemma length_hexDigits (b : UInt8) : (hexDigits b).length = 2 := rfl

def pushHex8 (out : Text) (byte : UInt8) : Text := out ++ hexDigits byte

/-- A loop that pushes bytes and adds them to the checksum. -/
def pushBytes (out : Text) (csum : UInt8) (bytes : List UInt8) : Text × UInt8 :=
  bytes.foldl (fun (out, csum) b => (pushHex8 out b, csum + b)) (out, csum)

def CRLF : Text := [ascii '\r', ascii '\n']

lemma pushBytes_eq (out : Text) (csum : UInt8) (bytes : List UInt8) :
    pushBytes out csum bytes = (out ++ bytes.flatMap hexDigits, csum + bytes.sum) := by
  induction bytes generalizing out csum with
  | nil => simp [pushBytes]
  | cons b bytes ih =>
    have := ih (pushHex8 out b) (csum + b)
    simp only [pushBytes, List.foldl_cons, pushHex8] at this ⊢
    simp [this, add_assoc]

/-! ### Intel HEX -/

/-- A type-00 record. -/
def pushDataRecord (out : Text) (address : UInt16) (data : List UInt8) : Text :=
  let byteCount := data.length.toUInt8
  let out := out ++ [ascii ':']
  let out := pushHex8 out byteCount
  let out := pushHex8 out (address >>> 8).toUInt8
  let out := pushHex8 out address.toUInt8
  let out := pushHex8 out 0x00
  let csum := byteCount + (address >>> 8).toUInt8 + address.toUInt8
  let (out, csum) := pushBytes out csum data
  let out := pushHex8 out (0 - csum)
  out ++ CRLF

/-- A type-04 record. -/
def pushElaRecord (out : Text) (upper : UInt16) : Text :=
  let out := out ++ text ":02000004"
  let out := pushHex8 out (upper >>> 8).toUInt8
  let out := pushHex8 out upper.toUInt8
  let csum := (0x02 : UInt8) + (0x04 : UInt8) + (upper >>> 8).toUInt8 + upper.toUInt8
  let out := pushHex8 out (0 - csum)
  out ++ CRLF

def EOF_RECORD : Text := text ":00000001FF\r\n"

/-- The records of `data` from `offset` on. -/
def pushIhexRecords (data : List UInt8) (loadAddress offset : ℕ) (currentUpper : Option UInt16)
    (out : Text) : Text :=
  if offset < data.length then
    let address := loadAddress + offset
    let chunkLen := min (data.length - offset) 16
    let upper := UInt16.ofNat ((address >>> 16) &&& 0xFFFF)
    let (out, currentUpper) := if currentUpper ≠ some upper then (pushElaRecord out upper, some upper)
      else (out, currentUpper)
    let out := pushDataRecord out (UInt16.ofNat address) ((data.drop offset).take chunkLen)
    pushIhexRecords data loadAddress (offset + chunkLen) currentUpper out
  else out
termination_by data.length - offset

def encodeIhex (data : List UInt8) (loadAddress : ℕ) : Text :=
  let out := if ¬data.isEmpty then pushIhexRecords data loadAddress 0 none [] else []
  out ++ EOF_RECORD

/-! ### Motorola S-records -/

/-- The data record type narrow enough to address `topAddress`. -/
def dataRecordType (topAddress : ℕ) : UInt8 :=
  if topAddress ≤ 0xFFFF then 1 else if topAddress ≤ 0xFFFFFF then 2 else 3

def addressWidth (recordType : UInt8) : Option ℕ :=
  if recordType = 0 ∨ recordType = 1 ∨ recordType = 5 ∨ recordType = 9 then some 2
  else if recordType = 2 ∨ recordType = 6 ∨ recordType = 8 then some 3
  else if recordType = 3 ∨ recordType = 7 then some 4
  else none

/-- An address, most significant byte first. -/
def addressBytes (width address : ℕ) : List UInt8 :=
  (List.range width).reverse.map fun i => UInt8.ofNat (address >>> (i * 8))

@[simp] lemma length_addressBytes (width address : ℕ) :
    (addressBytes width address).length = width := by
  simp [addressBytes]

def pushRecord (out : Text) (recordType : UInt8) (width address : ℕ) (data : List UInt8) : Text :=
  let count := (width + data.length + 1).toUInt8
  let out := out ++ [ascii 'S', ascii '0' + recordType]
  let out := pushHex8 out count
  let (out, csum) := pushBytes out count (addressBytes width address)
  let (out, csum) := pushBytes out csum data
  let out := pushHex8 out (~~~csum)
  out ++ CRLF

/-- The data records of `data` from `offset` on, and how many there are with those before. -/
def pushSrecRecords (data : List UInt8) (loadAddress : ℕ) (recordType : UInt8)
    (width offset records : ℕ) (out : Text) : Text × ℕ :=
  if offset < data.length then
    let chunkLen := min (data.length - offset) 16
    let out := pushRecord out recordType width (loadAddress + offset)
      ((data.drop offset).take chunkLen)
    pushSrecRecords data loadAddress recordType width (offset + chunkLen) (records + 1) out
  else (out, records)
termination_by data.length - offset

lemma addressWidth_dataRecordType (topAddress : ℕ) :
    ∃ width, addressWidth (dataRecordType topAddress) = some width ∧ 2 ≤ width ∧ width ≤ 4 := by
  unfold dataRecordType
  split
  · exact ⟨2, by decide, by decide, by decide⟩
  · split
    · exact ⟨3, by decide, by decide, by decide⟩
    · exact ⟨4, by decide, by decide, by decide⟩

/-- The terminator paired with a data record type. -/
def terminator (recordType : UInt8) : UInt8 :=
  if recordType = 1 then 9 else if recordType = 2 then 8 else 7

/-- `none` would be the panic of a data record type that has no width. -/
def encodeSrec? (data : List UInt8) (loadAddress : ℕ) : Option Text := do
  let out := pushRecord [] 0 2 0 []
  let recordType := dataRecordType (loadAddress + (data.length - 1))
  let width ← addressWidth recordType
  let (out, records) := pushSrecRecords data loadAddress recordType width 0 0 out
  let out := if records ≤ 0xFFFF then pushRecord out 5 2 records [] else
    pushRecord out 6 3 records []
  pure (pushRecord out (terminator recordType) width 0 [])

lemma encodeSrec?_isSome (data : List UInt8) (loadAddress : ℕ) :
    (encodeSrec? data loadAddress).isSome := by
  obtain ⟨width, hwidth, -⟩ := addressWidth_dataRecordType (loadAddress + (data.length - 1))
  simp [encodeSrec?, hwidth]

def encodeSrec (data : List UInt8) (loadAddress : ℕ) : Text :=
  (encodeSrec? data loadAddress).get (encodeSrec?_isSome data loadAddress)

/-! ### Records on their own -/

lemma pushDataRecord_eq (out : Text) (address : UInt16) (data : List UInt8) :
    pushDataRecord out address data = out ++ pushDataRecord [] address data := by
  simp [pushDataRecord, pushBytes_eq, pushHex8]

lemma pushElaRecord_eq (out : Text) (upper : UInt16) :
    pushElaRecord out upper = out ++ pushElaRecord [] upper := by
  simp [pushElaRecord, pushHex8]

lemma pushRecord_eq (out : Text) (recordType : UInt8) (width address : ℕ) (data : List UInt8) :
    pushRecord out recordType width address data =
      out ++ pushRecord [] recordType width address data := by
  simp [pushRecord, pushBytes_eq, pushHex8]

/-- The upper half of an address, as the encoder takes it. -/
lemma upper_eq (address : ℕ) :
    UInt16.ofNat ((address >>> 16) &&& 0xFFFF) = UInt16.ofNat (address >>> 16) := by
  apply UInt16.toNat_inj.mp
  rw [show (0xFFFF : ℕ) = 2 ^ 16 - 1 from rfl, Nat.and_two_pow_sub_one_eq_mod]
  simp

/-- What one round of the loop pushes. -/
def ihexRecord (data : List UInt8) (loadAddress offset : ℕ) (currentUpper : Option UInt16) : Text :=
  (if currentUpper ≠ some (UInt16.ofNat ((loadAddress + offset) >>> 16)) then
    pushElaRecord [] (UInt16.ofNat ((loadAddress + offset) >>> 16)) else []) ++
  pushDataRecord [] (UInt16.ofNat (loadAddress + offset))
    ((data.drop offset).take (min (data.length - offset) 16))

variable {data : List UInt8} {loadAddress offset : ℕ}

lemma pushIhexRecords_pos (h : offset < data.length) (currentUpper : Option UInt16) (out : Text) :
    pushIhexRecords data loadAddress offset currentUpper out =
      pushIhexRecords data loadAddress (offset + min (data.length - offset) 16)
        (some (UInt16.ofNat ((loadAddress + offset) >>> 16)))
        (out ++ ihexRecord data loadAddress offset currentUpper) := by
  rw [pushIhexRecords, if_pos h, ihexRecord]
  dsimp only
  rw [upper_eq]
  by_cases hupper : currentUpper = some (UInt16.ofNat ((loadAddress + offset) >>> 16))
  · simp only [hupper, ne_eq, not_true, if_false, List.nil_append]
    rw [pushDataRecord_eq]
  · simp only [hupper, ne_eq, not_false_eq_true, if_true]
    rw [pushDataRecord_eq, pushElaRecord_eq, List.append_assoc]

/-- What the loop pushes does not depend on what is there. -/
lemma pushIhexRecords_out (offset : ℕ) (currentUpper : Option UInt16) (out : Text) :
    pushIhexRecords data loadAddress offset currentUpper out =
      out ++ pushIhexRecords data loadAddress offset currentUpper [] := by
  induction h : data.length - offset using Nat.strong_induction_on
    generalizing offset currentUpper out with
  | _ n ih =>
  by_cases hlt : offset < data.length
  · rw [pushIhexRecords_pos hlt, pushIhexRecords_pos hlt, ih _ (by omega) _ _ _ rfl,
      ih _ (by omega) _ _ ([] ++ _) rfl, List.nil_append, List.append_assoc]
  · rw [pushIhexRecords, if_neg hlt, pushIhexRecords, if_neg hlt, List.append_nil]

lemma pushSrecRecords_pos (h : offset < data.length) (recordType : UInt8) (width records : ℕ)
    (out : Text) :
    pushSrecRecords data loadAddress recordType width offset records out =
      pushSrecRecords data loadAddress recordType width (offset + min (data.length - offset) 16)
        (records + 1) (out ++ pushRecord [] recordType width (loadAddress + offset)
          ((data.drop offset).take (min (data.length - offset) 16))) := by
  rw [pushSrecRecords, if_pos h, ← pushRecord_eq]

lemma pushSrecRecords_out (recordType : UInt8) (width offset records : ℕ) (out : Text) :
    pushSrecRecords data loadAddress recordType width offset records out =
      (out ++ (pushSrecRecords data loadAddress recordType width offset records []).1,
        (pushSrecRecords data loadAddress recordType width offset records []).2) := by
  induction h : data.length - offset using Nat.strong_induction_on
    generalizing offset records out with
  | _ n ih =>
  by_cases hlt : offset < data.length
  · rw [pushSrecRecords_pos hlt, pushSrecRecords_pos hlt, ih _ (by omega) _ _ _ rfl,
      ih _ (by omega) _ _ ([] ++ _) rfl, List.nil_append, List.append_assoc]
  · rw [pushSrecRecords, if_neg hlt, pushSrecRecords, if_neg hlt, List.append_nil]

/-- The record counting the data records. -/
def countRecord (records : ℕ) : Text :=
  if records ≤ 0xFFFF then pushRecord [] 5 2 records [] else pushRecord [] 6 3 records []

lemma encodeSrec_eq {width : ℕ}
    (h : addressWidth (dataRecordType (loadAddress + (data.length - 1))) = some width) :
    encodeSrec data loadAddress = pushRecord [] 0 2 0 [] ++
      ((pushSrecRecords data loadAddress (dataRecordType (loadAddress + (data.length - 1))) width 0 0
        []).1 ++
      (countRecord (pushSrecRecords data loadAddress
          (dataRecordType (loadAddress + (data.length - 1))) width 0 0 []).2 ++
        pushRecord [] (terminator (dataRecordType (loadAddress + (data.length - 1)))) width 0 [])) := by
  apply Option.some.inj
  rw [encodeSrec, Option.some_get]
  simp only [encodeSrec?, h, Option.bind_eq_bind, Option.bind_some, Option.pure_def,
    Option.some.injEq]
  rw [pushSrecRecords_out, pushRecord_eq]
  unfold countRecord
  split
  · rw [pushRecord_eq _ 5, List.append_assoc, List.append_assoc]
  · rw [pushRecord_eq _ 6, List.append_assoc, List.append_assoc]

end OneRom.HexFile
