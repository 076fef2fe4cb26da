import OneRom.LittleEndian

/-!
An entry of the OTP store: a key row, a length row, then the value two bytes to a row.

`OneromOtpEntry.write` and `OneromOtpEntry.parse` are the generated writer and parser;
`entry_rows` lays an entry out as the store holds it. `parse_entryRows` says that the parser
reads back what the writer laid out.
-/

namespace OneRom.OtpEntry

open OneRom.LittleEndian

def OTP_PAGE_ROWS : ℕ := 64
def OTP_COMMISSIONING_AREA_FIRST_ROW : ℕ := 0x0c0
def OTP_COMMISSIONING_AREA_LAST_ROW : ℕ := 0x4bf
def OTP_GENERAL_STORE_FIRST_ROW : ℕ := 0x4c0
def OTP_GENERAL_STORE_TERMINATOR_ROW : ℕ := 0xebe
def OTP_GENERAL_STORE_TERMINATOR_ROW_COUNT : ℕ := 2
def OTP_STORE_MAGIC : UInt16 := 0x524f
def OTP_STORE_VERSION : UInt16 := 1
def OTP_COMMISSIONING_SIG_LEN : ℕ := 64
def OTP_COMMISSIONING_SIGNER_LEN : ℕ := 2
def OTP_KEY_NONE : UInt16 := 0

/-- The keys of the store's entries, sentinels aside. -/
inductive OneromOtpKey
  | commissioningBoard
  | commissioningSig
  | commissioningManufacturer
  | commissioningDate
  | commissioningSigner
  deriving DecidableEq, Repr

def OneromOtpKey.toU16 : OneromOtpKey → UInt16
  | .commissioningBoard => 1
  | .commissioningSig => 2
  | .commissioningManufacturer => 3
  | .commissioningDate => 4
  | .commissioningSigner => 5

/-- The bytes of a string, as UTF-8. -/
def strBytes (s : String) : List UInt8 := s.toByteArray.data.toList

def fromUtf8 (bs : List UInt8) : Option String := String.fromUTF8? ⟨bs.toArray⟩

@[simp] lemma fromUtf8_strBytes (s : String) : fromUtf8 (strBytes s) = some s := by
  have h : (⟨(strBytes s).toArray⟩ : ByteArray) = s.toByteArray := by simp [strBytes]
  simp only [fromUtf8, String.fromUTF8?, h]
  rw [dif_pos s.isValidUTF8]
  rfl

inductive OneromOtpEntry
  | commissioningBoard (name : String)
  | commissioningSig (signature : Vector UInt8 OTP_COMMISSIONING_SIG_LEN)
  | commissioningManufacturer (name : String)
  | commissioningDate (date : String)
  | commissioningSigner (id : UInt16)
  | unknown (key : UInt32) (params : List UInt8)
  deriving DecidableEq

/-- The length of an entry's value in bytes. -/
def valueLen : OneromOtpEntry → ℕ
  | .commissioningBoard name => (strBytes name).length
  | .commissioningManufacturer name => (strBytes name).length
  | .commissioningDate date => (strBytes date).length
  | .commissioningSig _ => OTP_COMMISSIONING_SIG_LEN
  | .commissioningSigner _ => OTP_COMMISSIONING_SIGNER_LEN
  | .unknown _ params => params.length

/-- An entry's key. -/
def entryKey : OneromOtpEntry → UInt16
  | .commissioningBoard _ => OneromOtpKey.commissioningBoard.toU16
  | .commissioningSig _ => OneromOtpKey.commissioningSig.toU16
  | .commissioningManufacturer _ => OneromOtpKey.commissioningManufacturer.toU16
  | .commissioningDate _ => OneromOtpKey.commissioningDate.toU16
  | .commissioningSigner _ => OneromOtpKey.commissioningSigner.toU16
  | .unknown key _ => key.toUInt16

/-- The rows an entry takes when its value is `len` bytes. -/
def entryRowCount (len : ℕ) : ℕ := 2 + (len + 1) / 2

/-! ### The generated writer -/

/-- Copies `data` into a buffer at `addr`. -/
def writeBytes (buf : List UInt8) (addr : ℕ) (data : List UInt8) : List UInt8 :=
  buf.take addr ++ data ++ buf.drop (addr + data.length)

def writeU16Le (buf : List UInt8) (addr : ℕ) (val : UInt16) : List UInt8 :=
  writeBytes buf addr (toBytes val)

def OneromOtpEntry.write (entry : OneromOtpEntry) (buf : List UInt8) (addr : ℕ) : List UInt8 :=
  match entry with
  | .commissioningBoard name =>
    let buf := writeU16Le buf addr 1
    let buf := writeU16Le buf (addr + 2) (UInt16.ofNat (strBytes name).length)
    writeBytes buf (addr + 4) (strBytes name)
  | .commissioningSig signature =>
    let buf := writeU16Le buf addr 2
    let buf := writeU16Le buf (addr + 2) (UInt16.ofNat OTP_COMMISSIONING_SIG_LEN)
    writeBytes buf (addr + 4) signature.toList
  | .commissioningManufacturer name =>
    let buf := writeU16Le buf addr 3
    let buf := writeU16Le buf (addr + 2) (UInt16.ofNat (strBytes name).length)
    writeBytes buf (addr + 4) (strBytes name)
  | .commissioningDate date =>
    let buf := writeU16Le buf addr 4
    let buf := writeU16Le buf (addr + 2) (UInt16.ofNat (strBytes date).length)
    writeBytes buf (addr + 4) (strBytes date)
  | .commissioningSigner id =>
    let buf := writeU16Le buf addr 5
    let buf := writeU16Le buf (addr + 2) (UInt16.ofNat OTP_COMMISSIONING_SIGNER_LEN)
    writeU16Le buf (addr + 4) id
  | .unknown key params =>
    let buf := writeU16Le buf addr key.toUInt16
    let buf := writeU16Le buf (addr + 2) (UInt16.ofNat params.length)
    if params.isEmpty then buf else writeBytes buf (addr + 4) params

/-- An entry's rows as the store holds them, key row first. -/
def entryRows (entry : OneromOtpEntry) : List UInt16 :=
  -- an unwritten OTP row reads 0, and so does the spare byte after an odd-length value
  words (entry.write (List.replicate (2 * entryRowCount (valueLen entry)) 0) 0)

/-! ### The generated parser -/

inductive ParseError
  | outOfBounds (addr size : ℕ)
  | invalidUtf8
  | paramsTooShort (addr len needed : ℕ)
  deriving DecidableEq, Repr

/-- A view of one memory region. -/
structure DeviceMemoryView where
  data : List UInt8
  base : ℕ

variable (view : DeviceMemoryView)

/-- The offset of `addr..addr+size` in the region, where it covers it. -/
def DeviceMemoryView.regionFor (addr size : ℕ) : Except ParseError ℕ :=
  if view.base ≤ addr ∧ addr - view.base + size ≤ view.data.length then .ok (addr - view.base)
  else .error (.outOfBounds addr size)

def DeviceMemoryView.sliceAt (addr len : ℕ) : Except ParseError (List UInt8) := do
  let off ← view.regionFor addr len
  return (view.data.drop off).take len

def DeviceMemoryView.readU16Le (addr : ℕ) : Except ParseError UInt16 := do
  let off ← view.regionFor addr 2
  return ofBytes (view.data.getD off 0) (view.data.getD (off + 1) 0)

def DeviceMemoryView.readBytes (N : ℕ) (addr : ℕ) : Except ParseError (Vector UInt8 N) := do
  let off ← view.regionFor addr N
  return Vector.ofFn fun i => view.data.getD (off + i) 0

def DeviceMemoryView.readStr (addr len : ℕ) : Except ParseError String := do
  match fromUtf8 (← view.sliceAt addr len) with
  | some s => .ok s
  | none => .error .invalidUtf8

def OneromOtpEntry.parse (addr : ℕ) : Except ParseError OneromOtpEntry := do
  let discriminant ← view.readU16Le addr
  let paramLen ← view.readU16Le (addr + 2)
  match discriminant.toNat with
  | 1 => return .commissioningBoard (← view.readStr (addr + 4) paramLen.toNat)
  | 2 =>
    if paramLen.toNat < OTP_COMMISSIONING_SIG_LEN then
      .error (.paramsTooShort addr paramLen.toNat OTP_COMMISSIONING_SIG_LEN)
    else return .commissioningSig (← view.readBytes OTP_COMMISSIONING_SIG_LEN (addr + 4))
  | 3 => return .commissioningManufacturer (← view.readStr (addr + 4) paramLen.toNat)
  | 4 => return .commissioningDate (← view.readStr (addr + 4) paramLen.toNat)
  | 5 =>
    if paramLen.toNat < OTP_COMMISSIONING_SIGNER_LEN then
      .error (.paramsTooShort addr paramLen.toNat OTP_COMMISSIONING_SIGNER_LEN)
    else return .commissioningSigner (← view.readU16Le (addr + 4))
  | _ => return .unknown discriminant.toUInt32 (← view.sliceAt (addr + 4) paramLen.toNat)

/-! ### What the writer lays out -/

/-- An entry's value, as bytes. -/
def value : OneromOtpEntry → List UInt8
  | .commissioningBoard name => strBytes name
  | .commissioningManufacturer name => strBytes name
  | .commissioningDate date => strBytes date
  | .commissioningSig signature => signature.toList
  | .commissioningSigner id => toBytes id
  | .unknown _ params => params

@[simp] lemma length_value (entry : OneromOtpEntry) : (value entry).length = valueLen entry := by
  cases entry <;> simp [value, valueLen, OTP_COMMISSIONING_SIGNER_LEN]

lemma writeBytes_fill (as data : List UInt8) (n : ℕ) :
    writeBytes (as ++ List.replicate n 0) as.length data =
      (as ++ data) ++ List.replicate (n - data.length) 0 := by
  simp [writeBytes, List.drop_append]

lemma write_eq (entry : OneromOtpEntry) (n : ℕ) :
    entry.write (List.replicate n 0) 0 =
      toBytes (entryKey entry) ++ toBytes (UInt16.ofNat (valueLen entry)) ++ value entry
        ++ List.replicate (n - (4 + valueLen entry)) 0 := by
  have key := writeBytes_fill [] (toBytes (entryKey entry)) n
  have len := writeBytes_fill (toBytes (entryKey entry))
    (toBytes (UInt16.ofNat (valueLen entry))) (n - 2)
  have val := writeBytes_fill
    (toBytes (entryKey entry) ++ toBytes (UInt16.ofNat (valueLen entry)))
    (value entry) (n - 2 - 2)
  have hn : n - 2 - 2 - valueLen entry = n - (4 + valueLen entry) := by omega
  simp only [List.nil_append, List.length_nil, length_toBytes, List.length_append, length_value,
    hn] at key len val
  cases entry
  case unknown key' params =>
    by_cases hp : params = []
    · subst hp
      simp_all [OneromOtpEntry.write, writeU16Le, entryKey, valueLen, value]
    · simp_all [OneromOtpEntry.write, writeU16Le, entryKey, valueLen, value]
  all_goals
    simp_all [OneromOtpEntry.write, writeU16Le, entryKey, valueLen, value, OneromOtpKey.toU16]

lemma bytes_entryRows (entry : OneromOtpEntry) :
    bytes (entryRows entry) = toBytes (entryKey entry) ++
      toBytes (UInt16.ofNat (valueLen entry)) ++ padded (value entry) := by
  have hpad : 2 * entryRowCount (valueLen entry) - (4 + valueLen entry) = valueLen entry % 2 := by
    simp only [entryRowCount]; omega
  rw [entryRows, write_eq, hpad, bytes_words]
  · simp [padded]
  · simp; omega

/-- **Layout**: a key row, a length row, then the value two bytes to a row. -/
theorem entryRows_eq (entry : OneromOtpEntry) :
    entryRows entry =
      entryKey entry :: UInt16.ofNat (valueLen entry) :: words (padded (value entry)) := by
  have h := congrArg words (bytes_entryRows entry)
  rw [words_bytes] at h
  rw [h, List.append_assoc, words_toBytes_append, words_toBytes_append]

@[simp] lemma length_entryRows (entry : OneromOtpEntry) :
    (entryRows entry).length = entryRowCount (valueLen entry) := by
  simp only [entryRows_eq, List.length_cons, length_words, length_padded, length_value,
    entryRowCount]
  omega

/-! ### Reading back -/

/-- An entry a parser can return: an unknown key is a key row no known entry has. -/
def Readable : OneromOtpEntry → Prop
  | .unknown key _ => key.toUInt16.toUInt32 = key ∧ 5 < key.toNat
  | _ => True

lemma regionFor_ok {bs : List UInt8} {addr size : ℕ} (h : addr + size ≤ bs.length) :
    (⟨bs, 0⟩ : DeviceMemoryView).regionFor addr size = .ok addr := by
  simp [DeviceMemoryView.regionFor, h]

lemma sliceAt_ok {bs : List UInt8} {addr len : ℕ} (h : addr + len ≤ bs.length) :
    (⟨bs, 0⟩ : DeviceMemoryView).sliceAt addr len = .ok ((bs.drop addr).take len) := by
  simp only [DeviceMemoryView.sliceAt, regionFor_ok h]; rfl

lemma readU16Le_ok (as bs : List UInt8) (w : UInt16) :
    (⟨as ++ toBytes w ++ bs, 0⟩ : DeviceMemoryView).readU16Le as.length = .ok w := by
  rw [DeviceMemoryView.readU16Le, regionFor_ok (by simp)]
  simp [toBytes, ofBytes_toBytes, bind, Except.bind, pure, Except.pure]

lemma readBytes_ok {as bs : List UInt8} {n : ℕ} (v : Vector UInt8 n) :
    (⟨as ++ v.toList ++ bs, 0⟩ : DeviceMemoryView).readBytes n as.length = .ok v := by
  rw [DeviceMemoryView.readBytes, regionFor_ok (by simp)]
  have hv : (Vector.ofFn fun i : Fin n => (as ++ v.toList ++ bs).getD (as.length + i) 0) = v := by
    ext i hi
    simp [List.getD_eq_getElem?_getD, List.getElem?_append_right, List.getElem?_append_left]
  simpa [bind, Except.bind, pure, Except.pure] using hv

/-- **Round trip**: the parser reads back the entry whose rows the writer laid out. -/
theorem parse_entryRows (entry : OneromOtpEntry) (hr : Readable entry)
    (hlen : valueLen entry < 2 ^ 16) :
    OneromOtpEntry.parse ⟨bytes (entryRows entry), 0⟩ 0 = .ok entry := by
  have hkey := readU16Le_ok [] (toBytes (UInt16.ofNat (valueLen entry)) ++ padded (value entry))
    (entryKey entry)
  have hlenRow := readU16Le_ok (toBytes (entryKey entry)) (padded (value entry))
    (UInt16.ofNat (valueLen entry))
  have hval : (⟨bytes (entryRows entry), 0⟩ : DeviceMemoryView).sliceAt 4 (valueLen entry) =
      .ok (value entry) := by
    rw [sliceAt_ok (by simp [entryRowCount]; omega), bytes_entryRows]
    simp [padded, toBytes]
  have hn : (UInt16.ofNat (valueLen entry)).toNat = valueLen entry := by
    simp only [UInt16.toNat_ofNat']; omega
  simp only [List.nil_append, List.length_nil, length_toBytes, List.append_assoc] at hkey hlenRow
  simp only [← List.append_assoc, ← bytes_entryRows] at hkey hlenRow
  have hstr : ∀ s, value entry = strBytes s → (⟨bytes (entryRows entry), 0⟩ :
      DeviceMemoryView).readStr 4 (valueLen entry) = .ok s := by
    intro s hs
    simp [DeviceMemoryView.readStr, hval, hs, bind, Except.bind]
  simp only [OneromOtpEntry.parse, Nat.zero_add, hkey, hlenRow, bind, Except.bind, hn]
  cases entry with
  | commissioningBoard name => rw [hstr name rfl]; rfl
  | commissioningManufacturer name => rw [hstr name rfl]; rfl
  | commissioningDate date => rw [hstr date rfl]; rfl
  | commissioningSig signature =>
    have h : (⟨bytes (entryRows (.commissioningSig signature)), 0⟩ : DeviceMemoryView).readBytes
        OTP_COMMISSIONING_SIG_LEN 4 = .ok signature := by
      rw [bytes_entryRows, padded, ← List.append_assoc]
      exact readBytes_ok signature
    rw [h]; rfl
  | commissioningSigner id =>
    have h : (⟨bytes (entryRows (.commissioningSigner id)), 0⟩ : DeviceMemoryView).readU16Le 4 =
        .ok id := by
      rw [bytes_entryRows, padded, ← List.append_assoc]
      exact readU16Le_ok _ _ id
    rw [h]; rfl
  | unknown key params =>
    obtain ⟨hkey16, hlt⟩ := hr
    have h16 : key.toUInt16.toNat = key.toNat := by
      rw [← congrArg UInt32.toNat hkey16]; rfl
    obtain ⟨k, hk⟩ : ∃ k, (entryKey (.unknown key params)).toNat = k + 6 :=
      ⟨key.toNat - 6, by simp only [entryKey, h16]; omega⟩
    rw [hk, hval, entryKey, hkey16]; rfl

/-- The parser takes an entry's key from its first row. -/
lemma entryKey_of_parse {key : UInt16} {rows : List UInt16} {entry : OneromOtpEntry}
    (h : OneromOtpEntry.parse ⟨bytes (key :: rows), 0⟩ 0 = .ok entry) : entryKey entry = key := by
  have hkey := readU16Le_ok [] (bytes rows) key
  simp only [List.nil_append, List.length_nil, ← bytes_cons] at hkey
  simp only [OneromOtpEntry.parse, hkey, bind, Except.bind] at h
  split at h
  · cases h
  have hkeys : ∀ k : OneromOtpKey, key.toNat = k.toU16.toNat → k.toU16 = key := fun k hk =>
    (UInt16.toNat_inj.mp hk).symm
  split at h
  · split at h <;> cases h
    exact hkeys .commissioningBoard ‹_›
  · split_ifs at h
    split at h <;> cases h
    exact hkeys .commissioningSig ‹_›
  · split at h <;> cases h
    exact hkeys .commissioningManufacturer ‹_›
  · split at h <;> cases h
    exact hkeys .commissioningDate ‹_›
  · split_ifs at h
    split at h <;> cases h
    exact hkeys .commissioningSigner ‹_›
  · split at h <;> cases h
    simp [entryKey]

end OneRom.OtpEntry
