import OneRom.ChipTypes
import OneRom.Checks
import OneRom.HexFile
import OneRom.SlotArg

/-!
A chip's image, made from the file the configuration names: records are decoded, the location is
cut out, the transforms are applied, and what is left is reconciled with the chip's size.
-/

namespace OneRom.ImageFile

open OneRom.Checks OneRom.ChipTypes OneRom.HexFile OneRom.SlotArg

def UNWRITTEN_BYTE : UInt8 := 0xFF
def PAD_BLANK_BYTE : UInt8 := 0xAA

/-! ### Records -/

def hexVal (c : UInt8) : Option UInt8 :=
  if ascii '0' ≤ c ∧ c ≤ ascii '9' then some (c - ascii '0')
  else if ascii 'a' ≤ c ∧ c ≤ ascii 'f' then some (c - ascii 'a' + 10)
  else if ascii 'A' ≤ c ∧ c ≤ ascii 'F' then some (c - ascii 'A' + 10)
  else none

def decodeHexPairs : List UInt8 → Option (List UInt8)
  | [] => some []
  | [_] => none
  | c :: d :: rest => do
    let hi ← hexVal c
    let lo ← hexVal d
    let bytes ← decodeHexPairs rest
    return (hi <<< 4 ||| lo) :: bytes

inductive PlaceError
  | addressBelowLoad (address loadAddress : ℕ)
  | overlap (offset : ℕ)
  | tooLarge (size max : ℕ)
  deriving DecidableEq, Repr

/-- The image as far as records have placed it, and which of its bytes they wrote. -/
structure ImageAccumulator where
  image : List UInt8
  written : List Bool
  anyData : Bool

namespace ImageAccumulator

def new : ImageAccumulator := ⟨[], [], false⟩

/-- Grows the image to `len` bytes, if it has fewer. -/
def resize (acc : ImageAccumulator) (len : ℕ) : ImageAccumulator where
  image := acc.image ++ List.replicate (len - acc.image.length) UNWRITTEN_BYTE
  written := acc.written ++ List.replicate (len - acc.written.length) false
  anyData := acc.anyData

def placeByte (acc : ImageAccumulator) (address loadAddress : ℕ) (byte : UInt8) :
    Except PlaceError ImageAccumulator :=
  if usizeMax < address then .error (.tooLarge usizeMax MAX_IMAGE_SIZE)
  else if address < loadAddress then .error (.addressBelowLoad address loadAddress)
  else
    let offset := address - loadAddress
    if MAX_IMAGE_SIZE ≤ offset then .error (.tooLarge (offset + 1) MAX_IMAGE_SIZE)
    else
      let acc := acc.resize (offset + 1)
      if acc.written.getD offset false then .error (.overlap offset)
      else .ok { acc with image := acc.image.set offset byte, written := acc.written.set offset true }

/-- Places a record's data, which neither counts nor extends the image where there is none. -/
def place (acc : ImageAccumulator) (address loadAddress : ℕ) (data : List UInt8) :
    Except PlaceError ImageAccumulator :=
  if data = [] then .ok acc
  else data.zipIdx.foldlM (fun acc (byte, i) => acc.placeByte (address + i) loadAddress byte)
    { acc with anyData := true }

end ImageAccumulator

/-! ### Lines -/

def isAsciiWhitespace (c : UInt8) : Bool :=
  c = ascii ' ' || c = ascii '\t' || c = ascii '\n' || c = 0x0C || c = ascii '\r'

def trimAscii (line : List UInt8) : List UInt8 :=
  ((line.dropWhile isAsciiWhitespace).reverse.dropWhile isAsciiWhitespace).reverse

/-- The lines of a text, trimmed, with their numbers. -/
def numberedLines (input : List UInt8) : List (List UInt8 × ℕ) :=
  ((input.splitOn (ascii '\n')).map trimAscii).zipIdx 1

/-! ### Intel HEX -/

inductive IhexError
  | missingColon (line : ℕ)
  | badHex (line : ℕ)
  | badLength (line : ℕ)
  | badChecksum (line : ℕ) (expected actual : UInt8)
  | unsupportedRecordType (line : ℕ) (recordType : UInt8)
  | addressBelowLoad (line address loadAddress : ℕ)
  | overlappingData (offset : ℕ)
  | imageTooLarge (size max : ℕ)
  | missingEof
  | noData
  deriving DecidableEq, Repr

def IhexError.fromPlace (line : ℕ) : PlaceError → IhexError
  | .addressBelowLoad address loadAddress => .addressBelowLoad line address loadAddress
  | .overlap offset => .overlappingData offset
  | .tooLarge size max => .imageTooLarge size max

structure Record where
  recordType : UInt8
  address : ℕ
  data : List UInt8

/-- The bytes of a number, the highest first. -/
def bigEndian (bytes : List UInt8) : ℕ := bytes.foldl (fun n b => n * 256 + b.toNat) 0

def parseIhexRecord (line : List UInt8) (lineNo : ℕ) : Except IhexError Record :=
  match line with
  | [] => .error (.missingColon lineNo)
  | mark :: digits =>
    if mark ≠ ascii ':' then .error (.missingColon lineNo)
    else
      match decodeHexPairs digits with
      | none => .error (.badHex lineNo)
      | some bytes =>
        if bytes.length < 5 then .error (.badLength lineNo)
        else if bytes.length ≠ (bytes.getD 0 0).toNat + 5 then .error (.badLength lineNo)
        else if bytes.sum ≠ 0 then
          .error (.badChecksum lineNo (0 - bytes.dropLast.sum) (bytes.getLastD 0))
        else .ok ⟨bytes.getD 3 0, bigEndian ((bytes.drop 1).take 2),
          (bytes.drop 4).take (bytes.getD 0 0).toNat⟩

/-- What the decoder keeps from line to line. -/
structure IhexState where
  acc : ImageAccumulator
  extendedBase : ℕ
  seenEof : Bool

def ihexRecord (loadAddress lineNo : ℕ) (s : IhexState) (record : Record) :
    Except IhexError IhexState :=
  if record.recordType = 0x00 then
    (fun acc => { s with acc := acc }) <$>
      (s.acc.place (s.extendedBase + record.address) loadAddress record.data).mapError
        (IhexError.fromPlace lineNo)
  else if record.recordType = 0x01 then .ok { s with seenEof := true }
  else if record.recordType = 0x02 ∨ record.recordType = 0x04 then
    if record.data.length ≠ 2 then .error (.badLength lineNo)
    else
      let shift := if record.recordType = 0x02 then 4 else 16
      .ok { s with extendedBase := bigEndian record.data <<< shift }
  else if record.recordType = 0x03 ∨ record.recordType = 0x05 then .ok s
  else .error (.unsupportedRecordType lineNo record.recordType)

/-- Reads lines up to the end-of-file record. -/
def ihexLines (loadAddress : ℕ) (s : IhexState) :
    List (List UInt8 × ℕ) → Except IhexError IhexState
  | [] => .ok s
  | (line, lineNo) :: lines =>
    if line = [] then ihexLines loadAddress s lines
    else if s.seenEof then .ok s
    else do
      let record ← parseIhexRecord line lineNo
      ihexLines loadAddress (← ihexRecord loadAddress lineNo s record) lines

def decodeIhex (input : List UInt8) (loadAddress : ℕ) : Except IhexError (List UInt8) := do
  let s ← ihexLines loadAddress ⟨.new, 0, false⟩ (numberedLines input)
  refuse (s.seenEof = false) .missingEof
  refuse (s.acc.anyData = false) .noData
  return s.acc.image

/-! ### S-records -/

inductive SrecError
  | missingS (line : ℕ)
  | badHex (line : ℕ)
  | badLength (line : ℕ)
  | badChecksum (line : ℕ) (expected actual : UInt8)
  | unsupportedRecordType (line : ℕ) (recordType : UInt8)
  | addressBelowLoad (line address loadAddress : ℕ)
  | overlappingData (offset : ℕ)
  | imageTooLarge (size max : ℕ)
  | recordCountMismatch (declared actual : ℕ)
  | noData
  deriving DecidableEq, Repr

def SrecError.fromPlace (line : ℕ) : PlaceError → SrecError
  | .addressBelowLoad address loadAddress => .addressBelowLoad line address loadAddress
  | .overlap offset => .overlappingData offset
  | .tooLarge size max => .imageTooLarge size max

/-- The bytes of a record's type, or the error of one that it cannot have. -/
def srecType (line : List UInt8) (lineNo : ℕ) : Except SrecError (UInt8 × ℕ) :=
  match line with
  | [] => .error (.missingS lineNo)
  | mark :: rest =>
    if mark ≠ ascii 'S' ∧ mark ≠ ascii 's' then .error (.missingS lineNo)
    else
      match rest with
      | [] => .error (.badLength lineNo)
      | c :: _ =>
        if c < ascii '0' ∨ ascii '9' < c then .error (.badHex lineNo)
        else
          match addressWidth (c - ascii '0') with
          | none => .error (.unsupportedRecordType lineNo (c - ascii '0'))
          | some width => .ok (c - ascii '0', width)

def parseSrecRecord (line : List UInt8) (lineNo : ℕ) : Except SrecError Record := do
  let (recordType, width) ← srecType line lineNo
  match decodeHexPairs (line.drop 2) with
  | none => .error (.badHex lineNo)
  | some bytes =>
    if bytes.length < width + 2 then .error (.badLength lineNo)
    else if bytes.length ≠ (bytes.getD 0 0).toNat + 1 then .error (.badLength lineNo)
    else if ~~~bytes.dropLast.sum ≠ bytes.getLastD 0 then
      .error (.badChecksum lineNo (~~~bytes.dropLast.sum) (bytes.getLastD 0))
    else .ok ⟨recordType, bigEndian ((bytes.drop 1).take width),
      (bytes.drop (width + 1)).dropLast⟩

structure SrecState where
  acc : ImageAccumulator
  seenTerminator : Bool
  dataRecords : ℕ
  /-- The first count of data records. -/
  declaredCount : Option ℕ

def srecRecord (loadAddress lineNo : ℕ) (s : SrecState) (record : Record) :
    Except SrecError SrecState :=
  if record.recordType = 0 then .ok s
  else if record.recordType ≤ 3 then
    (fun acc => { s with
      acc := acc
      dataRecords := if record.data = [] then s.dataRecords else s.dataRecords + 1 }) <$>
      (s.acc.place record.address loadAddress record.data).mapError (SrecError.fromPlace lineNo)
  else if record.recordType = 5 ∨ record.recordType = 6 then
    .ok { s with declaredCount := s.declaredCount.or (some record.address) }
  else if 7 ≤ record.recordType ∧ record.recordType ≤ 9 then .ok { s with seenTerminator := true }
  else .error (.unsupportedRecordType lineNo record.recordType)

def srecLines (loadAddress : ℕ) (s : SrecState) :
    List (List UInt8 × ℕ) → Except SrecError SrecState
  | [] => .ok s
  | (line, lineNo) :: lines =>
    if line = [] then srecLines loadAddress s lines
    else if s.seenTerminator then .ok s
    else do
      let record ← parseSrecRecord line lineNo
      srecLines loadAddress (← srecRecord loadAddress lineNo s record) lines

def decodeSrec (input : List UInt8) (loadAddress : ℕ) : Except SrecError (List UInt8) := do
  let s ← srecLines loadAddress ⟨.new, false, 0, none⟩ (numberedLines input)
  s.declaredCount.forM fun declared =>
    refuse (declared ≠ s.dataRecords) (.recordCountMismatch declared s.dataRecords)
  refuse (s.acc.anyData = false) .noData
  return s.acc.image

/-! ### Transforms -/

inductive TransformError
  | oddLength (len : ℕ)
  | ragged (len group : ℕ)
  | invalidBytes (bytes : ℕ)
  | invalidStride (stride : ℕ)
  | invalidOffset (offset stride : ℕ)
  | groupOverflow (bytes stride : ℕ)
  deriving DecidableEq, Repr

def validate : Transform → Except TransformError Unit
  | .swapBytes => .ok ()
  | .deinterleave offset stride bytes => do
    refuse (bytes = 0) (.invalidBytes bytes)
    refuse (stride < 2) (.invalidStride stride)
    refuse (stride ≤ offset) (.invalidOffset offset stride)
    refuse (usizeMax < bytes * stride) (.groupOverflow bytes stride)

/-- The bytes of an image, and whether the size handling was needed to transform it. -/
structure Transformed where
  data : List UInt8
  usedSizeHandling : Bool

def swapPairs : List UInt8 → List UInt8
  | a :: b :: rest => b :: a :: swapPairs rest
  | _ => []

def swapBytes (data : List UInt8) (sizeHandling : SizeHandling) (blankByte : UInt8) :
    Except TransformError Transformed :=
  if data.length % 2 = 0 then .ok ⟨swapPairs data, false⟩
  else
    match sizeHandling with
    | .pad => .ok ⟨swapPairs (data ++ [blankByte]), true⟩
    | .truncate => .ok ⟨swapPairs data.dropLast, true⟩
    | .none | .duplicate => .error (.oddLength data.length)

/-- Keeps lane `offset` of the `stride` lanes, each `bytes` wide. -/
def deinterleave (data : List UInt8) (offset stride bytes : ℕ) :
    Except TransformError (List UInt8) :=
  if data.length % (bytes * stride) ≠ 0 then .error (.ragged data.length (bytes * stride))
  else .ok <| (List.range (data.length / (bytes * stride))).flatMap fun i =>
    (data.drop (offset * bytes + i * (bytes * stride))).take bytes

def apply (transform : Transform) (data : List UInt8) (sizeHandling : SizeHandling)
    (blankByte : UInt8) : Except TransformError Transformed := do
  validate transform
  match transform with
  | .swapBytes => swapBytes data sizeHandling blankByte
  | .deinterleave offset stride bytes => (⟨·, false⟩) <$> deinterleave data offset stride bytes

/-- Applies transforms in order, each to what the one before it made. -/
def applyTransforms (data : List UInt8) (transforms : List Transform)
    (sizeHandling : SizeHandling) (blankByte : UInt8) : Except TransformError Transformed :=
  transforms.foldlM (fun current transform => do
    let next ← apply transform current.data sizeHandling blankByte
    return ⟨next.data, current.usedSizeHandling || next.usedSizeHandling⟩) ⟨data, false⟩

/-! ### Images -/

structure Location where
  start : ℕ
  length : ℕ
  deriving DecidableEq, Repr

inductive LocationFault
  | overflow
  | shortFile (fileLen stop : ℕ)
  deriving DecidableEq, Repr

inductive ImageError
  | loadAddressWithBinary (filename : String)
  | duplicateUnsupportedForFormat (filename : String) (format : FileFormat)
  | intelHex (filename : String) (source : IhexError)
  | srec (filename : String) (source : SrecError)
  | transform (filename : String) (source : TransformError)
  | missingFile (id : ℕ)
  | badLocation (filename : String) (fault : LocationFault)
  | rightSize (chipType : ChipType) (filename : String) (size : ℕ) (sizeHandling : SizeHandling)
  | imageTooSmall (chipType : ChipType) (filename : String) (expected actual : ℕ)
  | duplicationNotExactDivisor (chipType : ChipType) (filename : String)
      (imageSize expectedSize : ℕ)
  | imageExceedsServedSize (chipType : ChipType) (filename : String) (imageSize servedSize : ℕ)
  | imageTooLarge (chipType : ChipType) (filename : String) (imageSize expectedSize : ℕ)
  deriving DecidableEq, Repr

section Image

-- the chip, and the file its errors name
variable (id : ℕ) (filename : String) (chipType : ChipType)

/-- Cuts the location out of a file. -/
def locate (location : Option Location) (source : List UInt8) : Except ImageError (List UInt8) :=
  match location with
  | none => .ok source
  | some loc =>
    if usizeMax < loc.start + loc.length then .error (.badLocation filename .overflow)
    else if source.length < loc.start + loc.length then
      .error (.badLocation filename (.shortFile source.length (loc.start + loc.length)))
    else .ok ((source.drop loc.start).take loc.length)

/-- A 27C080 is served by halves. -/
def servedSize : ℕ :=
  if chipType = .chip27C080 then chipType.sizeBytes / 2 else chipType.sizeBytes

/-- Reconciles an image with the size that is served. -/
def reconcile (source : Transformed) (sizeHandling : SizeHandling) (blankByte : UInt8) :
    Except ImageError (List UInt8) :=
  let expected := servedSize chipType
  let len := source.data.length
  let padded := source.data ++ List.replicate (expected - len) blankByte
  if len = expected then
    if sizeHandling = .none ∨ source.usedSizeHandling then .ok source.data
    else .error (.rightSize chipType filename expected sizeHandling)
  else if len < expected then
    match sizeHandling with
    | .none =>
      if chipType.isPlugin then .ok padded
      else .error (.imageTooSmall chipType filename expected len)
    | .duplicate =>
      if len = 0 ∨ expected % len ≠ 0 then
        .error (.duplicationNotExactDivisor chipType filename len expected)
      else .ok (List.replicate (expected / len) source.data).flatten
    | .pad => .ok padded
    | .truncate => .error (.imageTooSmall chipType filename expected len)
  else if sizeHandling = .truncate then .ok (source.data.take expected)
  else if expected ≠ chipType.sizeBytes then
    .error (.imageExceedsServedSize chipType filename len expected)
  else .error (.imageTooLarge chipType filename len expected)

/-- A chip's image. A RAM chip may go without one. -/
def fromRawRomImage (source : Option (List UInt8)) (sizeHandling : SizeHandling)
    (blankByte : UInt8) (location : Option Location) (transforms : List Transform) :
    Except ImageError (Option (List UInt8)) := do
  transforms.forM fun t => (validate t).mapError (.transform filename)
  match source with
  | none =>
    if chipType.chipFunction = .ram then .ok none else .error (.missingFile id)
  | some source => do
    let located ← locate filename location source
    let transformed ← (applyTransforms located transforms sizeHandling blankByte).mapError
      (.transform filename)
    let image ← reconcile filename chipType transformed sizeHandling blankByte
    return some (image ++ List.replicate (chipType.sizeBytes - image.length) 0)

end Image

/-! ### Files that are no records -/

/-- A line that begins with no space keeps its first byte. -/
lemma trimAscii_cons {c : UInt8} (hc : isAsciiWhitespace c = false) (line : List UInt8) :
    ∃ rest, trimAscii (c :: line) = c :: rest := by
  have hdrop : (c :: line).dropWhile isAsciiWhitespace = c :: line := by
    rw [List.dropWhile_cons_of_neg (by simp [hc])]
  have hlast : ((c :: line).reverse.dropWhile isAsciiWhitespace) =
      (line.reverse.dropWhile isAsciiWhitespace) ++ [c] := by
    rw [List.reverse_cons, List.dropWhile_append]
    split
    · next hempty =>
      rw [List.isEmpty_iff.mp hempty, List.dropWhile_cons_of_neg (by simp [hc])]
      rfl
    · rfl
  exact ⟨_, by rw [trimAscii, hdrop, hlast, List.reverse_append]; rfl⟩

/-- The first line of a text that begins with neither a space nor a line's end. -/
lemma numberedLines_cons {c : UInt8} (hc : isAsciiWhitespace c = false) (rest : List UInt8) :
    ∃ line lines, numberedLines (c :: rest) = (c :: line, 1) :: lines := by
  have hne : (c == ascii '\n') = false := by
    by_contra heq
    rw [Bool.not_eq_false, beq_iff_eq] at heq
    subst heq
    exact absurd hc (by decide)
  obtain ⟨first, others, hsplit⟩ : ∃ first others,
      (c :: rest).splitOn (ascii '\n') = (c :: first) :: others := by
    rw [List.splitOn_cons_eq_if_modifyHead, if_neg (by simpa using hne)]
    obtain ⟨first, others, hrest⟩ := List.exists_cons_of_ne_nil (List.splitOn_ne_nil (ascii '\n') rest)
    exact ⟨first, others, by rw [hrest]; rfl⟩
  obtain ⟨line, hline⟩ := trimAscii_cons hc first
  exact ⟨line, (others.map trimAscii).zipIdx 2, by
    rw [numberedLines, hsplit, List.map_cons, hline, List.zipIdx_cons]⟩

lemma decodeIhex_refused {c : UInt8} (hc : isAsciiWhitespace c = false) (hmark : c ≠ ascii ':')
    (rest : List UInt8) (loadAddress : ℕ) :
    decodeIhex (c :: rest) loadAddress = .error (.missingColon 1) := by
  obtain ⟨line, lines, hlines⟩ := numberedLines_cons hc rest
  simp [decodeIhex, hlines, ihexLines, parseIhexRecord, hmark, bind, Except.bind]

lemma decodeSrec_refused {c : UInt8} (hc : isAsciiWhitespace c = false) (hupper : c ≠ ascii 'S')
    (hlower : c ≠ ascii 's') (rest : List UInt8) (loadAddress : ℕ) :
    decodeSrec (c :: rest) loadAddress = .error (.missingS 1) := by
  obtain ⟨line, lines, hlines⟩ := numberedLines_cons hc rest
  simp [decodeSrec, hlines, srecLines, parseSrecRecord, srecType, hupper, hlower, bind, Except.bind]

/-! ### A plugin's image -/

/-- The byte at a place of an image that a plugin's bytes are reconciled with. -/
def laid (source : List UInt8) (sizeHandling : SizeHandling) (i : ℕ) : UInt8 :=
  if i < source.length then source.getD i 0
  else if sizeHandling = .duplicate then source.getD (i % source.length) 0
  else PAD_BLANK_BYTE

lemma getD_flatten_replicate (source : List UInt8) (n i : ℕ) (h : i < n * source.length) :
    (List.replicate n source).flatten.getD i 0 = source.getD (i % source.length) 0 := by
  induction n generalizing i with
  | zero => omega
  | succ n ih =>
    rw [List.replicate_succ, List.flatten_cons]
    rcases Nat.lt_or_ge i source.length with hi | hi
    · rw [List.getD_append _ _ _ _ hi, Nat.mod_eq_of_lt hi]
    · rw [List.getD_append_right _ _ _ _ hi, ih _ (by rw [Nat.succ_mul] at h; omega),
        ← Nat.mod_eq_sub_mod hi]

/-- A plugin's image is as long as its type says, whatever its file's length, and its bytes are
those of the file first. -/
lemma reconcile_plugin {filename : String} {t : ChipType} {source : Transformed}
    {sizeHandling : SizeHandling} {image : List UInt8} (ht : t.isPlugin)
    (h : reconcile filename t source sizeHandling PAD_BLANK_BYTE = .ok image) :
    image.length = t.sizeBytes ∧ ∀ i < t.sizeBytes, image.getD i 0 = laid source.data sizeHandling i := by
  have hserved : servedSize t = t.sizeBytes := by
    rw [servedSize, if_neg]
    rintro rfl
    exact absurd ht (by decide)
  -- a file that is padded is followed by the blank byte
  have hpadded : ∀ handling, handling ≠ SizeHandling.duplicate → source.data.length < t.sizeBytes →
      (source.data ++ List.replicate (t.sizeBytes - source.data.length) PAD_BLANK_BYTE).length =
        t.sizeBytes ∧ ∀ i < t.sizeBytes,
        (source.data ++ List.replicate (t.sizeBytes - source.data.length) PAD_BLANK_BYTE).getD i 0 =
          laid source.data handling i := by
    intro handling hne hlt
    refine ⟨by simp; omega, fun i hi => ?_⟩
    rw [laid]
    split
    · next hin => rw [List.getD_append _ _ _ _ hin]
    · next hin =>
      rw [List.getD_append_right _ _ _ _ (by omega), List.getD_eq_getElem?_getD,
        List.getElem?_replicate, if_pos (by omega), Option.getD_some]
  unfold reconcile at h
  rw [hserved] at h
  dsimp only at h
  split at h
  · next hlen =>
    split at h
    · cases h
      exact ⟨hlen, fun i hi => by rw [laid, if_pos (hlen ▸ hi)]⟩
    · cases h
  · next hlen =>
    split at h
    · next hlt =>
      cases sizeHandling with
      | none =>
        cases h
        exact hpadded .none (by decide) hlt
      | duplicate =>
        dsimp only at h
        split at h
        · cases h
        · next hdiv =>
          cases h
          obtain ⟨hpos, hmod⟩ := not_or.mp hdiv
          have htotal : t.sizeBytes / source.data.length * source.data.length = t.sizeBytes :=
            Nat.div_mul_cancel (Nat.dvd_of_mod_eq_zero (not_not.mp hmod))
          refine ⟨by simp [htotal], fun i hi => ?_⟩
          rw [getD_flatten_replicate _ _ _ (by omega), laid]
          split
          · next hin => rw [Nat.mod_eq_of_lt hin]
          · rfl
      | truncate => cases h
      | pad =>
        cases h
        exact hpadded .pad (by decide) hlt
    · next hge =>
      split at h
      · cases h
        refine ⟨by rw [List.length_take]; omega, fun i hi => ?_⟩
        rw [laid, if_pos (by omega), List.getD_eq_getElem?_getD, List.getElem?_take_of_lt hi,
          ← List.getD_eq_getElem?_getD]
      · split at h <;> cases h

end OneRom.ImageFile
