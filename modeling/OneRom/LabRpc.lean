import OneRom.Cursor
import OneRom.OtpEntry

/-!
The messages between One ROM Lab and its host: command and response words, the entry of a ROM that
was recognised, and the raw data kept of the last ROM read.

A message is read back from the bytes it is sent as when `from_buffer` gives it whatever follows
those bytes, and refuses them cut short. Every message is read back but `GetRawData`, whose bytes
start with a command word that reading it does not pass over.
-/

namespace OneRom.LabRpc

open OneRom.Fallible OneRom.LittleEndian OneRom.Cursor OneRom.OtpEntry

inductive Error
  | bufferTooSmall
  | invalidResponse
  | invalidData
  | noRom
  | romNotRecognised
  deriving DecidableEq, Repr

/-! ### Commands and responses -/

inductive Command
  | ping
  | readRom
  | getRawData
  | unknown
  deriving DecidableEq, Repr

def Command.toU32 : Command → UInt32
  | .ping => 0x00000000
  | .readRom => 0x00000001
  | .getRawData => 0x00000002
  | .unknown => 0xFFFFFFFF

def Command.fromU32 (value : UInt32) : Command :=
  if value = 0x00000000 then .ping
  else if value = 0x00000001 then .readRom
  else .unknown

/-- The raw data command is missing from those recognised. -/
lemma Command.fromU32_toU32_iff (c : Command) : fromU32 c.toU32 = c ↔ c ≠ .getRawData := by
  cases c <;> decide

inductive Response
  | pong
  | romEntry
  | romNotRecognised
  | error
  | noRom
  | unknown
  deriving DecidableEq, Repr

def Response.toU32 : Response → UInt32
  | .pong => 0x00000000
  | .romEntry => 0x00000001
  | .romNotRecognised => 0x00000002
  | .error => 0x80000000
  | .noRom => 0x80000001
  | .unknown => 0xFFFFFFFF

def Response.fromU32 (value : UInt32) : Response :=
  if value = 0x00000000 then .pong
  else if value = 0x00000001 then .romEntry
  else if value = 0x00000002 then .romNotRecognised
  else if value = 0x80000000 then .error
  else if value = 0x80000001 then .noRom
  else .unknown

@[simp] lemma Response.fromU32_toU32 (r : Response) : fromU32 r.toU32 = r := by
  cases r <;> decide

/-! ### ROM types -/

inductive CsActive
  | high
  | low
  deriving DecidableEq, Repr

def CsActive.toByte : CsActive → UInt8
  | .low => 0
  | .high => 1

/-- Any failure to parse a ROM type is `invalidData` to a message. -/
def CsActive.fromByte (byte : UInt8) : Except Error CsActive :=
  if byte = 0 then .ok .low else if byte = 1 then .ok .high else .error .invalidData

@[simp] lemma CsActive.fromByte_toByte (cs : CsActive) : fromByte cs.toByte = .ok cs := by
  cases cs <;> decide

inductive RomType
  | type27512
  | type23128 (cs1 cs2 cs3 : CsActive)
  | type2364 (cs : CsActive)
  | type2332 (cs1 cs2 : CsActive)
  | type2316 (cs1 cs2 cs3 : CsActive)
  deriving DecidableEq, Repr

namespace RomType

def binarySize : ℕ := 4

def toBytes : RomType → List UInt8
  | .type2364 cs => [0x00, cs.toByte, 0, 0]
  | .type2332 cs1 cs2 => [0x01, cs1.toByte, cs2.toByte, 0]
  | .type2316 cs1 cs2 cs3 => [0x02, cs1.toByte, cs2.toByte, cs3.toByte]
  | .type23128 cs1 cs2 cs3 => [0x03, cs1.toByte, cs2.toByte, cs3.toByte]
  | .type27512 => [0x04, 0, 0, 0]

/-- The lines of a type that has three. -/
def withThree (type : CsActive → CsActive → CsActive → RomType) (b₁ b₂ b₃ : UInt8) :
    Except Error RomType := do
  let cs1 ← CsActive.fromByte b₁
  let cs2 ← CsActive.fromByte b₂
  let cs3 ← CsActive.fromByte b₃
  pure (type cs1 cs2 cs3)

/-- Bytes a type makes no use of are not looked at. -/
def fromBytes : List UInt8 → Except Error RomType
  | kind :: b₁ :: b₂ :: b₃ :: _ =>
    if kind = 0x00 then (CsActive.fromByte b₁).map .type2364
    else if kind = 0x01 then do
      let cs1 ← CsActive.fromByte b₁
      let cs2 ← CsActive.fromByte b₂
      pure (.type2332 cs1 cs2)
    else if kind = 0x02 then withThree .type2316 b₁ b₂ b₃
    else if kind = 0x03 then withThree .type23128 b₁ b₂ b₃
    else if kind = 0x04 then .ok .type27512
    else .error .invalidData
  | _ => .error .invalidData

@[simp] lemma length_toBytes (t : RomType) : t.toBytes.length = binarySize := by
  cases t <;> rfl

@[simp] lemma fromBytes_toBytes (t : RomType) : fromBytes t.toBytes = .ok t := by
  cases t <;>
    simp [fromBytes, toBytes, withThree, Except.map, bind, Except.bind, pure, Except.pure]

end RomType

/-! ### Messages -/

/-- What a reader of messages, or a writer of them, does next. -/
abbrev Rpc (α : Type) : Type := Step Error α

/-- A result of another function, refusing as it does. -/
def checked {α : Type} (r : Except Error α) : Rpc α := Prog.ofExcept (r.mapError .refused)

/-- The next `n` bytes, once they are known to be there. -/
def bytes (n : ℕ) : Rpc (List UInt8) := need .bufferTooSmall n >>= fun _ => slice n

def readWord : Rpc UInt32 := need .bufferTooSmall 4 >>= fun _ => word

def readRomType : Rpc RomType :=
  bytes RomType.binarySize >>= fun buf => checked (RomType.fromBytes buf)

/-- Bytes, once there is known to be room for them. -/
def write (bs : List UInt8) : Rpc PUnit := need .bufferTooSmall bs.length >>= fun _ => put bs

/-- A string and the zero byte that ends it, once there is known to be room for both. -/
def writeTerminated (s : String) : Rpc PUnit :=
  need .bufferTooSmall ((strBytes s).length + 1) >>= fun _ =>
    put (strBytes s) >>= fun _ => put [0]

structure GetRawData where
  romType : RomType
  deriving DecidableEq, Repr

namespace GetRawData

def binarySize : ℕ := RomType.binarySize

def fromBuffer (buf : List UInt8) : Except (Failure Error) GetRawData :=
  decode (readRomType >>= fun romType => pure ⟨romType⟩) buf

def toBuffer (g : GetRawData) : Except (Failure Error) (List UInt8) :=
  encode (binarySize + 4)
    (write (toBytes32 Command.getRawData.toU32) >>= fun _ => write g.romType.toBytes)

end GetRawData

/-- A SHA1 digest. -/
abbrev Sha1 : Type := Vector UInt8 20

/-- The next 20 bytes as a digest. -/
def readSha1 : Rpc Sha1 := bytes 20 >>= fun buf =>
  if h : buf.length = 20 then pure ⟨buf.toArray, by simpa using h⟩ else Prog.throw .panicked

structure RomRawData where
  romType : RomType
  checksum : UInt32
  sha1 : Sha1
  deriving DecidableEq, Repr

namespace RomRawData

def binarySize : ℕ := RomType.binarySize + 4 + 20

def fromBuffer (buf : List UInt8) : Except (Failure Error) RomRawData :=
  decode (readRomType >>= fun romType => readWord >>= fun checksum =>
    readSha1 >>= fun sha1 => pure ⟨romType, checksum, sha1⟩) buf

def toBuffer (r : RomRawData) : Except (Failure Error) (List UInt8) :=
  encode binarySize (write r.romType.toBytes >>= fun _ =>
    write (toBytes32 r.checksum) >>= fun _ => write r.sha1.toList)

end RomRawData

structure LabRomEntry where
  name : String
  partNumber : String
  checksum : UInt32
  sha1 : Sha1
  deriving DecidableEq, Repr

namespace LabRomEntry

/-- Goes on where a ROM's entry follows the response word. -/
def checkResponse (rsp : UInt32) : Except Error PUnit :=
  match Response.fromU32 rsp with
  | .romEntry => .ok ⟨⟩
  | .noRom => .error .noRom
  | .romNotRecognised => .error .romNotRecognised
  | _ => .error .invalidResponse

def readString : Rpc String := terminated .invalidData >>= fun buf =>
  match fromUtf8 buf with
  | some s => pure s
  | none => Prog.throw (.refused .invalidData)

def fromBuffer (buf : List UInt8) : Except (Failure Error) LabRomEntry :=
  decode (readWord >>= fun rsp => checked (checkResponse rsp) >>= fun _ =>
    readString >>= fun name => readString >>= fun partNumber =>
    readWord >>= fun checksum => readSha1 >>= fun sha1 =>
    pure ⟨name, partNumber, checksum, sha1⟩) buf

def bufSize (e : LabRomEntry) : ℕ :=
  4 + (strBytes e.name).length + 1 + (strBytes e.partNumber).length + 1 + 4 + 20

def toBuffer (e : LabRomEntry) : Except (Failure Error) (List UInt8) :=
  encode e.bufSize (write (toBytes32 Response.romEntry.toU32) >>= fun _ =>
    writeTerminated e.name >>= fun _ => writeTerminated e.partNumber >>= fun _ =>
    write (toBytes32 e.checksum) >>= fun _ => write e.sha1.toList)

end LabRomEntry

/-! ### The fields of a message, read and written -/

lemma bytes_reads {n : ℕ} {bs : List UInt8} (h : bs.length = n) : Reads (bytes n) bs bs :=
  h ▸ Reads.need_slice _ bs

lemma readWord_reads (w : UInt32) : Reads readWord (toBytes32 w) w := Reads.need_word _ w

lemma readRomType_reads (t : RomType) : Reads readRomType t.toBytes t :=
  (bytes_reads t.length_toBytes).bind_pure (by rw [RomType.fromBytes_toBytes]; rfl)

lemma readSha1_reads (sha1 : Sha1) : Reads readSha1 sha1.toList sha1 :=
  (bytes_reads (by simp)).bind_pure (by
    rw [dif_pos (by simp)]
    exact congrArg pure (Vector.toArray_inj.mp (Array.toArray_toList)))

lemma zero_eq_ofNat (n : ℕ) : 0 = UInt8.ofNat n ↔ n % 256 = 0 := by
  rw [← UInt8.toNat_inj, UInt8.toNat_ofNat', eq_comm]
  rfl

/-- UTF-8 has a zero byte for the character 0 only. -/
lemma eq_nul_of_zero_mem {c : Char} (h : 0 ∈ String.utf8EncodeChar c) : c = Char.ofNat 0 := by
  simp only [String.utf8EncodeChar] at h
  split_ifs at h <;> simp only [List.mem_cons, List.not_mem_nil, or_false, zero_eq_ofNat] at h
  · exact Char.toNat_inj.mp (show c.val.toNat = 0 by omega)
  all_goals omega

/-- A string with no NUL in it. -/
abbrev NoNul (s : String) : Prop := Char.ofNat 0 ∉ s.toList

lemma zero_notMem_strBytes {s : String} (h : NoNul s) : 0 ∉ strBytes s := by
  have hbytes : strBytes s = s.toList.flatMap String.utf8EncodeChar := by
    conv_lhs => rw [← String.ofList_toList (s := s)]
    simp only [strBytes, String.toByteArray_ofList, List.utf8Encode]
    simp
  rw [hbytes]
  intro h0
  obtain ⟨c, hc, hc0⟩ := List.mem_flatMap.mp h0
  exact h (eq_nul_of_zero_mem hc0 ▸ hc)

lemma readString_reads {s : String} (h : NoNul s) :
    Reads LabRomEntry.readString (strBytes s ++ [0]) s :=
  (Reads.terminated _ (zero_notMem_strBytes h)).bind_pure (by simp)

lemma write_writes (bs : List UInt8) : Writes (write bs) bs :=
  (Writes.put bs).need _ le_rfl

lemma writeTerminated_writes (s : String) : Writes (writeTerminated s) (strBytes s ++ [0]) :=
  ((Writes.put _).bind (Writes.put [0])).need _ (by simp)

/-! ### Whole messages -/

section

variable {α : Type}

/-- A message whose encoding is read back, whatever follows it, and is refused cut short. -/
def ReadsBack (enc : α → Except (Failure Error) (List UInt8))
    (dec : List UInt8 → Except (Failure Error) α) (a : α) : Prop :=
  ∃ bs, enc a = .ok bs ∧ (∀ rest, dec (bs ++ rest) = .ok a) ∧
    ∀ cut, cut <+: bs → cut ≠ bs → ∃ e, dec cut = .error (.refused e)

/-- A message whose reader reads what its writer writes. -/
lemma readsBack_of_reads {r : Rpc α} {w : Rpc PUnit} {a : α} {bs : List UInt8} {size : ℕ}
    {enc : α → Except (Failure Error) (List UInt8)} (hr : Reads r bs a) (hw : Writes w bs)
    (henc : enc a = encode size w) (hsize : size = bs.length) : ReadsBack enc (decode r) a :=
  ⟨bs, henc.trans (hw.encode hsize), hr.decode_append, fun _ => hr.decode_cut⟩

end

lemma RomRawData.readsBack (r : RomRawData) : ReadsBack toBuffer fromBuffer r := by
  refine readsBack_of_reads ((readRomType_reads r.romType).bind ?_)
    ((write_writes _).bind ((write_writes _).bind (write_writes _))) rfl ?_
  · refine (readWord_reads r.checksum).bind ?_
    exact (readSha1_reads r.sha1).bind_pure rfl
  · simp [binarySize]

lemma LabRomEntry.readsBack (e : LabRomEntry) (hname : NoNul e.name)
    (hpart : NoNul e.partNumber) : ReadsBack toBuffer fromBuffer e := by
  refine readsBack_of_reads ((readWord_reads Response.romEntry.toU32).bind ?_)
    ((write_writes _).bind ((writeTerminated_writes _).bind ((writeTerminated_writes _).bind
      ((write_writes _).bind (write_writes _))))) rfl ?_
  · have hresponse : Reads (checked (checkResponse Response.romEntry.toU32)) [] PUnit.unit :=
      Reads.pure _
    rw [← List.nil_append (_ ++ _)]
    refine hresponse.bind ((readString_reads hname).bind ((readString_reads hpart).bind ?_))
    refine (readWord_reads e.checksum).bind ?_
    exact (readSha1_reads e.sha1).bind_pure rfl
  · simp [bufSize]
    omega

/-! ### Every message -/

/-- Something sent between the Lab and its host. -/
inductive Item
  | labRomEntry (e : LabRomEntry)
  | romRawData (r : RomRawData)
  | getRawData (g : GetRawData)
  | command (c : Command)
  | response (r : Response)

namespace Item

/-- An entry's strings end at the zero byte put after them. -/
def Sendable : Item → Prop
  | .labRomEntry e => NoNul e.name ∧ NoNul e.partNumber
  | _ => True

/-- What is sent is what is received. -/
def RoundTrips : Item → Prop
  | .labRomEntry e => ReadsBack LabRomEntry.toBuffer LabRomEntry.fromBuffer e
  | .romRawData r => ReadsBack RomRawData.toBuffer RomRawData.fromBuffer r
  | .getRawData g => ReadsBack GetRawData.toBuffer GetRawData.fromBuffer g
  | .command c => Command.fromU32 c.toU32 = c
  | .response r => Response.fromU32 r.toU32 = r

/-- A request for raw data, or the command word of one. -/
def IsGetRawData : Item → Prop
  | .getRawData _ => True
  | .command c => c = .getRawData
  | _ => False

end Item

lemma GetRawData.toBuffer_eq (g : GetRawData) :
    g.toBuffer = .ok (toBytes32 Command.getRawData.toU32 ++ g.romType.toBytes) :=
  ((write_writes _).bind (write_writes _)).encode (by simp [binarySize]; rfl)

/-- The command word, read as the type of ROM it stands before. -/
lemma GetRawData.fromBuffer_command (rest : List UInt8) :
    fromBuffer (toBytes32 Command.getRawData.toU32 ++ rest) =
      .ok ⟨.type2316 .low .low .low⟩ := by
  have hword : Reads readRomType (toBytes32 Command.getRawData.toU32)
      (.type2316 .low .low .low) := readRomType_reads (.type2316 .low .low .low)
  have hread : Reads (readRomType >>= fun romType => pure (⟨romType⟩ : GetRawData)) _ _ :=
    hword.bind_pure rfl
  exact hread.decode_append rest

/-- A request is accepted once its command word is there, so never refused cut short. -/
lemma GetRawData.not_readsBack (g : GetRawData) : ¬ReadsBack toBuffer fromBuffer g := by
  rintro ⟨bs, hto, -, hcut⟩
  obtain rfl := Except.ok.inj (hto.symm.trans g.toBuffer_eq)
  have hne : toBytes32 Command.getRawData.toU32 ≠
      toBytes32 Command.getRawData.toU32 ++ g.romType.toBytes := fun heq => by
    have hlen := congrArg List.length heq
    simp [RomType.binarySize] at hlen
  obtain ⟨e, he⟩ := hcut _ (List.prefix_append _ _) hne
  have hread := fromBuffer_command []
  rw [List.append_nil, he] at hread
  cases hread

/-- **Messages** are read back as they were sent, but for requests for raw data: the command is not
one that is recognised, and the message after it is read from the command on. -/
theorem Item.roundTrips_iff (i : Item) (h : i.Sendable) : i.RoundTrips ↔ ¬i.IsGetRawData := by
  rcases i with e | r | g | c | r
  · exact iff_of_true (e.readsBack h.1 h.2) id
  · exact iff_of_true r.readsBack id
  · exact iff_of_false g.not_readsBack (not_not.mpr trivial)
  · exact c.fromU32_toU32_iff
  · exact iff_of_true r.fromU32_toU32 id

theorem Item.labRomEntry_roundTrips :
    let entry : Item := .labRomEntry ⟨"Kernal", "901227-03", 0x1000, Vector.replicate 20 0x5a⟩
    entry.Sendable ∧ (entry.RoundTrips ↔ ¬entry.IsGetRawData) := by
  have hsend : Item.Sendable
      (.labRomEntry ⟨"Kernal", "901227-03", 0x1000, Vector.replicate 20 0x5a⟩) := by
    constructor <;> decide +kernel
  exact ⟨hsend, roundTrips_iff _ hsend⟩

/-- A request for the data of a 2364 with an active-low select is read as one for a 2316. -/
theorem Item.getRawData_not_roundTrips :
    let request : GetRawData := ⟨.type2364 .low⟩
    request.toBuffer = .ok [2, 0, 0, 0, 0, 0, 0, 0] ∧
      GetRawData.fromBuffer [2, 0, 0, 0, 0, 0, 0, 0] = .ok ⟨.type2316 .low .low .low⟩ ∧
      (Item.getRawData request).Sendable ∧ ¬(Item.getRawData request).RoundTrips := by
  refine ⟨by decide +kernel, by decide +kernel, trivial, GetRawData.not_readsBack _⟩

end OneRom.LabRpc
