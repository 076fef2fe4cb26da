import OneRom.Fallible
import OneRom.HexFile

/-!
The dumps of One ROM Lab: a ROM's bytes as Intel HEX or S-records, one record at a time from a
fixed buffer on the stack, each sent as it is made.

A dump sends what the image generator's encoder makes of the same bytes. A refused send stops it
part way, and a write past the end of its buffer would panic.
-/

namespace OneRom.LabDump

open OneRom.Fallible OneRom.HexFile

/-! ### A record's buffer -/

structure RecordBuf (cap : ℕ) where
  buf : Vector UInt8 cap
  pos : ℕ

variable {cap : ℕ}

namespace RecordBuf

def new : RecordBuf cap := ⟨Vector.replicate cap 0, 0⟩

/-- `none` is the panic of an index out of bounds. -/
def put (v : UInt8) (b : RecordBuf cap) : Option (RecordBuf cap) :=
  if h : b.pos < cap then some ⟨b.buf.set b.pos v h, b.pos + 1⟩ else none

/-- What is sent of the buffer. -/
def sent (b : RecordBuf cap) : Text := b.buf.toList.take b.pos

/-- The buffer holds `out` so far. -/
structure Holds (b : RecordBuf cap) (out : Text) : Prop where
  pos : b.pos = out.length
  sent : b.sent = out

lemma holds_new : (new : RecordBuf cap).Holds [] := ⟨rfl, rfl⟩

lemma put_holds {b : RecordBuf cap} {out : Text} (h : b.Holds out) (v : UInt8)
    (hroom : out.length < cap) : ∃ b', b.put v = some b' ∧ b'.Holds (out ++ [v]) := by
  have hpos : b.pos < cap := h.pos ▸ hroom
  refine ⟨_, dif_pos hpos, by simp [h.pos], ?_⟩
  have hout := h.sent
  have hset : (b.buf.set b.pos v hpos).toList = b.buf.toList.set b.pos v :=
    Vector.toList_set hpos
  simp only [RecordBuf.sent] at hout ⊢
  rw [hset, List.take_set, List.take_succ_eq_append_getElem (by simpa using hpos), hout,
    List.set_append_right _ _ (by simp [h.pos])]
  simp [h.pos]

end RecordBuf

open RecordBuf

/-- `f` puts exactly `t` on the buffer, where that fits. -/
def Writes (f : RecordBuf cap → Option (RecordBuf cap)) (t : Text) : Prop :=
  ∀ b out, b.Holds out → (out ++ t).length ≤ cap → ∃ b', f b = some b' ∧ b'.Holds (out ++ t)

lemma writes_nil : @Writes cap some [] := fun b out h _ => ⟨b, rfl, by simpa using h⟩

lemma writes_put (v : UInt8) : @Writes cap (put v) [v] := fun b out h hcap =>
  put_holds h v (by simpa using hcap)

lemma Writes.bind {f g : RecordBuf cap → Option (RecordBuf cap)} {s t : Text} (hf : Writes f s)
    (hg : Writes g t) : Writes (fun b => f b >>= g) (s ++ t) := by
  intro b out hb hcap
  rw [← List.append_assoc] at hcap ⊢
  obtain ⟨b', hfb, hb'⟩ := hf b out hb (le_trans (by simp) hcap)
  obtain ⟨b'', hgb, hb''⟩ := hg b' _ hb' hcap
  exact ⟨b'', by simp [hfb, hgb], hb''⟩

/-- What a whole record of text `t` leaves in a fresh buffer. -/
lemma Writes.sent {f : RecordBuf cap → Option (RecordBuf cap)} {t : Text} (h : Writes f t)
    (hcap : t.length ≤ cap) : (f new).map RecordBuf.sent = some t := by
  obtain ⟨b, hf, hb⟩ := h new [] holds_new hcap
  rw [hf, Option.map_some, hb.sent, List.nil_append]

/-! ### Hex digits -/

def writeHex8 (val : UInt8) (b : RecordBuf cap) : Option (RecordBuf cap) := do
  let b ← b.put (HEX.get ⟨(val >>> 4).toNat, high_lt val⟩)
  b.put (HEX.get ⟨(val &&& 0xF).toNat, low_lt val⟩)

def writeHex16 (val : UInt16) (b : RecordBuf cap) : Option (RecordBuf cap) := do
  let b ← writeHex8 (val >>> 8).toUInt8 b
  writeHex8 val.toUInt8 b

/-- A loop that writes bytes and adds them to the checksum. -/
def writeBytes : List UInt8 → UInt8 → RecordBuf cap → Option (RecordBuf cap × UInt8)
  | [], csum, b => some (b, csum)
  | byte :: bytes, csum, b => do
    let b ← writeHex8 byte b
    writeBytes bytes (csum + byte) b

def writeLineEnd (b : RecordBuf cap) : Option (RecordBuf cap) := do
  let b ← b.put (ascii '\r')
  b.put (ascii '\n')

lemma writes_hex8 (val : UInt8) : @Writes cap (writeHex8 val) (hexDigits val) :=
  (writes_put _).bind (writes_put _)

lemma writes_hex16 (val : UInt16) : @Writes cap (writeHex16 val)
    (hexDigits (val >>> 8).toUInt8 ++ hexDigits val.toUInt8) :=
  (writes_hex8 _).bind (writes_hex8 _)

lemma writes_lineEnd : @Writes cap writeLineEnd CRLF := (writes_put _).bind (writes_put _)

/-- The loop adds up what it writes, and what follows it sees the sum. -/
lemma writes_bytes {g : UInt8 → RecordBuf cap → Option (RecordBuf cap)} {t : Text}
    (bytes : List UInt8) (csum : UInt8) (hg : Writes (g (csum + bytes.sum)) t) :
    Writes (fun b => writeBytes bytes csum b >>= fun p => g p.2 p.1)
      (bytes.flatMap hexDigits ++ t) := by
  induction bytes generalizing csum with
  | nil => simpa [writeBytes] using hg
  | cons byte bytes ih =>
    have hrest := ih (csum + byte) (by simpa [add_assoc] using hg)
    have hall := (@writes_hex8 cap byte).bind hrest
    simpa [writeBytes, Option.bind_eq_bind, Option.bind_assoc] using hall

/-! ### Sending -/

/-- How a dump stops short: a send is refused, or it panics. -/
inductive Stop
  | refused
  | panicked
  deriving DecidableEq, Repr

/-- A dump, over the strings sent so far. -/
abbrev Dump := Prog (List Text) Stop PUnit

variable (refuses : List Text → Bool)

/-- Sends a string over CDC. `refuses` says whether the next one is refused. -/
def send (s : Text) : Dump := fun sent =>
  if refuses sent then (.error .refused, sent) else (.ok ⟨⟩, sent ++ [s])

/-- Sends a record once it is written. -/
def sendRecordOf (f : RecordBuf cap → Option (RecordBuf cap)) : Dump :=
  match f new with
  | some b => send refuses b.sent
  | none => Prog.throw .panicked

/-- `t` has been sent after `before`, or a send was refused on the way. -/
def Outcome (refuses : List Text → Bool) (before : List Text) (t : Text) :
    Except Stop PUnit × List Text → Prop
  | (.ok _, sent) => sent.flatten = before.flatten ++ t
  | (.error .refused, sent) => refuses sent = true ∧ ∃ s, s <+: t ∧
      sent.flatten = before.flatten ++ s
  | (.error .panicked, _) => False

/-- `x` sends exactly `t`. -/
def Sends (x : Dump) (t : Text) : Prop := ∀ before, Outcome refuses before t (x before)

variable {refuses}

lemma sends_pure : Sends refuses (pure ⟨⟩) [] := fun before => by simp [Outcome]

lemma sends_send (s : Text) : Sends refuses (send refuses s) s := by
  intro before
  cases h : refuses before with
  | true =>
    simp only [send, h, if_true, Outcome, true_and]
    exact ⟨[], List.nil_prefix, by simp⟩
  | false => simp [send, h, Outcome]

lemma Sends.bind {x y : Dump} {s t : Text} (hx : Sends refuses x s) (hy : Sends refuses y t) :
    Sends refuses (x >>= fun _ => y) (s ++ t) := by
  intro before
  have hfirst := hx before
  rw [Prog.bind_run]
  generalize x before = first at hfirst ⊢
  rcases first with ⟨(_ | _) | ⟨⟩, sent⟩
  · obtain ⟨hrefuses, u, hu, heq⟩ := hfirst
    exact ⟨hrefuses, u, hu.trans (List.prefix_append s t), heq⟩
  · exact hfirst
  · have hsent : sent.flatten = before.flatten ++ s := hfirst
    have hsecond := hy sent
    change Outcome refuses before (s ++ t) (y sent)
    generalize y sent = second at hsecond ⊢
    rcases second with ⟨(_ | _) | ⟨⟩, sent'⟩
    · obtain ⟨hrefuses, u, hu, heq⟩ := hsecond
      exact ⟨hrefuses, s ++ u, by simpa using hu, by rw [heq, hsent, List.append_assoc]⟩
    · exact hsecond
    · have hsent' : sent'.flatten = sent.flatten ++ t := hsecond
      change sent'.flatten = _
      rw [hsent', hsent, List.append_assoc]

lemma sends_recordOf {f : RecordBuf cap → Option (RecordBuf cap)} {t : Text} (h : Writes f t)
    (hcap : t.length ≤ cap) : Sends refuses (sendRecordOf refuses f) t := by
  obtain ⟨b, hf, hb⟩ := h new [] holds_new hcap
  have hsent : b.sent = t := hb.sent
  rw [sendRecordOf, hf]
  exact hsent ▸ sends_send b.sent

/-! ### Reading the ROM -/

/-- The chunk array, filled from the ROM up to its length. -/
def readChunk (reader : ℕ → UInt8) (addr chunkLen : ℕ) : Vector UInt8 16 :=
  Vector.ofFn fun i => if i.1 < chunkLen then reader (addr + i) else 0

/-- The ROM's bytes from `start` on. -/
def content (reader : ℕ → UInt8) (start count : ℕ) : List UInt8 :=
  (List.range count).map fun i => reader (start + i)

@[simp] lemma length_content (reader : ℕ → UInt8) (start count : ℕ) :
    (content reader start count).length = count := by
  simp [content]

/-- What a record carries is what the encoder cuts out of the whole image. -/
lemma take_readChunk (reader : ℕ → UInt8) {start count offset chunkLen : ℕ} (hlen : chunkLen ≤ 16)
    (hcount : offset + chunkLen ≤ count) :
    (readChunk reader (start + offset) chunkLen).toList.take chunkLen =
      ((content reader start count).drop offset).take chunkLen := by
  apply List.ext_getElem
  · simp
    omega
  · intro i hi hi'
    simp only [List.length_take, Vector.length_toList] at hi
    have hchunk : i < chunkLen := by omega
    simp [readChunk, content, hchunk, add_assoc]

/-! ### Intel HEX -/

namespace Ihex

def DATA_RECORD_BUF : ℕ := 45
def EXTENDED_ADDR_BUF : ℕ := 17

def dataRecord (addr : UInt32) (data : List UInt8) (b : RecordBuf DATA_RECORD_BUF) :
    Option (RecordBuf DATA_RECORD_BUF) := do
  let byteCount := data.length.toUInt8
  let b ← b.put (ascii ':')
  let b ← writeHex8 byteCount b
  let b ← writeHex16 addr.toUInt16 b
  let b ← writeHex8 0x00 b
  let csum := byteCount + (addr >>> 8).toUInt8 + addr.toUInt8
  let (b, csum) ← writeBytes data csum b
  let b ← writeHex8 (0 - csum) b
  writeLineEnd b

def extendedLinearAddr (upper : UInt16) (b : RecordBuf EXTENDED_ADDR_BUF) :
    Option (RecordBuf EXTENDED_ADDR_BUF) := do
  let b ← b.put (ascii ':')
  let b ← writeHex8 0x02 b
  let b ← writeHex16 0x0000 b
  let b ← writeHex8 0x04 b
  let b ← writeHex16 upper b
  let csum := (0x02 : UInt8) + (0x04 : UInt8) + (upper >>> 8).toUInt8 + upper.toUInt8
  let b ← writeHex8 (0 - csum) b
  writeLineEnd b

lemma addr_high (addr : UInt32) : (addr.toUInt16 >>> 8).toUInt8 = (addr >>> 8).toUInt8 := by
  apply UInt8.toNat_inj.mp
  simp [Nat.shiftRight_eq_div_pow]
  omega

lemma addr_low (addr : UInt32) : addr.toUInt16.toUInt8 = addr.toUInt8 := by
  apply UInt8.toNat_inj.mp
  simp

lemma writes_dataRecord (addr : UInt32) (data : List UInt8) :
    Writes (dataRecord addr data) (pushDataRecord [] addr.toUInt16 data) := by
  have h : Writes (dataRecord addr data) _ :=
    (writes_put (ascii ':')).bind <| (writes_hex8 data.length.toUInt8).bind <|
      (writes_hex16 addr.toUInt16).bind <| (writes_hex8 0).bind <|
        @writes_bytes _ (fun csum b => writeHex8 (0 - csum) b >>= writeLineEnd) _ data
          (data.length.toUInt8 + (addr >>> 8).toUInt8 + addr.toUInt8)
          ((writes_hex8 _).bind writes_lineEnd)
  simpa [pushDataRecord, pushBytes_eq, pushHex8, addr_high, addr_low] using h

lemma writes_extendedLinearAddr (upper : UInt16) :
    Writes (extendedLinearAddr upper) (pushElaRecord [] upper) := by
  have h : Writes (extendedLinearAddr upper) _ :=
    (writes_put (ascii ':')).bind <| (writes_hex8 0x02).bind <| (writes_hex16 0x0000).bind <|
      (writes_hex8 0x04).bind <| (writes_hex16 upper).bind <| (writes_hex8 _).bind writes_lineEnd
  have hhead : text ":02000004" = ascii ':' :: (hexDigits 0x02 ++ (hexDigits 0x00 ++
      (hexDigits 0x00 ++ hexDigits 0x04))) := by decide
  simpa [pushElaRecord, pushHex8, hhead] using h

variable (refuses : List Text → Bool)

def sendDataRecord (addr : UInt32) (data : List UInt8) : Dump :=
  if data.isEmpty ∨ 16 < data.length then Prog.throw .panicked
  else sendRecordOf refuses (dataRecord addr data)

def sendExtendedLinearAddr (upper : UInt16) : Dump :=
  sendRecordOf refuses (extendedLinearAddr upper)

def sendEofRecord : Dump := send refuses (text ":00000001FF\r\n")

variable {refuses}

lemma sends_dataRecord {addr : UInt32} {data : List UInt8} (hne : data ≠ [])
    (hlen : data.length ≤ 16) :
    Sends refuses (sendDataRecord refuses addr data) (pushDataRecord [] addr.toUInt16 data) := by
  rw [sendDataRecord, if_neg (by simp [hne]; omega)]
  refine sends_recordOf (writes_dataRecord addr data) ?_
  simp [pushDataRecord, pushBytes_eq, pushHex8, CRLF, DATA_RECORD_BUF]
  omega

lemma sends_extendedLinearAddr (upper : UInt16) :
    Sends refuses (sendExtendedLinearAddr refuses upper) (pushElaRecord [] upper) :=
  sends_recordOf (writes_extendedLinearAddr upper)
    (by simp [pushElaRecord, pushHex8, CRLF, text, EXTENDED_ADDR_BUF])

variable (refuses) (reader : ℕ → UInt8)

/-- The records from `addr` to `stop`, with an extended address before each that starts in another
64 KB than the one before. -/
def dumpRecords (stop addr : ℕ) (currentUpper : Option UInt16) : Dump :=
  if _h : addr < stop then do
    let chunkLen := min (stop - addr) 16
    let upper := UInt16.ofNat (addr >>> 16)
    (if currentUpper ≠ some upper then sendExtendedLinearAddr refuses upper else pure ⟨⟩)
    let chunk := readChunk reader addr chunkLen
    sendDataRecord refuses (UInt32.ofNat addr) (chunk.toList.take chunkLen)
    dumpRecords stop (addr + chunkLen) (some upper)
  else pure ⟨⟩
termination_by stop - addr

/-- An end past what 32 bits hold would panic. -/
def dump (start count : ℕ) : Dump :=
  if count = 0 then pure ⟨⟩
  else if 2 ^ 32 ≤ start + count then Prog.throw .panicked
  else do
    dumpRecords refuses reader (start + count) start none
    sendEofRecord refuses

variable {refuses} {reader}

/-- From any record on, what is sent is what the encoder pushes. -/
lemma sends_dumpRecords {start count : ℕ} (offset : ℕ) (currentUpper : Option UInt16) :
    Sends refuses (dumpRecords refuses reader (start + count) (start + offset) currentUpper)
      (pushIhexRecords (content reader start count) start offset currentUpper []) := by
  induction h : count - offset using Nat.strong_induction_on generalizing offset currentUpper with
  | _ n ih =>
  rw [dumpRecords]
  by_cases hlt : offset < count
  · have hstop : start + offset < start + count := by omega
    have hlen : start + count - (start + offset) = count - offset := by omega
    have hchunk := @take_readChunk reader start count offset (min (count - offset) 16)
      (by omega) (by omega)
    rw [dif_pos hstop, hlen, pushIhexRecords_pos (by simpa using hlt), pushIhexRecords_out,
      List.nil_append, length_content, ihexRecord, length_content, List.append_assoc]
    refine .bind ?_ (.bind ?_ ?_)
    · by_cases hupper : currentUpper ≠ some (UInt16.ofNat ((start + offset) >>> 16))
      · rw [if_pos hupper, if_pos hupper]
        exact sends_extendedLinearAddr _
      · rw [if_neg hupper, if_neg hupper]
        exact sends_pure
    · rw [hchunk]
      have hsends := @sends_dataRecord refuses (UInt32.ofNat (start + offset))
        (((content reader start count).drop offset).take (min (count - offset) 16))
        (by simp; omega) (by simp)
      simpa using hsends
    · rw [Nat.add_assoc]
      exact ih _ (by omega) _ _ rfl
  · rw [dif_neg (by omega), pushIhexRecords, length_content, if_neg hlt]
    exact sends_pure

lemma sends_dump {start count : ℕ} (hcount : 0 < count) (hend : start + count < 2 ^ 32) :
    Sends refuses (dump refuses reader start count)
      (encodeIhex (content reader start count) start) := by
  have hne : content reader start count ≠ [] := by simp [← List.length_pos_iff, hcount]
  rw [dump, if_neg (by omega), if_neg (by omega), encodeIhex, if_pos (by simpa using hne)]
  exact (sends_dumpRecords 0 none).bind (sends_send _)

end Ihex

/-! ### S-records -/

namespace Srec

def RECORD_BUF : ℕ := 48

def addressWidth (recordType : UInt8) : ℕ :=
  if recordType = 2 ∨ recordType = 6 ∨ recordType = 8 then 3
  else if recordType = 3 ∨ recordType = 7 then 4
  else 2

def dataRecordType (topAddress : ℕ) : UInt8 :=
  if topAddress ≤ 0xFFFF then 1 else if topAddress ≤ 0xFFFFFF then 2 else 3

def record (recordType : UInt8) (width address : ℕ) (data : List UInt8)
    (b : RecordBuf RECORD_BUF) : Option (RecordBuf RECORD_BUF) := do
  let count := (width + data.length + 1).toUInt8
  let b ← b.put (ascii 'S')
  let b ← b.put (ascii '0' + recordType)
  let b ← writeHex8 count b
  let (b, csum) ← writeBytes ((List.range width).reverse.map fun i =>
    UInt8.ofNat (address >>> (i * 8))) count b
  let (b, csum) ← writeBytes data csum b
  let b ← writeHex8 (~~~csum) b
  writeLineEnd b

variable (refuses : List Text → Bool)

def sendRecord (recordType : UInt8) (width address : ℕ) (data : List UInt8) : Dump :=
  if 16 < data.length ∨ width < 2 ∨ 4 < width then Prog.throw .panicked
  else sendRecordOf refuses (record recordType width address data)

variable (reader : ℕ → UInt8)

/-- The data records from `addr` to `stop`, and how many there are with those before. -/
def dumpRecords (recordType : UInt8) (width stop addr records : ℕ) :
    Prog (List Text) Stop ℕ :=
  if _h : addr < stop then do
    let chunkLen := min (stop - addr) 16
    let chunk := readChunk reader addr chunkLen
    sendRecord refuses recordType width addr (chunk.toList.take chunkLen)
    dumpRecords recordType width stop (addr + chunkLen) (records + 1)
  else pure records
termination_by stop - addr

/-- An end past what 32 bits hold would panic, once the header is sent. -/
def dump (start count : ℕ) : Dump :=
  if count = 0 then pure ⟨⟩
  else if 2 ^ 32 ≤ start + count then do
    sendRecord refuses 0 2 0 []
    Prog.throw .panicked
  else do
    sendRecord refuses 0 2 0 []
    let stop := start + count
    let recordType := dataRecordType (stop - 1)
    let width := addressWidth recordType
    let records ← dumpRecords refuses reader recordType width stop start 0
    (if records ≤ 0xFFFF then sendRecord refuses 5 2 records []
      else sendRecord refuses 6 3 records [])
    let terminator := if recordType = 1 then 9 else if recordType = 2 then 8 else 7
    sendRecord refuses terminator width 0 []

lemma writes_record (recordType : UInt8) (width address : ℕ) (data : List UInt8) :
    Writes (record recordType width address data)
      (pushRecord [] recordType width address data) := by
  have h : Writes (record recordType width address data) _ :=
    (writes_put (ascii 'S')).bind <| (writes_put (ascii '0' + recordType)).bind <|
      (writes_hex8 (width + data.length + 1).toUInt8).bind <|
        @writes_bytes _ (fun csum b => writeBytes data csum b >>= fun p =>
            writeHex8 (~~~p.2) p.1 >>= writeLineEnd) _ (addressBytes width address)
          (width + data.length + 1).toUInt8 <|
          @writes_bytes _ (fun csum b => writeHex8 (~~~csum) b >>= writeLineEnd) _ data _ <|
            (writes_hex8 _).bind writes_lineEnd
  simpa [pushRecord, pushBytes_eq, pushHex8] using h

variable {refuses} {reader}

lemma sends_record {recordType : UInt8} {width address : ℕ} {data : List UInt8}
    (hlen : data.length ≤ 16) (hmin : 2 ≤ width) (hmax : width ≤ 4) :
    Sends refuses (sendRecord refuses recordType width address data)
      (pushRecord [] recordType width address data) := by
  rw [sendRecord, if_neg (by omega)]
  refine sends_recordOf (writes_record recordType width address data) ?_
  simp [pushRecord, pushBytes_eq, pushHex8, CRLF, RECORD_BUF]
  omega

/-- The data records are the encoder's, and what follows them sees as many. -/
lemma sends_dumpRecords {start count width : ℕ} (recordType : UInt8) (hmin : 2 ≤ width)
    (hmax : width ≤ 4) {rest : ℕ → Dump} {t : ℕ → Text} (hrest : ∀ n, Sends refuses (rest n) (t n))
    (offset records : ℕ) :
    Sends refuses
      (dumpRecords refuses reader recordType width (start + count) (start + offset) records >>= rest)
      ((pushSrecRecords (content reader start count) start recordType width offset records []).1 ++
        t (pushSrecRecords (content reader start count) start recordType width offset records
          []).2) := by
  induction h : count - offset using Nat.strong_induction_on generalizing offset records with
  | _ n ih =>
  rw [dumpRecords]
  by_cases hlt : offset < count
  · have hstop : start + offset < start + count := by omega
    have hlen : start + count - (start + offset) = count - offset := by omega
    have hchunk := @take_readChunk reader start count offset (min (count - offset) 16)
      (by omega) (by omega)
    rw [dif_pos hstop, hlen, pushSrecRecords_pos (by simpa using hlt), pushSrecRecords_out,
      List.nil_append, length_content, List.append_assoc]
    dsimp only
    rw [Prog.bind_assoc]
    refine Sends.bind (y := dumpRecords refuses reader recordType width (start + count)
      (start + offset + min (count - offset) 16) (records + 1) >>= rest) ?_ ?_
    · rw [hchunk]
      exact sends_record (by simp) hmin hmax
    · rw [Nat.add_assoc]
      exact ih _ (by omega) _ _ rfl
  · rw [dif_neg (by omega), pushSrecRecords, length_content, if_neg hlt, List.nil_append]
    exact hrest records

/-- Both ends take the same width for a data record type. -/
lemma addressWidth_eq (topAddress : ℕ) :
    HexFile.addressWidth (HexFile.dataRecordType topAddress) =
        some (addressWidth (dataRecordType topAddress)) ∧
      2 ≤ addressWidth (dataRecordType topAddress) ∧
      addressWidth (dataRecordType topAddress) ≤ 4 := by
  unfold HexFile.dataRecordType dataRecordType
  split
  · decide
  · split <;> decide

lemma sends_dump {start count : ℕ} (hcount : 0 < count) (hend : start + count < 2 ^ 32) :
    Sends refuses (dump refuses reader start count)
      (encodeSrec (content reader start count) start) := by
  have htop : start + ((content reader start count).length - 1) = start + count - 1 := by
    rw [length_content]
    omega
  obtain ⟨hwidth, hmin, hmax⟩ := addressWidth_eq (start + count - 1)
  rw [dump, if_neg (by omega), if_neg (by omega), encodeSrec_eq (htop ▸ hwidth), htop]
  refine Sends.bind (sends_record (by simp) le_rfl (by decide)) ?_
  refine @sends_dumpRecords refuses reader start count _ _ hmin hmax _ (fun n => countRecord n ++
    pushRecord [] (terminator (dataRecordType (start + count - 1)))
      (addressWidth (dataRecordType (start + count - 1))) 0 []) (fun records => ?_) 0 0
  refine Sends.bind ?_ (sends_record (by simp) hmin hmax)
  unfold countRecord
  split
  · exact sends_record (by simp) le_rfl (by decide)
  · exact sends_record (by simp) (by decide) (by decide)

end Srec

/-! ### Both dumps -/

/-- With nothing refused, a dump sends the whole text and ends. -/
lemma Sends.all {x : Dump} {t : Text} (h : Sends (fun _ => false) x t) :
    ∃ sent, x [] = (.ok ⟨⟩, sent) ∧ sent.flatten = t := by
  have hrun := h []
  rcases hx : x [] with ⟨(_ | _) | ⟨⟩, sent⟩
  · rw [hx] at hrun
    exact absurd hrun.1 Bool.false_ne_true
  · rw [hx] at hrun
    exact hrun.elim
  · rw [hx] at hrun
    exact ⟨sent, rfl, by simpa [Outcome] using hrun⟩

/-- **Lab's dumps are the generator's files**: the records a dump sends are the bytes of the
encoder's text, whichever of its sends are refused, and no record goes past its buffer. -/
theorem dumps_eq_encoders (reader : ℕ → UInt8) {start count : ℕ} (hcount : 0 < count)
    (hend : start + count < 2 ^ 32) :
    (∃ sent, Ihex.dump (fun _ => false) reader start count [] = (.ok ⟨⟩, sent) ∧
      sent.flatten = encodeIhex (content reader start count) start) ∧
    (∃ sent, Srec.dump (fun _ => false) reader start count [] = (.ok ⟨⟩, sent) ∧
      sent.flatten = encodeSrec (content reader start count) start) ∧
    ∀ refuses,
      Sends refuses (Ihex.dump refuses reader start count)
        (encodeIhex (content reader start count) start) ∧
      Sends refuses (Srec.dump refuses reader start count)
        (encodeSrec (content reader start count) start) :=
  ⟨(Ihex.sends_dump hcount hend).all, (Srec.sends_dump hcount hend).all, fun _ =>
    ⟨Ihex.sends_dump hcount hend, Srec.sends_dump hcount hend⟩⟩

/-- Twenty bytes across a 64 KB boundary. -/
theorem dumps_eq_encoders_twenty :
    ∃ sent, Ihex.dump (fun _ => false) UInt8.ofNat 0xFFFE 20 [] = (.ok ⟨⟩, sent) ∧
      sent.flatten = encodeIhex (content UInt8.ofNat 0xFFFE 20) 0xFFFE :=
  (dumps_eq_encoders UInt8.ofNat (by decide) (by decide)).1

end OneRom.LabDump
