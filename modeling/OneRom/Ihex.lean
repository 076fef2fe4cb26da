import OneRom.HexLines

/-!
Intel HEX there and back: what the encoder writes of an image, the decoder reads as that image,
wherever it is loaded.

The decoder's base and the encoder's upper half of the address agree before every data record, so
the record is placed behind those before it, also where it passes the end of its 64 KB.
-/

namespace OneRom.Ihex

open OneRom.Checks OneRom.ChipTypes OneRom.HexFile OneRom.HexLines OneRom.ImageFile
  OneRom.Placement OneRom.Scatter OneRom.SlotArg

/-! ### One record -/

/-- A record's bytes up to its checksum. -/
def body (address : UInt16) (recordType : UInt8) (data : List UInt8) : List UInt8 :=
  data.length.toUInt8 :: (address >>> 8).toUInt8 :: address.toUInt8 :: recordType :: data

/-- A record's line, less its end. -/
def recordLine (address : UInt16) (recordType : UInt8) (data : List UInt8) : List UInt8 :=
  ascii ':' ::
    (body address recordType data ++ [0 - (body address recordType data).sum]).flatMap hexDigits

lemma solid_recordLine (address : UInt16) (recordType : UInt8) (data : List UInt8) :
    Solid (recordLine address recordType data) :=
  (solid_hexDigits _).cons (by decide)

lemma pushDataRecord_line (address : UInt16) (data : List UInt8) :
    pushDataRecord [] address data = recordLine address 0x00 data ++ CRLF := by
  simp [pushDataRecord, pushBytes_eq, pushHex8, recordLine, body, add_assoc]

lemma pushElaRecord_line (upper : UInt16) :
    pushElaRecord [] upper =
      recordLine 0 0x04 [(upper >>> 8).toUInt8, upper.toUInt8] ++ CRLF := by
  have hmark : text ":02000004" =
      ascii ':' :: ([0x02, 0x00, 0x00, 0x04] : List UInt8).flatMap hexDigits := by
    decide
  have hbody : body 0 0x04 [(upper >>> 8).toUInt8, upper.toUInt8] =
      ([0x02, 0x00, 0x00, 0x04] : List UInt8) ++ [(upper >>> 8).toUInt8, upper.toUInt8] := rfl
  rw [pushElaRecord, hmark, recordLine, hbody]
  simp [pushHex8, add_assoc]
  rfl

lemma eofRecord_line : EOF_RECORD = recordLine 0 0x01 [] ++ CRLF := by
  decide

/-- The two bytes of a 16-bit number, the higher first. -/
lemma bigEndian_halves (n : UInt16) : bigEndian [(n >>> 8).toUInt8, n.toUInt8] = n.toNat := by
  have hn := n.toNat_lt
  simp [bigEndian, Nat.shiftRight_eq_div_pow]
  omega

/-- A record reads back as it was written. -/
lemma parseIhexRecord_line (address : UInt16) (recordType : UInt8) {data : List UInt8}
    (hlen : data.length < 256) (lineNo : ℕ) :
    parseIhexRecord (recordLine address recordType data) lineNo =
      .ok ⟨recordType, address.toNat, data⟩ := by
  have hcount : data.length.toUInt8.toNat = data.length := by
    simpa using Nat.mod_eq_of_lt hlen
  have hsum : (body address recordType data ++ [0 - (body address recordType data).sum]).sum = 0 := by
    rw [List.sum_append, List.sum_singleton]
    exact add_sub_cancel _ _
  rw [recordLine, parseIhexRecord, if_neg (by simp), decodeHexPairs_hexDigits]
  dsimp only
  rw [hsum, if_neg (by simp [body]), if_neg, if_neg (by simp)]
  · simp [body, hcount, bigEndian_halves]
  · simp [body, hcount]

/-! ### The decoder beside the encoder -/

section Run

variable (data : List UInt8) (loadAddress : ℕ)

/-- The upper half of the address at an offset. -/
def upperAt (offset : ℕ) : UInt16 := UInt16.ofNat ((loadAddress + offset) >>> 16)

/-- What the decoder holds where the encoder stands at an offset. -/
structure Follows (offset : ℕ) (currentUpper : Option UInt16) (s : IhexState) : Prop where
  acc : s.acc = ofCells (inARow (data.take offset)) (decide (0 < offset))
  base : ∀ upper, currentUpper = some upper → s.extendedBase = upper.toNat <<< 16
  unfinished : s.seenEof = false

variable {data loadAddress} {offset : ℕ} {currentUpper : Option UInt16} {s : IhexState}

lemma follows_new : Follows data 0 none ⟨.new, 0, false⟩ where
  acc := rfl
  base := nofun
  unfinished := rfl

variable (loadAddress) in
lemma Follows.ela (h : Follows data offset currentUpper s) (upper : UInt16) :
    ∃ s', (∀ lineNo, ImageFile.ihexRecord loadAddress lineNo s
        ⟨0x04, (0 : UInt16).toNat, [(upper >>> 8).toUInt8, upper.toUInt8]⟩ = .ok s') ∧
      Follows data offset (some upper) s' := by
  refine ⟨{ s with extendedBase := upper.toNat <<< 16 }, fun lineNo => ?_, h.acc, fun u hu => ?_,
    h.unfinished⟩
  · simp [ImageFile.ihexRecord, bigEndian_halves]
  · rw [← Option.some.inj hu]

/-- The base and a record's address make the address that the encoder stands at. -/
lemma Follows.address (h : Follows data offset (some (upperAt loadAddress offset)) s)
    (hlt : loadAddress + offset < 2 ^ 32) :
    s.extendedBase + (UInt16.ofNat (loadAddress + offset)).toNat = loadAddress + offset := by
  rw [h.base _ rfl, upperAt, UInt16.toNat_ofNat', UInt16.toNat_ofNat', Nat.shiftRight_eq_div_pow,
    Nat.shiftLeft_eq]
  omega

lemma Follows.chunk (h : Follows data offset (some (upperAt loadAddress offset)) s)
    (hlt : offset < data.length) (hmax : data.length ≤ MAX_IMAGE_SIZE)
    (hend : loadAddress + data.length ≤ 2 ^ 32) :
    ∃ s', (∀ lineNo, ImageFile.ihexRecord loadAddress lineNo s
        ⟨0x00, (UInt16.ofNat (loadAddress + offset)).toNat,
          (data.drop offset).take (min (data.length - offset) 16)⟩ = .ok s') ∧
      Follows data (offset + min (data.length - offset) 16) (some (upperAt loadAddress offset))
        s' := by
  have hfits : offset + min (data.length - offset) 16 ≤ data.length := by omega
  have hplace := place_piece (decide (0 < offset)) (by omega) hfits hmax hend
  rw [← h.acc] at hplace
  refine ⟨{ s with
    acc := ofCells (inARow (data.take (offset + min (data.length - offset) 16))) true },
    fun lineNo => ?_, ?_, h.base, h.unfinished⟩
  · rw [ImageFile.ihexRecord, if_pos rfl, h.address (by omega), hplace]
    rfl
  · rw [decide_eq_true (by omega : 0 < offset + min (data.length - offset) 16)]

/-- A record's line is read as the record. -/
lemma reads_line {s' : IhexState} (hs : s.seenEof = false) {address : UInt16} {recordType : UInt8}
    {bytes : List UInt8} (hlen : bytes.length < 256)
    (h : ∀ lineNo, ImageFile.ihexRecord loadAddress lineNo s
      ⟨recordType, address.toNat, bytes⟩ = .ok s') :
    Reads (ihexLines loadAddress) s [recordLine address recordType bytes] s' := by
  refine ⟨by simpa using solid_recordLine address recordType bytes, fun rest lineNo => ?_⟩
  rw [List.singleton_append, List.zipIdx_cons, ihexLines, if_neg (by simp [recordLine]), hs,
    if_neg (by simp), parseIhexRecord_line _ _ hlen]
  simp [h, bind, Except.bind]

/-- Reading what one round of the encoder writes. -/
lemma Follows.round (h : Follows data offset currentUpper s) (hlt : offset < data.length)
    (hmax : data.length ≤ MAX_IMAGE_SIZE) (hend : loadAddress + data.length ≤ 2 ^ 32) :
    ∃ lines s', HexFile.ihexRecord data loadAddress offset currentUpper =
        lines.flatMap (· ++ CRLF) ∧ Reads (ihexLines loadAddress) s lines s' ∧
      Follows data (offset + min (data.length - offset) 16) (some (upperAt loadAddress offset))
        s' := by
  -- the record of the upper half, where it changes, leaves the base that the data record needs
  obtain ⟨elaLines, s₁, hela, hread, hfollows⟩ : ∃ lines s',
      (if currentUpper ≠ some (upperAt loadAddress offset) then
        pushElaRecord [] (upperAt loadAddress offset) else []) = lines.flatMap (· ++ CRLF) ∧
      Reads (ihexLines loadAddress) s lines s' ∧
      Follows data offset (some (upperAt loadAddress offset)) s' := by
    by_cases hupper : currentUpper = some (upperAt loadAddress offset)
    · exact ⟨[], s, by simp [hupper], reads_nil s, hupper ▸ h⟩
    · obtain ⟨s', hs', hfollows⟩ := h.ela loadAddress (upperAt loadAddress offset)
      exact ⟨_, s', by rw [if_pos hupper, pushElaRecord_line, List.flatMap_singleton],
        reads_line h.unfinished (by simp) hs', hfollows⟩
  obtain ⟨s₂, hs₂, hnext⟩ := hfollows.chunk hlt hmax hend
  have hlen : ((data.drop offset).take (min (data.length - offset) 16)).length < 256 := by
    rw [List.length_take]
    omega
  refine ⟨elaLines ++ [_], s₂, ?_, hread.append (reads_line hfollows.unfinished hlen hs₂), hnext⟩
  rw [List.flatMap_append, List.flatMap_singleton, ← hela, ← pushDataRecord_line]
  rfl

variable (loadAddress) in
/-- Reading the rest of the records, from an offset on, completes the image. -/
lemma Follows.rest (h : Follows data offset currentUpper s) (hoffset : offset ≤ data.length)
    (hmax : data.length ≤ MAX_IMAGE_SIZE) (hend : loadAddress + data.length ≤ 2 ^ 32) :
    ∃ lines s' upper, pushIhexRecords data loadAddress offset currentUpper [] =
        lines.flatMap (· ++ CRLF) ∧ Reads (ihexLines loadAddress) s lines s' ∧
      Follows data data.length upper s' := by
  induction hn : data.length - offset using Nat.strong_induction_on
    generalizing offset currentUpper s with
  | _ n ih =>
  by_cases hlt : offset < data.length
  · obtain ⟨lines, s₁, hround, hread, hnext⟩ := h.round hlt hmax hend
    obtain ⟨lines', s₂, upper, hrest, hread', hlast⟩ := ih _ (by omega) hnext (by omega) rfl
    refine ⟨lines ++ lines', s₂, upper, ?_, hread.append hread', hlast⟩
    rw [pushIhexRecords_pos hlt, pushIhexRecords_out, List.nil_append, hround, List.flatMap_append]
    exact congrArg _ hrest
  · obtain rfl : offset = data.length := by omega
    exact ⟨[], s, currentUpper, by rw [pushIhexRecords, if_neg hlt]; rfl, reads_nil s, h⟩

end Run

/-- An image's Intel HEX reads back as the image. -/
theorem decodeIhex_encodeIhex (data : List UInt8) (loadAddress : ℕ) (hne : data ≠ [])
    (hmax : data.length ≤ MAX_IMAGE_SIZE) (hend : loadAddress + data.length ≤ 2 ^ 32) :
    decodeIhex (encodeIhex data loadAddress) loadAddress = .ok data := by
  obtain ⟨lines, s, upper, hwrite, hread, hlast⟩ :=
    follows_new.rest loadAddress (Nat.zero_le data.length) hmax hend
  have heof : Reads (ihexLines loadAddress) s [recordLine 0 0x01 []] { s with seenEof := true } :=
    reads_line hlast.unfinished (by simp) fun _ => rfl
  have htext : encodeIhex data loadAddress =
      (lines ++ [recordLine 0 0x01 []]).flatMap (· ++ CRLF) := by
    rw [encodeIhex, if_pos (by simpa using hne), hwrite, eofRecord_line, List.flatMap_append,
      List.flatMap_singleton]
  have hpos : 0 < data.length := List.length_pos_iff.mpr hne
  rw [decodeIhex, htext, (hread.append heof).text, ihexLines, if_pos rfl, ihexLines]
  simp [hlast.acc, hpos, ofCells, laidOut_inARow, refuse, bind, Except.bind, pure, Except.pure]

theorem decodeIhex_encodeIhex_straddling :
    decodeIhex (encodeIhex ((List.range 20).map UInt8.ofNat) 0xFFF8) 0xFFF8 =
      .ok ((List.range 20).map UInt8.ofNat) :=
  decodeIhex_encodeIhex _ _ (by decide) (by decide) (by decide)

end OneRom.Ihex
