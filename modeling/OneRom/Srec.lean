import OneRom.HexLines

/-!
Motorola S-records there and back: what the encoder writes of an image, the decoder reads as that
image, and the count it declares is that of the records read.
-/

namespace OneRom.Srec

open OneRom.Checks OneRom.ChipTypes OneRom.HexFile OneRom.HexLines OneRom.ImageFile
  OneRom.Placement OneRom.Scatter OneRom.SlotArg

/-! ### Addresses -/

lemma bigEndian_snoc (bytes : List UInt8) (b : UInt8) :
    bigEndian (bytes ++ [b]) = bigEndian bytes * 256 + b.toNat := by
  rw [bigEndian, List.foldl_append]
  rfl

lemma addressBytes_succ (width address : ℕ) :
    addressBytes (width + 1) address =
      addressBytes width (address >>> 8) ++ [UInt8.ofNat address] := by
  rw [addressBytes, addressBytes, List.range_succ_eq_map, List.reverse_cons, List.map_append,
    ← List.map_reverse, List.map_map]
  refine congrArg₂ _ (List.map_congr_left fun i _ => ?_) (by simp)
  rw [Function.comp_apply, ← Nat.shiftRight_add]
  congr 2
  omega

/-- An address that its width can hold is not cut short. -/
lemma bigEndian_addressBytes {width address : ℕ} (h : address < 256 ^ width) :
    bigEndian (addressBytes width address) = address := by
  induction width generalizing address with
  | zero =>
    obtain rfl : address = 0 := by simpa using h
    rfl
  | succ width ih =>
    rw [Nat.pow_succ] at h
    rw [addressBytes_succ, bigEndian_snoc, Nat.shiftRight_eq_div_pow, ih (by omega),
      UInt8.toNat_ofNat']
    omega

/-- The data record type has room for every address up to the highest. -/
lemma lt_pow_addressWidth {topAddress width : ℕ}
    (h : addressWidth (dataRecordType topAddress) = some width) (htop : topAddress < 2 ^ 32) :
    topAddress < 256 ^ width := by
  unfold dataRecordType at h
  split at h
  · obtain rfl : 2 = width := Option.some_inj.mp h
    omega
  · split at h
    · obtain rfl : 3 = width := Option.some_inj.mp h
      omega
    · obtain rfl : 4 = width := Option.some_inj.mp h
      omega

lemma dataRecordType_pos_le (topAddress : ℕ) :
    dataRecordType topAddress ≠ 0 ∧ dataRecordType topAddress ≤ 3 := by
  unfold dataRecordType
  split_ifs <;> decide

/-- The terminator has the width of the data records. -/
lemma addressWidth_terminator (topAddress : ℕ) :
    addressWidth (terminator (dataRecordType topAddress)) =
      addressWidth (dataRecordType topAddress) := by
  unfold dataRecordType
  split_ifs <;> decide

lemma terminator_cases (recordType : UInt8) :
    terminator recordType = 7 ∨ terminator recordType = 8 ∨ terminator recordType = 9 := by
  unfold terminator
  split_ifs <;> simp

/-! ### One record -/

/-- A record's bytes up to its checksum. -/
def body (width address : ℕ) (data : List UInt8) : List UInt8 :=
  (width + data.length + 1).toUInt8 :: (addressBytes width address ++ data)

/-- A record's line, less its end. -/
def recordLine (recordType : UInt8) (width address : ℕ) (data : List UInt8) : List UInt8 :=
  ascii 'S' :: (ascii '0' + recordType) ::
    (body width address data ++ [~~~(body width address data).sum]).flatMap hexDigits

lemma pushRecord_line (recordType : UInt8) (width address : ℕ) (data : List UInt8) :
    pushRecord [] recordType width address data =
      recordLine recordType width address data ++ CRLF := by
  simp [pushRecord, pushBytes_eq, pushHex8, recordLine, body, add_assoc]

lemma typeDigit {recordType : UInt8} (h : recordType ≤ 9) :
    ¬ (ascii '0' + recordType < ascii '0' ∨ ascii '9' < ascii '0' + recordType) ∧
      isAsciiWhitespace (ascii '0' + recordType) = false := by
  revert recordType
  decide +kernel

lemma solid_recordLine {recordType : UInt8} (h : recordType ≤ 9) (width address : ℕ)
    (data : List UInt8) : Solid (recordLine recordType width address data) :=
  ((solid_hexDigits _).cons (typeDigit h).2).cons (by decide)

/-- A record reads back as it was written. -/
lemma parseSrecRecord_line {recordType : UInt8} (htype : recordType ≤ 9) {width address : ℕ}
    (hwidth : addressWidth recordType = some width) {data : List UInt8}
    (hlen : width + data.length + 1 < 256) (hfit : address < 256 ^ width) (lineNo : ℕ) :
    parseSrecRecord (recordLine recordType width address data) lineNo =
      .ok ⟨recordType, address, data⟩ := by
  have hcount : (width + data.length + 1).toUInt8.toNat = width + data.length + 1 := by
    simpa using Nat.mod_eq_of_lt hlen
  have hparse : srecType (recordLine recordType width address data) lineNo =
      .ok (recordType, width) := by
    rw [recordLine, srecType, if_neg (by simp), if_neg (typeDigit htype).1, add_sub_cancel_left, hwidth]
  rw [parseSrecRecord, hparse]
  have hpairs : decodeHexPairs ((recordLine recordType width address data).drop 2) =
      some (body width address data ++ [~~~(body width address data).sum]) := by
    rw [recordLine, List.drop_succ_cons, List.drop_succ_cons, List.drop_zero,
      decodeHexPairs_hexDigits]
  dsimp only [bind, Except.bind]
  rw [hpairs]
  dsimp only
  rw [List.dropLast_concat, if_neg (by simp [body]), if_neg, if_neg (by simp)]
  · have hbytes : (body width address data ++ [~~~(body width address data).sum]).drop 1 =
        addressBytes width address ++ (data ++ [~~~(body width address data).sum]) := by
      simp [body]
    rw [Nat.add_comm width 1, ← List.drop_drop, hbytes, List.take_left' (by simp),
      List.drop_left' (by simp), List.dropLast_concat, bigEndian_addressBytes hfit]
  · simp [body]
    omega

/-! ### The decoder beside the encoder -/

section Run

variable (data : List UInt8)

/-- What the decoder holds where the encoder stands at an offset, with its count of records. -/
structure Follows (offset records : ℕ) (s : SrecState) : Prop where
  acc : s.acc = ofCells (inARow (data.take offset)) (decide (0 < offset))
  count : s.dataRecords = records
  undeclared : s.declaredCount = none
  unfinished : s.seenTerminator = false
  bound : records ≤ offset

variable {data} {loadAddress offset records width : ℕ} {recordType : UInt8} {s : SrecState}

lemma follows_new : Follows data 0 0 ⟨.new, false, 0, none⟩ := ⟨rfl, rfl, rfl, rfl, le_rfl⟩

/-- A record's line is read as the record. -/
lemma reads_line {s' : SrecState} (hs : s.seenTerminator = false) (htype : recordType ≤ 9)
    (hwidth : addressWidth recordType = some width) {address : ℕ} {bytes : List UInt8}
    (hlen : width + bytes.length + 1 < 256) (hfit : address < 256 ^ width)
    (h : ∀ lineNo, srecRecord loadAddress lineNo s ⟨recordType, address, bytes⟩ = .ok s') :
    Reads (srecLines loadAddress) s [recordLine recordType width address bytes] s' := by
  refine ⟨by simpa using solid_recordLine htype width address bytes, fun rest lineNo => ?_⟩
  rw [List.singleton_append, List.zipIdx_cons, srecLines, if_neg (by simp [recordLine]), hs,
    if_neg (by simp), parseSrecRecord_line htype hwidth hlen hfit]
  simp [h, bind, Except.bind]

/-- A data record behind those before it extends the image, and is counted. -/
lemma Follows.chunk (h : Follows data offset records s) (htype : recordType ≠ 0 ∧ recordType ≤ 3)
    (hlt : offset < data.length) (hmax : data.length ≤ MAX_IMAGE_SIZE)
    (hend : loadAddress + data.length ≤ 2 ^ 32) :
    ∃ s', (∀ lineNo, srecRecord loadAddress lineNo s
        ⟨recordType, loadAddress + offset,
          (data.drop offset).take (min (data.length - offset) 16)⟩ = .ok s') ∧
      Follows data (offset + min (data.length - offset) 16) (records + 1) s' := by
  have hfits : offset + min (data.length - offset) 16 ≤ data.length := by omega
  have hplace := place_piece (decide (0 < offset)) (by omega) hfits hmax hend
  rw [← h.acc] at hplace
  have hne : (data.drop offset).take (min (data.length - offset) 16) ≠ [] := by
    rw [← List.length_pos_iff, List.length_take, List.length_drop]
    omega
  refine ⟨{ s with
    acc := ofCells (inARow (data.take (offset + min (data.length - offset) 16))) true
    dataRecords := records + 1 }, fun lineNo => ?_,
    ⟨?_, rfl, h.undeclared, h.unfinished, by have := h.bound; omega⟩⟩
  · rw [srecRecord, if_neg htype.1, if_pos htype.2, hplace, if_neg hne, h.count]
    rfl
  · rw [decide_eq_true (by omega : 0 < offset + min (data.length - offset) 16)]

variable (loadAddress) in
/-- Reading the rest of the data records, from an offset on, completes the image. -/
lemma Follows.rest (h : Follows data offset records s) (htype : recordType ≠ 0 ∧ recordType ≤ 3)
    (hwidth : addressWidth recordType = some width) (hfour : width ≤ 4)
    (hfit : loadAddress + (data.length - 1) < 256 ^ width) (hoffset : offset ≤ data.length)
    (hmax : data.length ≤ MAX_IMAGE_SIZE) (hend : loadAddress + data.length ≤ 2 ^ 32) :
    ∃ lines total s',
      pushSrecRecords data loadAddress recordType width offset records [] =
        (lines.flatMap (· ++ CRLF), total) ∧
      Reads (srecLines loadAddress) s lines s' ∧ Follows data data.length total s' := by
  induction hn : data.length - offset using Nat.strong_induction_on
    generalizing offset records s with
  | _ n ih =>
  by_cases hlt : offset < data.length
  · obtain ⟨s₁, hs₁, hnext⟩ := h.chunk htype hlt hmax hend
    have hlen : width + ((data.drop offset).take (min (data.length - offset) 16)).length + 1 <
        256 := by
      rw [List.length_take]
      omega
    have hread := reads_line h.unfinished (UInt8.le_trans htype.2 (by decide)) hwidth hlen (by omega) hs₁
    obtain ⟨lines, total, s₂, hrest, hread', hlast⟩ := ih _ (by omega) hnext (by omega) rfl
    refine ⟨_, total, s₂, ?_, hread.append hread', hlast⟩
    rw [pushSrecRecords_pos hlt, pushSrecRecords_out, List.nil_append, hrest, List.flatMap_append,
      List.flatMap_singleton, ← pushRecord_line]
  · obtain rfl : offset = data.length := by omega
    rw [pushSrecRecords, if_neg hlt]
    exact ⟨[], records, s, rfl, reads_nil s, h⟩

variable (loadAddress) in
/-- The record that counts the data records declares their number. -/
lemma Follows.declare (h : Follows data data.length records s) (hmax : data.length ≤ MAX_IMAGE_SIZE) :
    ∃ line, countRecord records = line ++ CRLF ∧
      Reads (srecLines loadAddress) s [line] { s with declaredCount := some records } := by
  have hrecords : records ≤ 0x80000 := h.bound.trans hmax
  have hrecord (recordType : UInt8) (htype : recordType = 5 ∨ recordType = 6) (lineNo : ℕ) :
      srecRecord loadAddress lineNo s ⟨recordType, records, []⟩ =
        .ok { s with declaredCount := some records } := by
    rcases htype with rfl | rfl <;>
    · simp only [srecRecord, h.undeclared]
      rfl
  rw [countRecord]
  split
  · exact ⟨_, pushRecord_line 5 2 records [],
      reads_line h.unfinished (by decide) rfl (by decide) (by omega) (hrecord 5 (.inl rfl))⟩
  · exact ⟨_, pushRecord_line 6 3 records [],
      reads_line h.unfinished (by decide) rfl (by decide) (by omega) (hrecord 6 (.inr rfl))⟩

/-- The last record, which stops the decoder. -/
lemma reads_terminator (loadAddress : ℕ) (s : SrecState) (hs : s.seenTerminator = false)
    (htype : recordType = 7 ∨ recordType = 8 ∨ recordType = 9)
    (hwidth : addressWidth recordType = some width) (hfour : width ≤ 4) :
    Reads (srecLines loadAddress) s [recordLine recordType width 0 []]
      { s with seenTerminator := true } := by
  refine reads_line hs ?_ hwidth (by simp; omega) (by positivity) fun _ => ?_
  · rcases htype with rfl | rfl | rfl <;> decide
  · rcases htype with rfl | rfl | rfl <;> rfl

end Run

/-- An image's S-records read back as the image; the count they declare is that of the data
records read, and the width they have holds every address. -/
theorem decodeSrec_encodeSrec (data : List UInt8) (loadAddress : ℕ) (hne : data ≠ [])
    (hmax : data.length ≤ MAX_IMAGE_SIZE) (hend : loadAddress + data.length ≤ 2 ^ 32) :
    decodeSrec (encodeSrec data loadAddress) loadAddress = .ok data ∧
      (∃ s, srecLines loadAddress ⟨.new, false, 0, none⟩
          (numberedLines (encodeSrec data loadAddress)) = .ok s ∧
        s.declaredCount = some s.dataRecords) ∧
      ∃ width, addressWidth (dataRecordType (loadAddress + (data.length - 1))) = some width ∧
        ∀ i < data.length, bigEndian (addressBytes width (loadAddress + i)) = loadAddress + i := by
  have hpos : 0 < data.length := List.length_pos_iff.mpr hne
  obtain ⟨width, hwidth, -, hfour⟩ :=
    addressWidth_dataRecordType (loadAddress + (data.length - 1))
  have hfit := lt_pow_addressWidth hwidth (by omega)
  have hheader : Reads (srecLines loadAddress) ⟨.new, false, 0, none⟩ [recordLine 0 2 0 []]
      ⟨.new, false, 0, none⟩ :=
    reads_line rfl (by decide) rfl (by decide) (by decide) fun _ => rfl
  obtain ⟨lines, total, s, hwrite, hread, hlast⟩ := follows_new.rest loadAddress
    (dataRecordType_pos_le _) hwidth hfour hfit (Nat.zero_le data.length) hmax hend
  obtain ⟨line, hline, hdeclare⟩ := hlast.declare loadAddress hmax
  have hterminate := reads_terminator loadAddress { s with declaredCount := some total }
    hlast.unfinished (terminator_cases _) ((addressWidth_terminator _).trans hwidth) hfour
  have hlines := encodeSrec_eq hwidth
  rw [hwrite, hline, pushRecord_line, pushRecord_line] at hlines
  have hread : srecLines loadAddress ⟨.new, false, 0, none⟩
      (numberedLines (encodeSrec data loadAddress)) =
        .ok ⟨s.acc, true, s.dataRecords, some total⟩ := by
    rw [hlines]
    simpa [srecLines] using ((hheader.append hread).append (hdeclare.append hterminate)).text
  refine ⟨?_, ⟨_, hread, congrArg some hlast.count.symm⟩, width, hwidth,
    fun i hi => bigEndian_addressBytes (by omega)⟩
  simp [decodeSrec, hread, hlast.acc, hlast.count, hpos, ofCells, laidOut_inARow, refuse, bind,
    Except.bind, pure, Except.pure]

theorem decodeSrec_encodeSrec_s2 :
    decodeSrec (encodeSrec ((List.range 20).map UInt8.ofNat) 0xFFF8) 0xFFF8 =
      .ok ((List.range 20).map UInt8.ofNat) :=
  (decodeSrec_encodeSrec _ _ (by decide) (by decide) (by decide)).1

end OneRom.Srec
