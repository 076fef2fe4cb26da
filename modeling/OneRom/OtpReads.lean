import OneRom.Commission
import OneRom.OtpHistory

/-!
What the readers read: a read leaves the rows as they are, and the values it gives are theirs.

`readArea` stops at the first page whose parse ends at an unwritten boundary without an issue; the
parse is then that of the whole area.
-/

namespace OneRom.OtpReads

open OneRom.OtpEntry OneRom.OtpStore OneRom.OtpArea OneRom.OtpHistory OneRom.Fallible
open OneRom.OtpAccess OneRom.Commission

/-! ### What a read leaves -/

def Access.IsRead : Access → Prop
  | .write _ _ => False
  | _ => True

/-- Only reads were made between two states. -/
structure Reads (otp otp' : Otp) : Prop where
  rows : otp'.rows = otp.rows
  log : ∃ moments, otp'.log = moments ++ otp.log ∧ ∀ m ∈ moments, Access.IsRead m.access

namespace Reads

variable {a b c : Otp}

lemma refl (a : Otp) : Reads a a := ⟨rfl, [], rfl, by simp⟩

lemma trans (h : Reads a b) (h' : Reads b c) : Reads a c where
  rows := h'.rows.trans h.rows
  log := by
    obtain ⟨ms, hms, hread⟩ := h.log
    obtain ⟨ms', hms', hread'⟩ := h'.log
    refine ⟨ms' ++ ms, by rw [hms', hms, List.append_assoc], fun m hm => ?_⟩
    rcases List.mem_append.mp hm with hm | hm
    · exact hread' m hm
    · exact hread m hm

lemma logged {access : Access} (h : Access.IsRead access) : Reads a (a.logged access) :=
  ⟨rfl, [⟨a.rows, access⟩], rfl, by simpa using h⟩

lemma mem_log {m : Moment} (h : Reads a b) (hm : m ∈ a.log) : m ∈ b.log := by
  obtain ⟨ms, hms, -⟩ := h.log
  rw [hms]
  exact List.mem_append_right ms hm

end Reads

variable {host : Host} {otp otp' : Otp}

lemma readEccRows_ok {row count : ℕ} {values : List UInt16}
    (h : readEccRows host row count otp = (.ok values, otp')) :
    values = (List.range' row count).map (fun r => host.eccRead (otp.rows r)) ∧ Reads otp otp' := by
  unfold readEccRows at h
  split at h <;> cases h
  exact ⟨rfl, .logged trivial⟩

lemma readRawRows_ok {row count : ℕ} {raws : List UInt32}
    (h : readRawRows host row count otp = (.ok raws, otp')) :
    raws = (List.range' row count).map otp.rows ∧ Reads otp otp' ∧
      ⟨otp.rows, .readRaw row raws⟩ ∈ otp'.log := by
  unfold readRawRows at h
  split at h <;> cases h
  exact ⟨rfl, .logged trivial, by simp⟩

/-! ### The area -/

/-- The area's first `n` rows. -/
def firstRows (mem : ℕ → UInt16) (n : ℕ) : List UInt16 :=
  (List.range' OTP_COMMISSIONING_AREA_FIRST_ROW n).map mem

variable {mem : ℕ → UInt16} {n : ℕ}

lemma firstRows_all : firstRows mem 1024 = commissioningRows mem := rfl

lemma firstRows_append (m : ℕ) : firstRows mem n ++
    (List.range' (OTP_COMMISSIONING_AREA_FIRST_ROW + n) m).map mem = firstRows mem (n + m) := by
  rw [firstRows, firstRows, ← List.map_append, List.range'_append_1]

/-- The area the parser makes of its first rows. -/
def partOf (mem : ℕ → UInt16) (n : ℕ) : Area :=
  Area.new (firstRows mem n) OTP_COMMISSIONING_AREA_FIRST_ROW COMMISSIONING_AREA_END

lemma partOf_rows (hn : n ≤ 1024) : (partOf mem n).rows = firstRows mem n := by
  simp only [partOf, Area.new, COMMISSIONING_AREA_END, OTP_COMMISSIONING_AREA_FIRST_ROW,
    OTP_COMMISSIONING_AREA_LAST_ROW]
  exact List.take_of_length_le (by simpa [firstRows] using hn)

lemma partOf_endRow (hn : n ≤ 1024) : (partOf mem n).endRow = 0x0c0 + n := by
  rw [(partOf mem n).endRow_eq, partOf_rows hn]
  simp [partOf, Area.new, firstRows, OTP_COMMISSIONING_AREA_FIRST_ROW]

lemma row_partOf (hn : n ≤ 1024) {row : ℕ} (hfirst : 0x0c0 ≤ row) (hend : row < 0x0c0 + n) :
    (partOf mem n).row row = mem row := by
  have hi : row - 0x0c0 < n := by omega
  have hrow : 0x0c0 + (row - 0x0c0) = row := by omega
  have hf : (partOf mem n).first = 0x0c0 := rfl
  simp [Area.row, partOf_rows hn, firstRows, OTP_COMMISSIONING_AREA_FIRST_ROW, hi, hrow, hf]

lemma agree_partOf (hn : n ≤ 1024) {b : ℕ} (hb : b < 0x0c0 + n) :
    Agree b (partOf mem n) (areaOf mem) where
  first := rfl
  row := fun r hfirst hr => by
    have hfirst : 0x0c0 ≤ r := hfirst
    rw [row_areaOf _ hfirst (by omega), row_partOf hn hfirst (by omega)]
  ends := .inr ⟨by rw [partOf_endRow hn]; exact hb, by rw [areaOf_endRow]; omega⟩
  le := by rw [partOf_endRow hn]; omega

/-- What the parser says where it found an unwritten boundary and no issue. -/
lemma parse_found {rows : List UInt16} (hnext : (CommissioningArea.parse rows).nextInstanceRow.isSome)
    (hissues : (CommissioningArea.parse rows).issues = []) :
    ∃ instances b, walk (Area.new rows OTP_COMMISSIONING_AREA_FIRST_ROW COMMISSIONING_AREA_END)
      OTP_COMMISSIONING_AREA_FIRST_ROW = (instances, [], .ended (some b)) := by
  have hfirst : (Area.new rows OTP_COMMISSIONING_AREA_FIRST_ROW COMMISSIONING_AREA_END).first =
    OTP_COMMISSIONING_AREA_FIRST_ROW := rfl
  unfold CommissioningArea.parse at hnext hissues
  simp only [hfirst] at hnext hissues
  rcases hwalk : walk (Area.new rows OTP_COMMISSIONING_AREA_FIRST_ROW COMMISSIONING_AREA_END)
    OTP_COMMISSIONING_AREA_FIRST_ROW with ⟨instances, issues, (_ | b) | _⟩
  · simp [hwalk] at hnext
  · rw [hwalk] at hissues
    cases hissues
    exact ⟨instances, b, rfl⟩
  · simp [hwalk] at hnext

/-- **Reading on**: a parse of the first rows that found an unwritten boundary and no issue is the
parse of the whole area. -/
theorem parse_firstRows (hn : n ≤ 1024)
    (hnext : (CommissioningArea.parse (firstRows mem n)).nextInstanceRow.isSome)
    (hissues : (CommissioningArea.parse (firstRows mem n)).issues = []) :
    CommissioningArea.parse (firstRows mem n) = parsed mem := by
  obtain ⟨instances, b, hwalk⟩ := parse_found hnext hissues
  have hwalk : walk (partOf mem n) 0x0c0 = (instances, [], .ended (some b)) := hwalk
  obtain ⟨hfirst, hb, hzero⟩ := walk_ended_le (congrArg (·.2.2) hwalk)
  rw [partOf_endRow hn] at hb
  rw [row_partOf hn hfirst hb] at hzero
  have hwhole : walk (areaOf mem) 0x0c0 = (instances, [], .ended (some b)) := by
    have hon := (agree_partOf hn hb).walk (show (partOf mem n).first ≤ 0x0c0 from le_rfl) hwalk
    rw [hon, walk_unwritten (by rw [areaOf_endRow]; omega)
      (by rw [row_areaOf _ hfirst (by omega)]; exact hzero), List.append_nil]
  unfold parsed CommissioningArea.parse
  simp only
  rw [show Area.new (firstRows mem n) _ _ = partOf mem n from rfl,
    show Area.new (commissioningRows mem) _ _ = areaOf mem from rfl,
    show (partOf mem n).first = 0x0c0 from rfl, areaOf_first, hwalk, hwhole]

/-- The values ECC reads give. -/
def eccRows (host : Host) (rows : Rows) (row : ℕ) : UInt16 := host.eccRead (rows row)

lemma readAreaFrom_ok {left : ℕ} {area : CommissioningArea} (hn : n + 64 * (left + 1) = 1024)
    (h : readAreaFrom host (0x0c0 + n) (firstRows (eccRows host otp.rows) n) left otp =
      (.ok area, otp')) :
    area = parsed (eccRows host otp.rows) ∧ Reads otp otp' := by
  induction left generalizing n otp with
  | zero =>
    unfold readAreaFrom at h
    obtain ⟨read, otp₁, hread, h⟩ := Prog.bind_ok.mp h
    obtain ⟨rfl, hreads⟩ := readEccRows_ok (Prog.mapError_ok.mp hread)
    cases h
    refine ⟨?_, hreads⟩
    rw [show (fun r => host.eccRead (otp.rows r)) = eccRows host otp.rows from rfl,
      show (0x0c0 : ℕ) = OTP_COMMISSIONING_AREA_FIRST_ROW from rfl, firstRows_append,
      show n + OTP_PAGE_ROWS = 1024 by simp only [OTP_PAGE_ROWS]; omega, firstRows_all]
    rfl
  | succ left ih =>
    unfold readAreaFrom at h
    obtain ⟨read, otp₁, hread, h⟩ := Prog.bind_ok.mp h
    obtain ⟨rfl, hreads⟩ := readEccRows_ok (Prog.mapError_ok.mp hread)
    rw [show (fun r => host.eccRead (otp.rows r)) = eccRows host otp.rows from rfl,
      show (0x0c0 : ℕ) = OTP_COMMISSIONING_AREA_FIRST_ROW from rfl, firstRows_append] at h
    simp only at h
    split_ifs at h with hfound
    · cases h
      simp only [Bool.and_eq_true, List.isEmpty_iff] at hfound
      exact ⟨parse_firstRows (by simp only [OTP_PAGE_ROWS]; omega) hfound.1 hfound.2, hreads⟩
    · rw [Nat.add_assoc, ← hreads.rows] at h
      obtain ⟨harea, hreads'⟩ := ih (by simp only [OTP_PAGE_ROWS]; omega) h
      rw [hreads.rows] at harea
      exact ⟨harea, hreads.trans hreads'⟩

/-- **The area** that `readArea` returns is the parse of all its rows. -/
theorem readArea_ok {area : CommissioningArea} (h : readArea host otp = (.ok area, otp')) :
    area = parsed (eccRows host otp.rows) ∧ Reads otp otp' :=
  readAreaFrom_ok (show 0 + 64 * (15 + 1) = 1024 from rfl) h

lemma readEccRows_returns (hreads : ∀ n row count, host.readFails n row count = none)
    (row count : ℕ) (otp : Otp) : readEccRows host row count otp =
      (.ok ((List.range' row count).map fun r => host.eccRead (otp.rows r)),
        otp.logged (.readEcc row count)) := by
  rw [readEccRows, hreads]

/-- Where no read fails, each page either ends the read or is followed by the next. -/
lemma readAreaFrom_returns (hreads : ∀ n row count, host.readFails n row count = none)
    (page left : ℕ) (rows : List UInt16) (otp : Otp) :
    ∃ area otp', readAreaFrom host page rows left otp = (.ok area, otp') := by
  induction left generalizing page rows otp with
  | zero =>
    unfold readAreaFrom
    rw [Prog.bind_of_ok (Prog.mapError_ok.mpr (readEccRows_returns hreads page _ otp))]
    exact ⟨_, _, rfl⟩
  | succ left ih =>
    unfold readAreaFrom
    rw [Prog.bind_of_ok (Prog.mapError_ok.mpr (readEccRows_returns hreads page _ otp))]
    dsimp only
    split
    · exact ⟨_, _, rfl⟩
    · exact ih ..

/-- **A page at a time**: the area `readArea` returns, wherever it stops, is the parse of all the
rows. It returns one where no read fails. -/
theorem readArea_parse_whole (host : Host) (otp : Otp) :
    (∀ area otp', readArea host otp = (.ok area, otp') →
      area = CommissioningArea.parse (commissioningRows (eccRows host otp.rows))) ∧
    ((∀ n row count, host.readFails n row count = none) → ∃ otp', readArea host otp =
      (.ok (CommissioningArea.parse (commissioningRows (eccRows host otp.rows))), otp')) := by
  have hwhole : ∀ area otp', readArea host otp = (.ok area, otp') →
      area = CommissioningArea.parse (commissioningRows (eccRows host otp.rows)) :=
    fun area otp' h => (readArea_ok h).1
  refine ⟨hwhole, fun hreads => ?_⟩
  obtain ⟨area, otp', h⟩ := readAreaFrom_returns hreads OTP_COMMISSIONING_AREA_FIRST_ROW
    (AREA_LAST_PAGE - AREA_FIRST_PAGE) [] otp
  exact ⟨otp', hwhole area otp' h ▸ h⟩

/-- A chip whose rows are read as they are, whatever they hold. -/
theorem readArea_parse_whole_plain :
    let host : Host := ⟨fun _ _ _ => none, UInt32.toUInt16, fun _ _ _ raw => (raw, none)⟩
    let otp : Otp := ⟨fun row => if row = 0x0c0 then 0x524f else 0, []⟩
    ∃ otp', readArea host otp =
      (.ok (CommissioningArea.parse (commissioningRows (eccRows host otp.rows))), otp') :=
  (readArea_parse_whole _ _).2 fun _ _ _ => rfl

/-! ### The board -/

/-- The rows One ROM uses in page 1. -/
def bootOf (rows : Rows) : BootRows where
  bootFlags0 := BOOT_FLAGS0_ROWS.map rows
  flashDevinfo := rows OTP_FLASH_DEVINFO_ROW
  flashPartitionSlotSize := rows OTP_FLASH_PARTITION_SLOT_SIZE_ROW
  usbBootFlags := USB_BOOT_FLAGS_ROWS.map rows
  usbWhiteLabelAddr := rows OTP_ROW_USB_WHITE_LABEL_DATA

def locksOf (rows : Rows) (first last : ℕ) : List PageLock :=
  (List.range' first (last + 1 - first)).map fun page => ⟨page, rows (lock1Row page)⟩

def rawsOf (rows : Rows) (row count : ℕ) : List UInt32 := (List.range' row count).map rows

/-- What reading a board with these rows gives. -/
def readingsOf (host : Host) (rows : Rows) : Readings where
  chipId := Vector.ofFn fun i => eccRows host rows (CHIP_ID_ROW + i)
  area := parsed (eccRows host rows)
  areaRaw := rawsOf rows OTP_COMMISSIONING_AREA_FIRST_ROW AREA_ROWS
  boot := bootOf rows
  flashDevinfoEcc := eccRows host rows OTP_FLASH_DEVINFO_ROW
  whiteLabelRaw := rawsOf rows OTP_USB_WHITE_LABEL_ROW WHITE_LABEL_PAGES_ROWS
  locks := locksOf rows AREA_FIRST_PAGE AREA_LAST_PAGE
  otherLocks := locksOf rows BootRows.PAGE BootRows.PAGE ++
    locksOf rows WHITE_LABEL_FIRST_PAGE WHITE_LABEL_LAST_PAGE

lemma getD_map_range' {α : Type} (f : ℕ → α) {row count : ℕ} (i : ℕ) (d : α) (hi : i < count) :
    ((List.range' row count).map f).getD i d = f (row + i) := by
  simp [List.getD_eq_getElem?_getD, hi]

lemma readChipId_ok {chipId : Vector UInt16 4} (h : readChipId host otp = (.ok chipId, otp')) :
    chipId = Vector.ofFn (fun i => eccRows host otp.rows (CHIP_ID_ROW + i)) ∧ Reads otp otp' := by
  obtain ⟨rows, otp₁, hread, h⟩ := Prog.bind_ok.mp h
  obtain ⟨rfl, hreads⟩ := readEccRows_ok hread
  cases h
  refine ⟨?_, hreads⟩
  congr 1
  funext i
  exact getD_map_range' _ i 0 i.isLt

lemma bootRows_ok {boot : BootRows} (h : BootRows.read host otp = (.ok boot, otp')) :
    boot = bootOf otp.rows ∧ Reads otp otp' := by
  obtain ⟨rows, otp₁, hread, h⟩ := Prog.bind_ok.mp h
  obtain ⟨rfl, hreads, -⟩ := readRawRows_ok hread
  cases h
  have hrow : ∀ row, 0x048 ≤ row → row ≤ 0x05c →
      ((List.range' BootRows.FIRST_ROW (OTP_ROW_USB_WHITE_LABEL_DATA - BootRows.FIRST_ROW + 1)).map
        otp.rows).getD (row - BootRows.FIRST_ROW) 0 = otp.rows row := by
    intro row hlo hhi
    have hcount : row - 0x048 < 0x05c - 0x048 + 1 := by omega
    have heq : 0x048 + (row - 0x048) = row := by omega
    exact (getD_map_range' otp.rows _ 0 hcount).trans (congrArg otp.rows heq)
  refine ⟨?_, hreads⟩
  rw [bootOf, BootRows.mk.injEq]
  refine ⟨Vector.map_congr_left fun row hmem => ?_, ?_, ?_, Vector.map_congr_left fun row hmem => ?_,
    ?_⟩
  · have : row = 0x048 ∨ row = 0x049 ∨ row = 0x04a := by
      simpa [BOOT_FLAGS0_ROWS, OTP_BOOT_FLAGS0_ROW, OTP_BOOT_FLAGS0_R1_ROW,
        OTP_BOOT_FLAGS0_R2_ROW] using hmem
    exact hrow row (by omega) (by omega)
  · exact hrow _ (by decide) (by decide)
  · exact hrow _ (by decide) (by decide)
  · have : row = 0x059 ∨ row = 0x05a ∨ row = 0x05b := by simpa [USB_BOOT_FLAGS_ROWS] using hmem
    exact hrow row (by omega) (by omega)
  · exact hrow _ (by decide) (by decide)

lemma readLocks_ok {first last : ℕ} {locks : List PageLock}
    (h : readLocks host first last otp = (.ok locks, otp')) :
    locks = locksOf otp.rows first last ∧ Reads otp otp' := by
  obtain ⟨rows, otp₁, hread, h⟩ := Prog.bind_ok.mp h
  obtain ⟨rfl, hreads, -⟩ := readRawRows_ok hread
  cases h
  refine ⟨List.map_congr_left fun page hpage => ?_, hreads⟩
  have hpage := List.mem_range'_1.mp hpage
  have hrow : lock1Row first + (lock1Row page - lock1Row first) = lock1Row page := by
    simp only [lock1Row]; omega
  rw [getD_map_range' _ _ _ (by simp only [lock1Row]; omega), hrow]

/-- **The readings** are those of the board's rows, and the area's raw rows were read. -/
theorem readBoard_ok {readings : Readings} (h : readBoard host otp = (.ok readings, otp')) :
    readings = readingsOf host otp.rows ∧ Reads otp otp' ∧
      ∃ m ∈ otp'.log, m.access = .readRaw OTP_COMMISSIONING_AREA_FIRST_ROW
        (rawsOf otp.rows OTP_COMMISSIONING_AREA_FIRST_ROW AREA_ROWS) := by
  obtain ⟨chipId, s1, h1, h⟩ := Prog.bind_ok.mp h
  obtain ⟨area, s2, h2, h⟩ := Prog.bind_ok.mp h
  obtain ⟨areaRaw, s3, h3, h⟩ := Prog.bind_ok.mp h
  obtain ⟨boot, s4, h4, h⟩ := Prog.bind_ok.mp h
  obtain ⟨devinfo, s5, h5, h⟩ := Prog.bind_ok.mp h
  obtain ⟨label, s6, h6, h⟩ := Prog.bind_ok.mp h
  obtain ⟨locks, s7, h7, h⟩ := Prog.bind_ok.mp h
  obtain ⟨bootLocks, s8, h8, h⟩ := Prog.bind_ok.mp h
  obtain ⟨labelLocks, s9, h9, h⟩ := Prog.bind_ok.mp h
  obtain ⟨rfl, r1⟩ := readChipId_ok (Prog.mapError_ok.mp h1)
  obtain ⟨rfl, r2⟩ := readArea_ok (Prog.mapError_ok.mp h2)
  obtain ⟨rfl, r3, hmem⟩ := readRawRows_ok (Prog.mapError_ok.mp h3)
  obtain ⟨rfl, r4⟩ := bootRows_ok (Prog.mapError_ok.mp h4)
  obtain ⟨rfl, r5⟩ := readEccRows_ok (Prog.mapError_ok.mp h5)
  obtain ⟨rfl, r6, -⟩ := readRawRows_ok (Prog.mapError_ok.mp h6)
  obtain ⟨rfl, r7⟩ := readLocks_ok (Prog.mapError_ok.mp h7)
  obtain ⟨rfl, r8⟩ := readLocks_ok (Prog.mapError_ok.mp h8)
  obtain ⟨rfl, r9⟩ := readLocks_ok (Prog.mapError_ok.mp h9)
  cases h
  have e1 := r1.rows
  have e2 := r2.rows.trans e1
  have e3 := r3.rows.trans e2
  have e4 := r4.rows.trans e3
  have e5 := r5.rows.trans e4
  have e6 := r6.rows.trans e5
  have e7 := r7.rows.trans e6
  have e8 := r8.rows.trans e7
  have later := r4.trans (r5.trans (r6.trans (r7.trans (r8.trans r9))))
  rw [e2] at hmem
  refine ⟨?_, r1.trans (r2.trans (r3.trans later)), _, later.mem_log hmem, rfl⟩
  rw [e1, e2, e3, e4, e5, e6, e7, e8]
  rfl

end OneRom.OtpReads
