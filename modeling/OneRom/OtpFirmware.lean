import OneRom.OtpHistory

/-!
The firmware's scan of the commissioning area, and its agreement with the host's parser.

`scanEntries` and `scanInstances` are the two loops of `otp_commissioned_board`; each returns the
rows it read besides its result. The entry loop follows `parseEntries` step by step
(`scanEntries_eq`), the instance loop follows `walk` as long as that meets no problem and gives up
where it does (`scanInstances_eq`).
-/

namespace OneRom.OtpFirmware

open OneRom.LittleEndian OneRom.OtpEntry OneRom.OtpStore OneRom.OtpArea OneRom.OtpHistory

/-- The row after the commissioning area's last. -/
def AREA_END : ℕ := OTP_COMMISSIONING_AREA_LAST_ROW + 1

/-- A value cast to `uint16_t`. -/
def u16 (n : ℕ) : ℕ := n % 2 ^ 16

def page_after (row : ℕ) : ℕ := u16 ((row / OTP_PAGE_ROWS + 1) * OTP_PAGE_ROWS)

/-- A board value's first row and its length in bytes, where one was found. -/
abbrev BoardValue := Option (ℕ × ℕ)

/-- How the entry loop is left. -/
inductive EntryScan
  /-- By `return 0`. -/
  | giveUp
  /-- By `break`. -/
  | done (lastRow : ℕ) (complete : Bool) (board : BoardValue)
  deriving DecidableEq

/-- The entry loop, with the rows it reads. -/
def scanEntries (otp_read_ecc : ℕ → UInt16) (row : ℕ) (board : BoardValue) : EntryScan × List ℕ :=
  if row ≥ AREA_END then (.done (AREA_END - 1) false board, [])
  else if row + 1 ≥ AREA_END then (.giveUp, [])
  else
    let key := otp_read_ecc row
    let len := otp_read_ecc (row + 1)
    if key = OTP_KEY_NONE ∧ len = 0 then (.done (row + 1) false board, [row, row + 1])
    else
      let next := row + 2 + (len.toNat + 1) / 2
      if _hnext : next > AREA_END then (.giveUp, [row, row + 1])
      else if key = OneromOtpKey.commissioningBoard.toU16 then
        let (result, reads) := scanEntries otp_read_ecc (u16 next) (some (row + 2, len.toNat))
        (result, row :: (row + 1) :: reads)
      else if key = OneromOtpKey.commissioningSig.toU16 then
        (.done (u16 (next - 1)) true board, [row, row + 1])
      else
        let (result, reads) := scanEntries otp_read_ecc (u16 next) board
        (result, row :: (row + 1) :: reads)
termination_by AREA_END - row
decreasing_by
  all_goals
    have hfits : row + 2 + ((otp_read_ecc (row + 1)).toNat + 1) / 2 ≤ AREA_END := not_lt.mp _hnext
    simp only [u16, AREA_END, OTP_COMMISSIONING_AREA_LAST_ROW] at hfits ⊢
    omega

/-- The loop's last row lies in the area, at or after the row before its first. -/
def EntryScan.Within (row : ℕ) : EntryScan → Prop
  | .giveUp => True
  | .done lastRow _ _ => min row 0x4c0 ≤ lastRow + 1 ∧ lastRow < 0x4c0

lemma EntryScan.Within.mono {row next : ℕ} {result : EntryScan} (h : result.Within next)
    (hle : row ≤ next) : result.Within row := by
  cases result with
  | giveUp => trivial
  | done => simp only [EntryScan.Within] at h ⊢; omega

lemma u16_of_le {n : ℕ} (h : n ≤ AREA_END) : u16 n = n :=
  Nat.mod_eq_of_lt (lt_of_le_of_lt h (by decide))

lemma scanEntries_within (mem : ℕ → UInt16) (row : ℕ) (board : BoardValue) :
    (scanEntries mem row board).1.Within row := by
  fun_induction scanEntries mem row board with
  | case1 row board h =>
    simp only [AREA_END, OTP_COMMISSIONING_AREA_LAST_ROW, EntryScan.Within] at h ⊢; omega
  | case2 => trivial
  | case3 row board h1 h2 =>
    simp only [AREA_END, OTP_COMMISSIONING_AREA_LAST_ROW, EntryScan.Within] at h2 ⊢; omega
  | case4 => trivial
  | case5 row board _ _ _ _ _ next hnext _ result reads hscan ih =>
    rw [hscan, u16_of_le (not_lt.mp hnext)] at ih
    exact ih.mono (by omega)
  | case6 row board _ _ _ _ _ next hnext =>
    have hle : next ≤ 0x4c0 := not_lt.mp hnext
    have hu : u16 (next - 1) = next - 1 := u16_of_le (by omega)
    simp only [EntryScan.Within, hu]; omega
  | case7 row board _ _ _ _ _ next hnext _ _ result reads hscan ih =>
    rw [hscan, u16_of_le (not_lt.mp hnext)] at ih
    exact ih.mono (by omega)

/-- The loop reads rows of the area only, from `row` on. -/
lemma scanEntries_reads (mem : ℕ → UInt16) (row : ℕ) (board : BoardValue) :
    ∀ r ∈ (scanEntries mem row board).2, row ≤ r ∧ r < AREA_END := by
  fun_induction scanEntries mem row board with
  | case1 => simp
  | case2 => simp
  | case3 => simp; omega
  | case4 => simp; omega
  | case5 row board _ _ _ _ _ next hnext _ result reads hscan ih =>
    rw [hscan, u16_of_le (not_lt.mp hnext)] at ih
    intro r hr
    rcases List.mem_cons.mp hr with rfl | hr
    · omega
    rcases List.mem_cons.mp hr with rfl | hr
    · omega
    · exact ⟨by have := (ih r hr).1; omega, (ih r hr).2⟩
  | case6 => simp; omega
  | case7 row board _ _ _ _ _ next hnext _ _ result reads hscan ih =>
    rw [hscan, u16_of_le (not_lt.mp hnext)] at ih
    intro r hr
    rcases List.mem_cons.mp hr with rfl | hr
    · omega
    rcases List.mem_cons.mp hr with rfl | hr
    · omega
    · exact ⟨by have := (ih r hr).1; omega, (ih r hr).2⟩

/-- The instance loop, with the rows it reads. -/
def scanInstances (otp_read_ecc : ℕ → UInt16) (boundary : ℕ) (found : BoardValue) :
    BoardValue × List ℕ :=
  if _hlt : boundary < AREA_END then
    let magic := otp_read_ecc boundary
    if magic = 0 then (found, [boundary])
    else if magic ≠ OTP_STORE_MAGIC then (none, [boundary])
    else
      let version := otp_read_ecc (boundary + 1)
      if version = OTP_STORE_VERSION then
        match _hscan : scanEntries otp_read_ecc (boundary + 2) none with
        | (.giveUp, reads) => (none, boundary :: (boundary + 1) :: reads)
        | (.done lastRow complete board, reads) =>
          let (result, reads') := scanInstances otp_read_ecc (page_after lastRow)
            (if complete then board else found)
          (result, boundary :: (boundary + 1) :: reads ++ reads')
      else if version ≠ 0 then (none, [boundary, boundary + 1])
      else
        let (result, reads) := scanInstances otp_read_ecc (page_after (boundary + 1)) found
        (result, boundary :: (boundary + 1) :: reads)
  else (found, [])
termination_by AREA_END - boundary
decreasing_by
  · have hwithin := scanEntries_within otp_read_ecc (boundary + 2) none
    rw [_hscan] at hwithin
    simp only [EntryScan.Within, page_after, u16, AREA_END, OTP_COMMISSIONING_AREA_LAST_ROW,
      OTP_PAGE_ROWS] at *
    omega
  · simp only [page_after, u16, AREA_END, OTP_COMMISSIONING_AREA_LAST_ROW, OTP_PAGE_ROWS] at *
    omega

/-- The board's value in the last complete commissioning instance, where there is one. -/
def otp_commissioned_board (otp_read_ecc : ℕ → UInt16) : BoardValue × List ℕ :=
  scanInstances otp_read_ecc OTP_COMMISSIONING_AREA_FIRST_ROW none

/-! ### The entry loop against the host's parser -/

/-- The first row and the length of an entry's value. -/
def valueAt : StoreEntry → ℕ × ℕ
  | .entry row entry => (row + 2, valueLen entry)
  | .deleted row len => (row + 2, len.toNat)
  | .unreadable row _ len => (row + 2, len.toNat)

/-- Whether an entry has the key `COMMISSIONING_BOARD`. -/
def isBoard (entry : StoreEntry) : Bool :=
  entry.key == some OneromOtpKey.commissioningBoard.toU16

/-- The value of the last `COMMISSIONING_BOARD` entry. -/
def lastBoard (entries : List StoreEntry) : BoardValue :=
  (entries.reverse.find? isBoard).map valueAt

lemma lastBoard_cons (entry : StoreEntry) (entries : List StoreEntry) (board : BoardValue) :
    (lastBoard (entry :: entries)).or board =
      (lastBoard entries).or (if isBoard entry then some (valueAt entry) else board) := by
  simp only [lastBoard, List.reverse_cons, List.find?_append, List.find?_cons, List.find?_nil]
  rcases entries.reverse.find? isBoard with _ | e
  · by_cases h : isBoard entry <;> simp [h]
  · simp

variable {mem : ℕ → UInt16} {row : ℕ}

/-- What a parsed entry keeps of its first two rows. -/
lemma parseEntry_rows (key len : UInt16) (rows : List UInt16) (row : ℕ) :
    (parseEntry (key :: len :: rows) row).key = (if key = OTP_KEY_NONE then none else some key) ∧
      valueAt (parseEntry (key :: len :: rows) row) = (row + 2, len.toNat) := by
  have h0 : (key :: len :: rows).getD 0 0 = key := rfl
  have h1 : (key :: len :: rows).getD 1 0 = len := rfl
  simp only [parseEntry, h0, h1]
  by_cases hkey : key = OTP_KEY_NONE
  · simp [hkey, StoreEntry.key, valueAt]
  simp only [hkey, if_false]
  split
  · next entry hparse =>
    split_ifs with hlen
    · simp [StoreEntry.key, valueAt, hlen, entryKey_of_parse hparse]
    · exact ⟨rfl, rfl⟩
  · exact ⟨rfl, rfl⟩

/-- The entry the host's parser reads at `row`, as the firmware sees it. -/
lemma parseEntry_area (mem : ℕ → UInt16) {next : ℕ} (hfirst : 0x0c0 ≤ row) (hnext : row + 2 ≤ next)
    (hend : next ≤ 0x4c0) :
    isBoard (parseEntry ((areaOf mem).rowsIn row next) row) =
        (mem row == OneromOtpKey.commissioningBoard.toU16) ∧
      valueAt (parseEntry ((areaOf mem).rowsIn row next) row) =
        (row + 2, (mem (row + 1)).toNat) := by
  obtain ⟨n, hn⟩ : ∃ n, min next 0x4c0 - row = n + 2 := ⟨next - row - 2, by omega⟩
  rw [rowsIn_areaOf hfirst, hn, List.range'_succ, List.range'_succ, List.map_cons, List.map_cons]
  obtain ⟨hkey, hvalue⟩ := parseEntry_rows (mem row) (mem (row + 1))
    ((List.range' (row + 1 + 1) n).map mem) row
  refine ⟨?_, hvalue⟩
  rw [isBoard, hkey]
  by_cases h : mem row = OTP_KEY_NONE
  · rw [if_pos h, h]; decide
  · rw [if_neg h]; rfl

/-- How the firmware leaves the entry loop where the host's parser ends a list so. -/
def entryScan (board : BoardValue) : List StoreEntry × ListEnd → EntryScan
  | (entries, .terminated lastRow) => .done lastRow false ((lastBoard entries).or board)
  | (entries, .signature _ lastRow) => .done lastRow true ((lastBoard entries).or board)
  | (_, .lost _) => .giveUp

lemma entryScan_cons (board : BoardValue) (entry : StoreEntry)
    (parse : List StoreEntry × ListEnd) :
    entryScan board (entry :: parse.1, parse.2) =
      entryScan (if isBoard entry then some (valueAt entry) else board) parse := by
  obtain ⟨entries, _ | _ | _⟩ := parse
  · simp only [entryScan, lastBoard_cons]
  · simp only [entryScan, lastBoard_cons]
  · rfl

/-- **Entries**: the firmware's entry loop is left as the host's parser ends the list. -/
theorem scanEntries_eq (hfirst : 0x0c0 ≤ row) (hrow : row ≤ 0x4c0) (board : BoardValue) :
    (scanEntries mem row board).1 = entryScan board (parseEntries (areaOf mem) row true) := by
  have hend : (areaOf mem).endRow = 0x4c0 := areaOf_endRow
  have hAREA : AREA_END = 0x4c0 := rfl
  fun_induction scanEntries mem row board with
  | case1 row board h =>
    rw [parseEntries_end (by omega), show row = 0x4c0 by omega]; rfl
  | case2 row board h1 h2 =>
    rw [parseEntries_last (by omega)]; rfl
  | case3 row board h1 h2 key len h3 =>
    rw [parseEntries_stop (by omega)]
    · rfl
    · rw [row_areaOf mem hfirst (by omega), row_areaOf mem (by omega) (by omega)]; exact h3
  | case4 row board h1 h2 key len h3 next hnext =>
    have hlen : (areaOf mem).row (row + 1) = len := row_areaOf mem (by omega) (by omega)
    rw [parseEntries_overrun (by omega)]
    · rfl
    · rw [row_areaOf mem hfirst (by omega), hlen]; exact h3
    · rw [hlen, hend, entryRowCount, ← Nat.add_assoc]; exact hnext
  | case5 row board h1 h2 key len h3 next hnext hkey result reads hscan ih =>
    have hle : next ≤ 0x4c0 := not_lt.mp hnext
    have hrow0 : (areaOf mem).row row = key := row_areaOf mem hfirst (by omega)
    have hrow1 : (areaOf mem).row (row + 1) = len := row_areaOf mem (by omega) (by omega)
    have hcount : row + entryRowCount len.toNat = next := by rw [entryRowCount, ← Nat.add_assoc]
    obtain ⟨hboard, hvalue⟩ := parseEntry_area mem hfirst (by omega : row + 2 ≤ next) hle
    rw [hscan, u16_of_le hle] at ih
    rw [parseEntries_next (by rw [hrow0, hrow1]; exact h3) (by rw [hrow1, hcount, hend]; exact hle)
      (by rw [hrow0, hkey]; decide), hrow1, hcount, entryScan_cons, hboard, hvalue,
      show mem row = key from rfl, hkey]
    exact ih (by omega) hle
  | case6 row board h1 h2 key len h3 next hnext hkey hsig =>
    have hle : next ≤ 0x4c0 := not_lt.mp hnext
    have hrow0 : (areaOf mem).row row = key := row_areaOf mem hfirst (by omega)
    have hrow1 : (areaOf mem).row (row + 1) = len := row_areaOf mem (by omega) (by omega)
    have hcount : row + entryRowCount len.toNat = next := by rw [entryRowCount, ← Nat.add_assoc]
    obtain ⟨hboard, -⟩ := parseEntry_area mem hfirst (by omega : row + 2 ≤ next) hle
    rw [show mem row = key from rfl, hsig] at hboard
    rw [parseEntries_sig (by rw [hrow0, hrow1]; exact h3) (by rw [hrow1, hcount, hend]; exact hle)
      ⟨rfl, hrow0.trans hsig⟩, hrow1, hcount, u16_of_le (by omega)]
    -- the signature's entry is no board's
    have hnone : lastBoard [parseEntry ((areaOf mem).rowsIn row next) row] = none := by
      simp [lastBoard, hboard, OneromOtpKey.toU16]
    simp only [entryScan, hnone, Option.none_or]
  | case7 row board h1 h2 key len h3 next hnext hkey hsig result reads hscan ih =>
    have hle : next ≤ 0x4c0 := not_lt.mp hnext
    have hrow0 : (areaOf mem).row row = key := row_areaOf mem hfirst (by omega)
    have hrow1 : (areaOf mem).row (row + 1) = len := row_areaOf mem (by omega) (by omega)
    have hcount : row + entryRowCount len.toNat = next := by rw [entryRowCount, ← Nat.add_assoc]
    obtain ⟨hboard, -⟩ := parseEntry_area mem hfirst (by omega : row + 2 ≤ next) hle
    rw [show mem row = key from rfl, beq_eq_false_iff_ne.mpr hkey] at hboard
    rw [hscan, u16_of_le hle] at ih
    rw [parseEntries_next (by rw [hrow0, hrow1]; exact h3) (by rw [hrow1, hcount, hend]; exact hle)
      (by rw [hrow0]; exact fun h => hsig h.2), hrow1, hcount, entryScan_cons, hboard]
    exact ih (by omega) hle

/-! ### The instance loop against the host's walk -/

lemma lastComplete_cons (inst : CommissioningInstance) (instances : List CommissioningInstance) :
    lastComplete (inst :: instances) =
      (lastComplete instances).or (if inst.isComplete then some inst else none) := by
  simp only [lastComplete, List.reverse_cons, List.find?_append, List.find?_cons, List.find?_nil]
  cases inst.isComplete <;> rfl

/-- The board the firmware finds, from what the host's walk returns. -/
def reported (found : BoardValue)
    (walked : List CommissioningInstance × List AreaIssue × Walk) : BoardValue :=
  if walked.2.1 = [] then
    (lastComplete walked.1).elim found fun inst => lastBoard inst.entries
  else none

lemma reported_of_issue {found : BoardValue}
    {walked : List CommissioningInstance × List AreaIssue × Walk} (h : walked.2.1 ≠ []) :
    reported found walked = none := if_neg h

lemma reported_cons (found : BoardValue) (inst : CommissioningInstance)
    (walked : List CommissioningInstance × List AreaIssue × Walk) :
    reported found (inst :: walked.1, walked.2) =
      reported (if inst.isComplete then lastBoard inst.entries else found) walked := by
  simp only [reported, lastComplete_cons]
  rcases lastComplete walked.1 with _ | last
  · cases inst.isComplete <;> rfl
  · rfl

lemma page_after_eq {lastRow : ℕ} (h : lastRow < 0x4c0) : page_after lastRow = pageAfter lastRow :=
  u16_of_le (by
    simp only [AREA_END, OTP_COMMISSIONING_AREA_LAST_ROW, OTP_PAGE_ROWS]
    omega)

/-- How an instance with a known version ends, by how the firmware leaves its entry loop. -/
lemma parseInstance_scan {boundary : ℕ} (hfirst : 0x0c0 ≤ boundary) (hend : boundary + 2 ≤ 0x4c0)
    (hversion : mem (boundary + 1) = OTP_STORE_VERSION) :
    match (scanEntries mem (boundary + 2) none).1 with
    | .giveUp => ∃ inst lost, parseInstance (areaOf mem) boundary = .lost inst lost
    | .done lastRow complete board => ∃ inst,
        parseInstance (areaOf mem) boundary = .ended inst lastRow ∧ inst.isComplete = complete ∧
          lastBoard inst.entries = board := by
  have hinst := parseInstance_entries (areaOf mem)
    (by rw [areaOf_endRow]; omega : boundary + 1 ≠ (areaOf mem).endRow) ((row_areaOf mem (by omega) (by omega)).trans hversion)
  rw [scanEntries_eq (by omega) hend, hinst]
  rcases parseEntries (areaOf mem) (boundary + 2) true with ⟨entries, l | ⟨k, l⟩ | l⟩
  · exact ⟨_, rfl, rfl, Option.or_none.symm⟩
  · exact ⟨_, rfl, rfl, Option.or_none.symm⟩
  · exact ⟨_, _, rfl⟩

/-- **Instances**: the firmware's instance loop finds the board of the last complete instance of
the host's walk, and nothing where that walk meets a problem. -/
theorem scanInstances_eq {boundary : ℕ} (hfirst : 0x0c0 ≤ boundary) (hpage : boundary % 64 = 0)
    (found : BoardValue) :
    (scanInstances mem boundary found).1 = reported found (walk (areaOf mem) boundary) := by
  have hEnd : (areaOf mem).endRow = 0x4c0 := areaOf_endRow
  have hAREA : AREA_END = 0x4c0 := rfl
  have hpages : ∀ r, pageAfter r % 64 = 0 := by
    intro r; simp only [pageAfter, OTP_PAGE_ROWS]; omega
  fun_induction scanInstances mem boundary found with
  | case1 boundary found hlt magic hzero =>
    rw [walk_unwritten (by omega) ((row_areaOf mem hfirst hlt).trans hzero)]; rfl
  | case2 boundary found hlt magic hne hmagic =>
    have hrow := row_areaOf mem hfirst hlt
    rw [reported_of_issue (walk_issue (by omega) (by rw [hrow]; exact hne) fun h =>
      absurd (hrow.symm.trans h) hmagic)]
  | case3 boundary found hlt magic hne hmagic version hversion reads hscan =>
    have hrow := row_areaOf mem hfirst hlt
    have hinst := parseInstance_scan hfirst (by omega) hversion
    rw [hscan] at hinst
    obtain ⟨inst, lost, hinst⟩ := hinst
    have hended : ∀ inst lastRow, parseInstance (areaOf mem) boundary ≠ .ended inst lastRow := by
      intro _ _ h
      rw [hinst] at h
      cases h
    rw [reported_of_issue (walk_issue (by omega) (by rw [hrow]; exact hne) fun _ => hended)]
  | case4 boundary found hlt magic hne hmagic version hversion lastRow complete board reads hscan
      result reads' hrest ih =>
    have hrow := row_areaOf mem hfirst hlt
    have hinst := parseInstance_scan hfirst (by omega) hversion
    have hwithin := scanEntries_within mem (boundary + 2) none
    rw [hscan] at hinst hwithin
    obtain ⟨inst, hinst, rfl, rfl⟩ := hinst
    have hlast := lt_pageAfter lastRow
    simp only [EntryScan.Within] at hwithin
    rw [hrest, page_after_eq hwithin.2] at ih
    rw [walk_instance (by omega) (hrow.trans (not_not.mp hmagic)) hinst, reported_cons]
    exact ih (by omega) (hpages lastRow)
  | case5 boundary found hlt magic hne hmagic version hversion hne' =>
    have hrow := row_areaOf mem hfirst hlt
    have hrow1 := row_areaOf mem (by omega : 0x0c0 ≤ boundary + 1) (by omega)
    rw [reported_of_issue (walk_issue (by omega) (by rw [hrow]; exact hne) fun _ inst lastRow h => ?_)]
    obtain ⟨-, ⟨hzero, -⟩ | ⟨hone, -⟩⟩ := parseInstance_ended _ h
    · exact hne' (hrow1.symm.trans hzero)
    · exact hversion (hrow1.symm.trans hone)
  | case6 boundary found hlt magic hne hmagic version hversion hzero result reads' hrest ih =>
    have hrow := row_areaOf mem hfirst hlt
    have hrow1 := row_areaOf mem (by omega : 0x0c0 ≤ boundary + 1) (by omega)
    have hinst := parseInstance_unwritten (areaOf mem)
      (by rw [hEnd]; omega : boundary + 1 ≠ (areaOf mem).endRow) (hrow1.trans (not_not.mp hzero))
    have hlast := lt_pageAfter (boundary + 1)
    rw [hrest, page_after_eq (by omega)] at ih
    rw [walk_instance (by omega) (hrow.trans (not_not.mp hmagic)) hinst, reported_cons]
    exact ih (by omega) (hpages _)
  | case7 boundary found hge =>
    rw [walk_past (by omega)]; rfl

/-- The scan reads rows of the area only. -/
lemma scanInstances_reads (mem : ℕ → UInt16) {boundary : ℕ} (hfirst : 0x0c0 ≤ boundary) (hpage : boundary % 64 = 0)
    (found : BoardValue) :
    ∀ r ∈ (scanInstances mem boundary found).2, 0x0c0 ≤ r ∧ r < AREA_END := by
  have hAREA : AREA_END = 0x4c0 := rfl
  have hpages : ∀ r, pageAfter r % 64 = 0 := by
    intro r; simp only [pageAfter, OTP_PAGE_ROWS]; omega
  -- the two header rows of an instance, then its entries', then those of later instances
  have hcons : ∀ {boundary : ℕ} {reads : List ℕ}, 0x0c0 ≤ boundary → boundary % 64 = 0 →
      boundary < AREA_END → (∀ r ∈ reads, 0x0c0 ≤ r ∧ r < AREA_END) →
      ∀ r ∈ boundary :: (boundary + 1) :: reads, 0x0c0 ≤ r ∧ r < AREA_END := by
    intro boundary reads hfirst hpage hlt hreads r hr
    rcases List.mem_cons.mp hr with rfl | hr
    · omega
    rcases List.mem_cons.mp hr with rfl | hr
    · omega
    · exact hreads r hr
  fun_induction scanInstances mem boundary found with
  | case1 => simp; omega
  | case2 => simp; omega
  | case3 boundary found hlt magic hne hmagic version hversion reads hscan =>
    have hreads := scanEntries_reads mem (boundary + 2) none
    rw [hscan] at hreads
    exact hcons hfirst hpage hlt fun r hr => ⟨by have := (hreads r hr).1; omega, (hreads r hr).2⟩
  | case4 boundary found hlt magic hne hmagic version hversion lastRow complete board reads hscan
      result reads' hrest ih =>
    have hreads := scanEntries_reads mem (boundary + 2) none
    have hwithin := scanEntries_within mem (boundary + 2) none
    rw [hscan] at hreads hwithin
    have hlast := lt_pageAfter lastRow
    simp only [EntryScan.Within] at hwithin
    rw [hrest, page_after_eq hwithin.2] at ih
    refine hcons hfirst hpage hlt fun r hr => ?_
    rcases List.mem_append.mp hr with hr | hr
    · exact ⟨by have := (hreads r hr).1; omega, (hreads r hr).2⟩
    · exact ih (by omega) (hpages lastRow) r hr
  | case5 => simp; omega
  | case6 boundary found hlt magic hne hmagic version hversion hzero result reads' hrest ih =>
    have hlast := lt_pageAfter (boundary + 1)
    rw [hrest, page_after_eq (by omega)] at ih
    exact hcons hfirst hpage hlt (ih (by omega) (hpages _))
  | case7 => simp

/-- **Agreement**: the firmware finds a board exactly where the host's parser reports no issue and
its last complete instance has a `COMMISSIONING_BOARD` entry, and then it returns the last such
entry's value; it reads no row outside the area. -/
theorem otp_commissioned_board_agrees (mem : ℕ → UInt16) :
    ((otp_commissioned_board mem).1.isSome ↔ (parsed mem).issues = [] ∧
        ∃ inst, lastComplete (parsed mem).instances = some inst ∧
          ∃ entry ∈ inst.entries, entry.key = some OneromOtpKey.commissioningBoard.toU16) ∧
      (∀ row len, (otp_commissioned_board mem).1 = some (row, len) →
        ∃ inst entry, lastComplete (parsed mem).instances = some inst ∧
          inst.entries.reverse.find? isBoard = some entry ∧ valueAt entry = (row, len)) ∧
      ∀ r ∈ (otp_commissioned_board mem).2,
        OTP_COMMISSIONING_AREA_FIRST_ROW ≤ r ∧ r ≤ OTP_COMMISSIONING_AREA_LAST_ROW := by
  have heq : (otp_commissioned_board mem).1 = reported none (walk (areaOf mem) 0x0c0) :=
    scanInstances_eq le_rfl rfl none
  obtain ⟨hinstances, hissues⟩ := parsed_walk mem
  rw [heq, hinstances, hissues]
  generalize walk (areaOf mem) 0x0c0 = walked
  have hboard : ∀ entries : List StoreEntry, (lastBoard entries).isSome ↔
      ∃ entry ∈ entries, entry.key = some OneromOtpKey.commissioningBoard.toU16 := by
    intro entries
    simp [lastBoard, isBoard]
  refine ⟨?_, ?_, fun r hr => ?_⟩
  · unfold reported
    split_ifs with h
    · rcases lastComplete walked.1 with _ | inst
      · simp
      · simp [h, hboard]
    · simp [h]
  · intro row len h
    unfold reported at h
    split_ifs at h
    rcases hlast : lastComplete walked.1 with _ | inst
    · rw [hlast] at h; cases h
    · rw [hlast] at h
      obtain ⟨entry, hentry, hvalue⟩ := Option.map_eq_some_iff.mp h
      exact ⟨inst, entry, rfl, hentry, hvalue⟩
  · have := scanInstances_reads mem le_rfl rfl none r hr
    exact ⟨this.1, Nat.le_of_lt_succ this.2⟩

end OneRom.OtpFirmware
