import OneRom.OtpEntry

/-!
The parser of the OTP store's commissioning area.

A row is a natural number: the area ends at row `0x4bf`, and no sum the parser forms reaches
`2 ^ 16`. An entry list is read entry by entry, an instance is a magic row, a version row and
an entry list, and `walk` goes from instance to instance by page boundaries.
-/

namespace OneRom.OtpStore

open OneRom.LittleEndian OneRom.OtpEntry

/-- The row after the commissioning area's last. -/
def COMMISSIONING_AREA_END : ℕ := OTP_COMMISSIONING_AREA_LAST_ROW + 1

/-- The start of the message a commissioning signature covers. -/
def SIGNATURE_PREFIX : List UInt8 := strBytes "onerom-commissioning-sig-v1"

/-- The signature prefix, then CHIPID, then `rows`, each row low byte first. -/
def signedMessage (chipId : Vector UInt16 4) (rows : List UInt16) : List UInt8 :=
  SIGNATURE_PREFIX ++ bytes (chipId.toList ++ rows)

/-! ### What the parser returns -/

inductive StoreEntry
  /-- An entry whose value parsed. -/
  | entry (row : ℕ) (entry : OneromOtpEntry)
  /-- Key 0 with a length other than 0. -/
  | deleted (row : ℕ) (len : UInt16)
  /-- A known key whose value doesn't parse. -/
  | unreadable (row : ℕ) (key len : UInt16)
  deriving DecidableEq

/-- The entry's key, or `none` for a deleted entry. -/
def StoreEntry.key : StoreEntry → Option UInt16
  | .entry _ e => some (entryKey e)
  | .deleted _ _ => none
  | .unreadable _ key _ => some key

inductive AreaIssue
  | unknownVersion (row : ℕ) (version : UInt16)
  | lostPlace (row : ℕ)
  deriving DecidableEq

structure CommissioningInstance where
  firstRow : ℕ
  entries : List StoreEntry
  /-- The rows the signature covers, where `COMMISSIONING_SIG` ends the instance. -/
  signedRows : Option (List UInt16)
  deriving DecidableEq

namespace CommissioningInstance

variable (inst : CommissioningInstance)

/-- The last entry with `key`, where its value parsed. -/
def used (key : OneromOtpKey) : Option OneromOtpEntry :=
  match inst.entries.reverse.find? (fun entry => entry.key == some key.toU16) with
  | some (.entry _ entry) => some entry
  | _ => none

def board : Option String :=
  match inst.used .commissioningBoard with
  | some (.commissioningBoard name) => some name
  | _ => none

def manufacturer : Option String :=
  match inst.used .commissioningManufacturer with
  | some (.commissioningManufacturer name) => some name
  | _ => none

def date : Option String :=
  match inst.used .commissioningDate with
  | some (.commissioningDate date) => some date
  | _ => none

def signer : Option UInt16 :=
  match inst.used .commissioningSigner with
  | some (.commissioningSigner id) => some id
  | _ => none

def signature : Option (Vector UInt8 OTP_COMMISSIONING_SIG_LEN) :=
  match inst.used .commissioningSig with
  | some (.commissioningSig signature) => some signature
  | _ => none

/-- Whether the instance has a value for each of the five commissioning keys. -/
def isValid : Bool :=
  inst.board.isSome && inst.manufacturer.isSome && inst.date.isSome && inst.signer.isSome
    && inst.signature.isSome

def message (chipId : Vector UInt16 4) : Option (List UInt8) :=
  inst.signedRows.map (signedMessage chipId)

/-- Whether `COMMISSIONING_SIG` ends the instance. -/
def isComplete : Bool := inst.signedRows.isSome

end CommissioningInstance

/-! ### The area's rows -/

/-- An area's rows, from `first` to the row before `endRow`. -/
structure Area where
  rows : List UInt16
  first : ℕ
  endRow : ℕ
  endRow_eq : endRow = first + rows.length

/-- The rows from `first` to the row before `endRow`, as far as `rows` goes. -/
def Area.new (rows : List UInt16) (first endRow : ℕ) : Area where
  rows := rows.take (endRow - first)
  first := first
  endRow := first + (rows.take (endRow - first)).length
  endRow_eq := rfl

/-- The first page boundary after `row`. -/
def pageAfter (row : ℕ) : ℕ := (row / OTP_PAGE_ROWS + 1) * OTP_PAGE_ROWS

lemma lt_pageAfter (row : ℕ) : row < pageAfter row := by simp only [pageAfter, OTP_PAGE_ROWS]; omega

variable (area : Area)

def Area.row (row : ℕ) : UInt16 := area.rows.getD (row - area.first) 0

/-- Rows `lo` to the row before `hi`. -/
def Area.rowsIn (lo hi : ℕ) : List UInt16 :=
  (area.rows.drop (lo - area.first)).take (hi - lo)

/-- The first page boundary after `row` holding the magic value. -/
def Area.instanceAfter (row : ℕ) : Option ℕ :=
  (List.range' (pageAfter row)
    ((area.endRow - pageAfter row + (OTP_PAGE_ROWS - 1)) / OTP_PAGE_ROWS) OTP_PAGE_ROWS).find?
    fun boundary => area.row boundary == OTP_STORE_MAGIC

lemma Area.lt_instanceAfter {row next : ℕ} (h : area.instanceAfter row = some next) :
    row < next := by
  obtain ⟨i, -, rfl⟩ := List.mem_range'.mp (List.mem_of_find?_eq_some h)
  have := lt_pageAfter row
  omega

/-! ### Entries -/

/-- Parses the entry at `row` from its rows, key row first. -/
def parseEntry (rows : List UInt16) (row : ℕ) : StoreEntry :=
  let key := rows.getD 0 0
  let len := rows.getD 1 0
  if key = OTP_KEY_NONE then .deleted row len
  else
    match OneromOtpEntry.parse ⟨bytes rows, 0⟩ 0 with
    | .ok entry => if valueLen entry = len.toNat then .entry row entry else .unreadable row key len
    | .error _ => .unreadable row key len

/-- Where a list of entries ended. -/
inductive ListEnd
  | terminated (lastRow : ℕ)
  | signature (keyRow lastRow : ℕ)
  | lost (row : ℕ)
  deriving DecidableEq

lemma two_le_entryRowCount (len : ℕ) : 2 ≤ entryRowCount len := by simp [entryRowCount]

/-- Parses the list of entries starting at `row`. -/
def parseEntries (row : ℕ) (signatureEnds : Bool) : List StoreEntry × ListEnd :=
  if row = area.endRow then ([], .terminated (row - 1))
  else if row + 1 = area.endRow then ([], .lost row)
  else
    let key := area.row row
    let len := area.row (row + 1)
    if key = OTP_KEY_NONE ∧ len = 0 then ([], .terminated (row + 1))
    else
      let next := row + entryRowCount len.toNat
      if next > area.endRow then ([], .lost row)
      else
        let entry := parseEntry (area.rowsIn row next) row
        if signatureEnds ∧ key = OneromOtpKey.commissioningSig.toU16 then
          ([entry], .signature row (next - 1))
        else
          let (entries, listEnd) := parseEntries next signatureEnds
          (entry :: entries, listEnd)
termination_by area.endRow - row
decreasing_by
  have := two_le_entryRowCount (area.row (row + 1)).toNat
  omega

section Steps

variable {area} {row : ℕ} {signatureEnds : Bool}

lemma parseEntries_end (h : row = area.endRow) :
    parseEntries area row signatureEnds = ([], .terminated (row - 1)) := by
  rw [parseEntries, if_pos h]

lemma parseEntries_last (h : row + 1 = area.endRow) :
    parseEntries area row signatureEnds = ([], .lost row) := by
  rw [parseEntries, if_neg (by omega), if_pos h]

lemma parseEntries_stop (h : row + 2 ≤ area.endRow)
    (hnone : area.row row = OTP_KEY_NONE ∧ area.row (row + 1) = 0) :
    parseEntries area row signatureEnds = ([], .terminated (row + 1)) := by
  rw [parseEntries, if_neg (by omega), if_neg (by omega)]
  exact if_pos hnone

lemma parseEntries_overrun (h : row + 2 ≤ area.endRow)
    (hsome : ¬(area.row row = OTP_KEY_NONE ∧ area.row (row + 1) = 0))
    (hover : area.endRow < row + entryRowCount (area.row (row + 1)).toNat) :
    parseEntries area row signatureEnds = ([], .lost row) := by
  rw [parseEntries, if_neg (by omega), if_neg (by omega)]
  exact (if_neg hsome).trans (if_pos hover)

lemma parseEntries_sig
    (hsome : ¬(area.row row = OTP_KEY_NONE ∧ area.row (row + 1) = 0))
    (hfits : row + entryRowCount (area.row (row + 1)).toNat ≤ area.endRow)
    (hsig : signatureEnds ∧ area.row row = OneromOtpKey.commissioningSig.toU16) :
    parseEntries area row signatureEnds =
      ([parseEntry (area.rowsIn row (row + entryRowCount (area.row (row + 1)).toNat)) row],
        .signature row (row + entryRowCount (area.row (row + 1)).toNat - 1)) := by
  have htwo := two_le_entryRowCount (area.row (row + 1)).toNat
  rw [parseEntries, if_neg (by omega), if_neg (by omega)]
  exact (if_neg hsome).trans ((if_neg (not_lt.mpr hfits)).trans (if_pos hsig))

lemma parseEntries_next
    (hsome : ¬(area.row row = OTP_KEY_NONE ∧ area.row (row + 1) = 0))
    (hfits : row + entryRowCount (area.row (row + 1)).toNat ≤ area.endRow)
    (hsig : ¬(signatureEnds ∧ area.row row = OneromOtpKey.commissioningSig.toU16)) :
    parseEntries area row signatureEnds =
      (parseEntry (area.rowsIn row (row + entryRowCount (area.row (row + 1)).toNat)) row ::
        (parseEntries area (row + entryRowCount (area.row (row + 1)).toNat) signatureEnds).1,
        (parseEntries area (row + entryRowCount (area.row (row + 1)).toNat) signatureEnds).2) := by
  have htwo := two_le_entryRowCount (area.row (row + 1)).toNat
  rw [parseEntries, if_neg (by omega), if_neg (by omega)]
  exact (if_neg hsome).trans ((if_neg (not_lt.mpr hfits)).trans (if_neg hsig))

end Steps

/-- The rows a list end names lie at or after `row`. -/
def ListEnd.From (row : ℕ) : ListEnd → Prop
  | .terminated lastRow => row ≤ lastRow + 1
  | .signature keyRow lastRow => row ≤ keyRow ∧ keyRow ≤ lastRow
  | .lost lostRow => row ≤ lostRow

lemma ListEnd.From.mono {row next : ℕ} {e : ListEnd} (h : e.From next) (hle : row ≤ next) :
    e.From row := by
  cases e <;> simp only [ListEnd.From] at h ⊢ <;> omega

lemma parseEntries_from (row : ℕ) (signatureEnds : Bool) :
    (parseEntries area row signatureEnds).2.From row := by
  fun_induction parseEntries area row signatureEnds with
  | case1 => simp only [ListEnd.From]; omega
  | case2 => exact le_rfl
  | case3 => simp only [ListEnd.From]; omega
  | case4 => exact le_rfl
  | case5 row _ _ _ len _ next =>
    have := two_le_entryRowCount len.toNat
    simp only [ListEnd.From]; omega
  | case6 row _ _ key len _ next _ entry _ entries listEnd heq ih =>
    have := two_le_entryRowCount len.toNat
    rw [heq] at ih
    exact ih.mono (by omega)

/-! ### Instances -/

/-- Where a commissioning instance ended. -/
inductive Instance
  | ended (instance_ : CommissioningInstance) (lastRow : ℕ)
  | unknownVersion (version : UInt16)
  | lost (instance_ : CommissioningInstance) (row : ℕ)
  deriving DecidableEq

/-- The instance at `firstRow`, from its entries and where they ended. -/
def Instance.ofEntries (firstRow : ℕ) : List StoreEntry × ListEnd → Instance
  | (entries, .terminated lastRow) => .ended ⟨firstRow, entries, none⟩ lastRow
  | (entries, .signature keyRow lastRow) =>
    .ended ⟨firstRow, entries, some (area.rowsIn firstRow keyRow)⟩ lastRow
  | (entries, .lost row) => .lost ⟨firstRow, entries, none⟩ row

/-- Parses the commissioning instance whose magic row is `firstRow`. -/
def parseInstance (firstRow : ℕ) : Instance :=
  let versionRow := firstRow + 1
  if versionRow = area.endRow then .lost ⟨firstRow, [], none⟩ firstRow
  else
    let version := area.row versionRow
    if version = 0 then .ended ⟨firstRow, [], none⟩ versionRow
    else if version = OTP_STORE_VERSION then
      Instance.ofEntries area firstRow (parseEntries area (firstRow + 2) true)
    else .unknownVersion version

/-- The row an instance names lies at or after its magic row, and after it where it ended. -/
def Instance.From (row : ℕ) : Instance → Prop
  | .ended _ lastRow => row < lastRow
  | .unknownVersion _ => True
  | .lost _ lostRow => row ≤ lostRow

lemma parseInstance_from (firstRow : ℕ) : (parseInstance area firstRow).From firstRow := by
  have hfrom := parseEntries_from area (firstRow + 2) true
  unfold parseInstance
  simp only
  split_ifs
  · exact le_rfl
  · exact Nat.lt_succ_self _
  · rcases heq : parseEntries area (firstRow + 2) true with ⟨entries, _ | _ | _⟩ <;>
      simp only [heq, ListEnd.From, Instance.From, Instance.ofEntries] at hfrom ⊢ <;> omega
  · trivial

lemma parseInstance_unwritten {firstRow : ℕ} (hne : firstRow + 1 ≠ area.endRow)
    (hversion : area.row (firstRow + 1) = 0) :
    parseInstance area firstRow = .ended ⟨firstRow, [], none⟩ (firstRow + 1) := by
  rw [parseInstance, if_neg hne]
  exact if_pos hversion

lemma parseInstance_entries {firstRow : ℕ} (hne : firstRow + 1 ≠ area.endRow)
    (hversion : area.row (firstRow + 1) = OTP_STORE_VERSION) :
    parseInstance area firstRow =
      Instance.ofEntries area firstRow (parseEntries area (firstRow + 2) true) := by
  simp only [parseInstance, if_neg hne, hversion]
  rfl

/-- An instance that ended has an unwritten version row, or a list of entries that ended. -/
lemma parseInstance_ended {firstRow lastRow : ℕ} {inst : CommissioningInstance}
    (h : parseInstance area firstRow = .ended inst lastRow) :
    firstRow + 1 ≠ area.endRow ∧
      ((area.row (firstRow + 1) = 0 ∧ lastRow = firstRow + 1) ∨
        (area.row (firstRow + 1) = OTP_STORE_VERSION ∧ .ended inst lastRow =
          Instance.ofEntries area firstRow (parseEntries area (firstRow + 2) true))) := by
  unfold parseInstance at h
  simp only at h
  split_ifs at h with hne hzero hversion
  · cases h
    exact ⟨hne, .inl ⟨hzero, rfl⟩⟩
  · exact ⟨hne, .inr ⟨hversion, h.symm⟩⟩

/-- Where the parser left the commissioning area. -/
inductive Walk
  /-- At an unwritten page boundary, or at the area's end with `none`. -/
  | ended (boundary : Option ℕ)
  | abandoned
  deriving DecidableEq

/-- Parses each commissioning instance from `boundary` on. -/
def walk (boundary : ℕ) : List CommissioningInstance × List AreaIssue × Walk :=
  if boundary < area.endRow then
    if area.row boundary = 0 then ([], [], .ended (some boundary))
    else if area.row boundary = OTP_STORE_MAGIC then
      match _hinst : parseInstance area boundary with
      | .ended inst lastRow =>
        let (instances, issues, walked) := walk (pageAfter lastRow)
        (inst :: instances, issues, walked)
      | .unknownVersion version => ([], [.unknownVersion boundary version], .abandoned)
      | .lost inst lost =>
        match _hnext : area.instanceAfter lost with
        | some next =>
          let (instances, issues, walked) := walk next
          (inst :: instances, .lostPlace lost :: issues, walked)
        | none => ([inst], [.lostPlace lost], .abandoned)
    else
      match _hnext : area.instanceAfter boundary with
      | some next =>
        let (instances, issues, walked) := walk next
        (instances, .lostPlace boundary :: issues, walked)
      | none => ([], [.lostPlace boundary], .abandoned)
  else ([], [], .ended none)
termination_by area.endRow - boundary
decreasing_by
  · have := parseInstance_from area boundary
    rw [_hinst] at this
    have := lt_pageAfter lastRow
    simp only [Instance.From] at *
    omega
  · have := parseInstance_from area boundary
    rw [_hinst] at this
    have := area.lt_instanceAfter _hnext
    simp only [Instance.From] at *
    omega
  · have := area.lt_instanceAfter _hnext
    omega

section Steps

variable {area} {boundary : ℕ}

lemma walk_unwritten (hlt : boundary < area.endRow) (hzero : area.row boundary = 0) :
    walk area boundary = ([], [], .ended (some boundary)) := by
  rw [walk, if_pos hlt, if_pos hzero]

lemma walk_past (hge : area.endRow ≤ boundary) : walk area boundary = ([], [], .ended none) := by
  rw [walk, if_neg (not_lt.mpr hge)]

lemma walk_instance {inst : CommissioningInstance} {lastRow : ℕ} (hlt : boundary < area.endRow)
    (hmagic : area.row boundary = OTP_STORE_MAGIC)
    (hinst : parseInstance area boundary = .ended inst lastRow) :
    walk area boundary =
      (inst :: (walk area (pageAfter lastRow)).1, (walk area (pageAfter lastRow)).2) := by
  rw [walk, if_pos hlt, if_neg (by rw [hmagic]; decide), if_pos hmagic]
  split
  · next heq =>
    rw [hinst] at heq
    cases heq
    rfl
  · next heq => rw [hinst] at heq; cases heq
  · next heq => rw [hinst] at heq; cases heq

lemma walk_abandoned {inst : CommissioningInstance} {lost : ℕ} (hlt : boundary < area.endRow)
    (hmagic : area.row boundary = OTP_STORE_MAGIC)
    (hinst : parseInstance area boundary = .lost inst lost)
    (hnext : area.instanceAfter lost = none) :
    walk area boundary = ([inst], [.lostPlace lost], .abandoned) := by
  rw [walk, if_pos hlt, if_neg (by rw [hmagic]; decide), if_pos hmagic]
  split
  · next heq => rw [hinst] at heq; cases heq
  · next heq => rw [hinst] at heq; cases heq
  · next heq =>
    rw [hinst] at heq
    cases heq
    split
    · next heq => rw [hnext] at heq; cases heq
    · rfl

/-- A written boundary where no instance ends is a problem. -/
lemma walk_issue (hlt : boundary < area.endRow) (hne : area.row boundary ≠ 0)
    (hbad : area.row boundary = OTP_STORE_MAGIC →
      ∀ inst lastRow, parseInstance area boundary ≠ .ended inst lastRow) :
    (walk area boundary).2.1 ≠ [] := by
  rw [walk, if_pos hlt, if_neg hne]
  split_ifs with hmagic
  · split
    · next heq => exact absurd heq (hbad hmagic _ _)
    · exact List.cons_ne_nil _ _
    · split <;> exact List.cons_ne_nil _ _
  · split <;> exact List.cons_ne_nil _ _

end Steps

/-! ### The parsed area -/

/-- The last position whose element satisfies `p`. -/
def rposition {α : Type*} (p : α → Bool) : List α → Option ℕ
  | [] => none
  | x :: xs =>
    match rposition p xs with
    | some i => some (i + 1)
    | none => if p x then some 0 else none

structure CommissioningArea where
  instances : List CommissioningInstance
  issues : List AreaIssue
  /-- The current instance's index in `instances`. -/
  currentIndex : Option ℕ
  nextInstanceRow : Option ℕ

namespace CommissioningArea

/-- Parses the commissioning area from its rows, row `0x0c0` first. -/
def parse (rows : List UInt16) : CommissioningArea :=
  let area := Area.new rows OTP_COMMISSIONING_AREA_FIRST_ROW COMMISSIONING_AREA_END
  match walk area area.first with
  | (instances, issues, .ended nextInstanceRow) =>
    { instances, issues, nextInstanceRow
      -- the last complete instance is current, where it's valid
      currentIndex := (rposition CommissioningInstance.isComplete instances).filter
        fun i => (instances[i]?.map CommissioningInstance.isValid).getD false }
  | (instances, issues, .abandoned) =>
    { instances, issues, nextInstanceRow := none, currentIndex := none }

/-- The last complete instance, where it's valid. -/
def current (a : CommissioningArea) : Option CommissioningInstance :=
  a.currentIndex.bind fun i => a.instances[i]?

end CommissioningArea

end OneRom.OtpStore
