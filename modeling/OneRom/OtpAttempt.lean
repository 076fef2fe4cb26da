import OneRom.OtpArea
import OneRom.OtpWriter

/-!
What the parser finds at the boundary a commissioning attempt writes to.

The attempt's writes may be cut after any number of them. The parser then finds a complete
instance (`parse_complete`), an instance whose signature is missing (`parse_interrupted`), or,
where the instance ends one row before the area does and the cut is in the signature's entry, it
loses its place (`parse_cutAtEnd`).
-/

namespace OneRom.OtpAttempt

open OneRom.LittleEndian OneRom.OtpEntry OneRom.OtpStore OneRom.OtpWriter OneRom.OtpArea
open OneRom.WriteOnce OneRom.Hw

/-- Accepted values, placed and with a signature. -/
structure Commissioning where
  board : Board
  manufacturer : String
  date : String
  signer : UInt16
  signature : Vector UInt8 OTP_COMMISSIONING_SIG_LEN
  values : CommissioningValues
  accepted : CommissioningValues.new board manufacturer date signer = .ok values
  firstRow : ℕ
  inst : NewCommissioningInstance
  placed : NewCommissioningInstance.new values firstRow = .ok inst

namespace Commissioning

variable (c : Commissioning)

def writes : List RowWrite := c.inst.writes c.signature

def entries : List OneromOtpEntry :=
  valueEntries c.board c.manufacturer c.date c.signer ++ [.commissioningSig c.signature]

/-- The rows of the whole instance. -/
def image : List UInt16 :=
  OTP_STORE_MAGIC :: OTP_STORE_VERSION :: (c.entries.map entryRows).flatten

lemma entries_eq : c.entries.map entryRows =
    c.values.entries ++ [entryRows (.commissioningSig c.signature)] := by
  rw [(CommissioningValues.new_ok c.accepted).entries_eq]
  simp [entries]

lemma writes_eq : c.writes = ⟨c.firstRow, OTP_STORE_MAGIC⟩ ::
    ⟨c.firstRow + 1, OTP_STORE_VERSION⟩ ::
      entriesWrites (c.firstRow + 2) (c.entries.map entryRows) := by
  rw [entries_eq, writes, (NewCommissioningInstance.new_ok c.placed).eq]
  rfl

lemma sig_rows : (entryRows (.commissioningSig c.signature)).length = 34 := by
  simp [entryRowCount, valueLen, OTP_COMMISSIONING_SIG_LEN]

lemma length_image : c.image.length = c.values.rowCount := by
  have h := c.sig_rows
  rw [length_entryRows] at h
  simp only [image, entries_eq, List.length_cons, List.flatten_append, List.length_append,
    CommissioningValues.rowCount, instanceRowCount, List.length_flatten, List.flatten_cons,
    List.flatten_nil, List.append_nil, length_entryRows, h]
  simp only [entryRowCount, OTP_COMMISSIONING_SIG_LEN]
  omega

lemma hasRows (entries : List OneromOtpEntry) : HasRows (entries.map entryRows) := by
  intro rows hrows
  obtain ⟨entry, -, rfl⟩ := List.mem_map.mp hrows
  have := two_le_entryRowCount (valueLen entry)
  rw [length_entryRows]
  omega

/-- **Layout**: the writes lay the instance out from its first row. -/
theorem lays_writes : Lays c.firstRow c.image c.writes := by
  rw [writes_eq]
  exact (Lays.single _ _).append ((Lays.single _ _).append
    (lays_entriesWrites (hasRows c.entries) (c.firstRow + 2)))

lemma length_writes : c.writes.length = c.values.rowCount :=
  c.lays_writes.length.trans c.length_image

lemma fits : c.firstRow + c.values.rowCount ≤ 0x4c0 :=
  (NewCommissioningInstance.new_ok c.placed).fits

lemma first_le : 0x0c0 ≤ c.firstRow := (NewCommissioningInstance.new_ok c.placed).first_le

lemma two_le_rowCount : 36 ≤ c.values.rowCount := by
  rw [← length_image, image, entries_eq]
  simp [entryRowCount, valueLen, OTP_COMMISSIONING_SIG_LEN]

/-- A value is never empty, and its length is one the length row holds. -/
lemma valueLen_pos {entry : OneromOtpEntry} (h : entry ∈ c.entries) :
    0 < valueLen entry ∧ valueLen entry < 2 ^ 16 := by
  have hacc := CommissioningValues.new_ok c.accepted
  have hle : (entryRows entry).length ≤ c.image.length := by
    have hmem : entryRows entry ∈ c.entries.map entryRows := List.mem_map_of_mem h
    have := (List.sublist_flatten_of_mem hmem).length_le
    simp only [image, List.length_cons]; omega
  have hfits := c.fits
  have hfirst := c.first_le
  rw [length_image, length_entryRows, entryRowCount] at hle
  refine ⟨?_, by omega⟩
  simp only [entries, valueEntries, List.cons_append, List.nil_append, List.mem_cons,
    List.not_mem_nil, or_false] at h
  rcases h with rfl | rfl | rfl | rfl | rfl
  · exact c.board.length_name_pos
  · exact hacc.manufacturer_pos
  · simp [valueLen, hacc.date_length]
  · simp [valueLen, OTP_COMMISSIONING_SIGNER_LEN]
  · simp [valueLen, OTP_COMMISSIONING_SIG_LEN]

lemma valueEntries_readable {entry : OneromOtpEntry}
    (h : entry ∈ valueEntries c.board c.manufacturer c.date c.signer) :
    Readable entry ∧ entryKey entry ≠ OneromOtpKey.commissioningSig.toU16 := by
  simp only [valueEntries, List.mem_cons, List.not_mem_nil, or_false] at h
  rcases h with rfl | rfl | rfl | rfl
  all_goals exact ⟨trivial, by simp only [entryKey, OneromOtpKey.toU16]; decide⟩

end Commissioning

/-! ### Reading entries off memory -/

/-- The entries a list of written entries parses to. -/
def storeEntries (row : ℕ) : List OneromOtpEntry → List StoreEntry
  | [] => []
  | entry :: entries =>
    .entry row entry :: storeEntries (row + entryRowCount (valueLen entry)) entries

lemma parseEntries_entries {mem : ℕ → UInt16} {entries : List OneromOtpEntry} {row : ℕ}
    (signatureEnds : Bool)
    (hr : ∀ entry ∈ entries, Readable entry ∧ entryKey entry ≠ OneromOtpKey.commissioningSig.toU16)
    (hfirst : 0x0c0 ≤ row) (hend : row + (entries.map entryRows).flatten.length ≤ 0x4c0)
    (hrows : Holds mem row (entries.map entryRows).flatten) :
    parseEntries (areaOf mem) row signatureEnds =
      (storeEntries row entries ++ (parseEntries (areaOf mem)
          (row + (entries.map entryRows).flatten.length) signatureEnds).1,
        (parseEntries (areaOf mem)
          (row + (entries.map entryRows).flatten.length) signatureEnds).2) := by
  induction entries generalizing row with
  | nil => rfl
  | cons entry entries ih =>
    obtain ⟨hreadable, hsig⟩ := hr entry (by simp)
    simp only [List.map_cons, List.flatten_cons, holds_append, List.length_append,
      length_entryRows] at hrows hend ⊢
    rw [parseEntries_entry hreadable hfirst (by omega) hrows.1 hsig,
      ih (fun e he => hr e (by simp [he])) (by omega) (by omega) hrows.2, Nat.add_assoc]
    rfl

/-! ### An entry list cut short -/

/-- All rows of the commissioning area from `row` on are unwritten. -/
def ZeroFrom (mem : ℕ → UInt16) (row : ℕ) : Prop := ∀ r, row ≤ r → r < 0x4c0 → mem r = 0

lemma ZeroFrom.mono {mem : ℕ → UInt16} {row next : ℕ} (h : ZeroFrom mem row) (hle : row ≤ next) :
    ZeroFrom mem next := fun r hr hlt => h r (hle.trans hr) hlt

/-- Where the parser ends a list at unwritten rows. -/
def unwrittenEnd (next : ℕ) : ListEnd :=
  if next = 0x4c0 then .terminated (next - 1)
  else if next + 1 = 0x4c0 then .lost next
  else .terminated (next + 1)

lemma parseEntries_unwritten {mem : ℕ → UInt16} {next : ℕ} {signatureEnds : Bool}
    (hfirst : 0x0c0 ≤ next) (hle : next ≤ 0x4c0) (hzero : ZeroFrom mem next) :
    parseEntries (areaOf mem) next signatureEnds = ([], unwrittenEnd next) := by
  have hend : (areaOf mem).endRow = 0x4c0 := areaOf_endRow
  unfold unwrittenEnd
  split_ifs with h1 h2
  · exact parseEntries_end (h1.trans hend.symm)
  · exact parseEntries_last (h2.trans hend.symm)
  · exact parseEntries_terminated hfirst (by omega) (hzero _ le_rfl (by omega))
      (hzero _ (Nat.le_succ _) (by omega))

/-- The row after the part of a cut entry that the parser counts: none of it where only writes
before it were performed, all of it once its length row is written. -/
def cutNext (row i len : ℕ) : ℕ := if i = 0 then row else row + len

/-- A list of entries cut in `cut` ends where the unwritten rows begin. -/
lemma parseEntries_cut {mem : ℕ → UInt16} {row i : ℕ} {before : List OneromOtpEntry}
    {cut : OneromOtpEntry}
    (hr : ∀ entry ∈ before, Readable entry ∧ entryKey entry ≠ OneromOtpKey.commissioningSig.toU16)
    (hcut : 0 < valueLen cut ∧ valueLen cut < 2 ^ 16) (hi : i < (entryRows cut).length)
    (hfirst : 0x0c0 ≤ row) (hzero : ZeroFrom mem row)
    (hend : row + (before.map entryRows).flatten.length + (entryRows cut).length ≤ 0x4c0) :
    let cutRow := row + (before.map entryRows).flatten.length
    let mem' := apply mem (entriesWrites row (before.map entryRows) ++
      (entryWrites cutRow (entryRows cut)).take i)
    let next := cutNext cutRow i (entryRows cut).length
    ZeroFrom mem' next ∧
      (parseEntries (areaOf mem') row true).2 = unwrittenEnd next := by
  intro cutRow mem' next
  have hlays := lays_entriesWrites (Commissioning.hasRows before) row
  have hlaysCut := lays_entryWrites cutRow (by omega : 0 < (entryRows cut).length)
  set mid := apply mem (entriesWrites row (before.map entryRows)) with hmid
  have hmem' : mem' = apply mid ((entryWrites cutRow (entryRows cut)).take i) :=
    apply_append _ _ _
  -- the rows of `cut` and after it, before its first write
  have hmidZero : ZeroFrom mid cutRow := fun r hle hlt => by
    rw [hmid, apply_of_notMem _ (fun h => by have := hlays.mem_cells.mp h; omega)]
    exact hzero r (by omega) hlt
  have hafter : ZeroFrom mem' (cutRow + (entryRows cut).length) := fun r hle hlt => by
    rw [hmem', hlaysCut.apply_take_of_notMem _ _ (.inr hle)]
    exact hmidZero r (by omega) hlt
  have hholds : Holds mem' row (before.map entryRows).flatten := by
    refine (hlays.holds_apply mem).congr fun r _ hlt => ?_
    rw [hmem', hlaysCut.apply_take_of_notMem _ _ (.inl hlt)]
  have hskip := parseEntries_entries true hr hfirst (by omega) hholds
  by_cases hi0 : i = 0
  · -- the entry was not begun
    have hnext : next = cutRow := if_pos hi0
    have hzero' : ZeroFrom mem' cutRow := by rw [hmem', hi0]; exact hmidZero
    rw [hnext]
    refine ⟨hzero', ?_⟩
    rw [hskip, parseEntries_unwritten (by omega) (by omega) hzero']
  · -- the entry has its length row, and parses as deleted
    have hnext : next = cutRow + (entryRows cut).length := if_neg hi0
    rw [hnext]
    refine ⟨hafter, ?_⟩
    obtain ⟨hkey, hlen⟩ := apply_take_entryWrites (m := mid) hi (by omega)
      (hmidZero cutRow le_rfl (by omega))
    rw [← hmem'] at hkey hlen
    have hlen : mem' (cutRow + 1) = UInt16.ofNat (valueLen cut) := by
      rw [hlen, entryRows_eq]; rfl
    have hn : (mem' (cutRow + 1)).toNat = valueLen cut := by
      rw [hlen, UInt16.toNat_ofNat']; omega
    have hdel := parseEntries_deleted true (by omega) hkey
      (fun h => by rw [h] at hn; simp at hn; omega)
      (by rw [hn, ← length_entryRows]; omega)
    rw [hn, ← length_entryRows] at hdel
    rw [hskip, hdel, parseEntries_unwritten (by omega) (by omega) hafter]

/-! ### The instance at the attempt's boundary -/

/-- A parsed instance that shows everything a commissioning was given. -/
structure Shows (c : Commissioning) (inst : CommissioningInstance) : Prop where
  firstRow : inst.firstRow = c.firstRow
  board : inst.board = some c.board.name
  manufacturer : inst.manufacturer = some c.manufacturer
  date : inst.date = some c.date
  signer : inst.signer = some c.signer
  signature : inst.signature = some c.signature
  signedRows : inst.signedRows = some (OTP_STORE_MAGIC :: OTP_STORE_VERSION ::
    c.values.entries.flatten)

variable {c : Commissioning} {inst : CommissioningInstance}

lemma Shows.isComplete (h : Shows c inst) : inst.isComplete = true := by
  simp [CommissioningInstance.isComplete, h.signedRows]

lemma Shows.isValid (h : Shows c inst) : inst.isValid = true := by
  simp [CommissioningInstance.isValid, h.board, h.manufacturer, h.date, h.signer, h.signature]

lemma Shows.message (h : Shows c inst) (chipId : Vector UInt16 4) :
    inst.message chipId = some (c.values.message chipId) := by
  simp [CommissioningInstance.message, h.signedRows, CommissioningValues.message]

/-- The attempt is cut in its signature's entry, after the length row, and the instance ends one
row before the area does. -/
def CutAtEnd (c : Commissioning) (k : ℕ) : Prop :=
  c.firstRow + c.values.rowCount + 1 = COMMISSIONING_AREA_END ∧
    c.values.rowCount < k + 34 ∧ k < c.values.rowCount

variable {mem : ℕ → UInt16} {k : ℕ}

/-- The memory once the header's two rows are written. -/
def headed (mem : ℕ → UInt16) (c : Commissioning) : ℕ → UInt16 :=
  Function.update (Function.update mem c.firstRow OTP_STORE_MAGIC) (c.firstRow + 1)
    OTP_STORE_VERSION

lemma apply_take_writes (mem : ℕ → UInt16) (c : Commissioning) (k : ℕ) :
    apply mem (c.writes.take (k + 2)) =
      apply (headed mem c) ((entriesWrites (c.firstRow + 2) (c.entries.map entryRows)).take k) := by
  rw [Commissioning.writes_eq]
  rfl

lemma magic_row (c : Commissioning) (mem : ℕ → UInt16) (hk : 0 < k) :
    apply mem (c.writes.take k) c.firstRow = OTP_STORE_MAGIC := by
  have hmem : (⟨c.firstRow, OTP_STORE_MAGIC⟩ : RowWrite) ∈ c.writes.take k := by
    obtain ⟨k, rfl⟩ : ∃ n, k = n + 1 := ⟨k - 1, by omega⟩
    simp [Commissioning.writes_eq]
  refine apply_of_mem mem ?_ hmem
  rw [List.map_take]
  exact c.lays_writes.nodup.sublist (List.take_sublist _ _)

/-- Once the header is written, the instance is what its entries parse to. -/
lemma parseInstance_headed (c : Commissioning) (mem : ℕ → UInt16) (k : ℕ) :
    parseInstance (areaOf (apply mem (c.writes.take (k + 2)))) c.firstRow =
      Instance.ofEntries (areaOf (apply mem (c.writes.take (k + 2)))) c.firstRow
        (parseEntries (areaOf (apply mem (c.writes.take (k + 2)))) (c.firstRow + 2) true) := by
  have hfits := c.fits
  have hfirst := c.first_le
  have hcount := c.two_le_rowCount
  have hversion : apply mem (c.writes.take (k + 2)) (c.firstRow + 1) = OTP_STORE_VERSION := by
    have hmem : (⟨c.firstRow + 1, OTP_STORE_VERSION⟩ : RowWrite) ∈ c.writes.take (k + 2) := by
      simp [Commissioning.writes_eq]
    refine apply_of_mem mem ?_ hmem
    rw [List.map_take]
    exact c.lays_writes.nodup.sublist (List.take_sublist _ _)
  refine parseInstance_entries _ (by rw [areaOf_endRow]; omega) ?_
  rw [row_areaOf _ (by omega) (by omega), hversion]

lemma zeroFrom_headed (hzero : ZeroFrom mem c.firstRow) : ZeroFrom (headed mem c) (c.firstRow + 2) :=
  fun r hle hlt => by
    rw [headed, Function.update_of_ne (by omega), Function.update_of_ne (by omega)]
    exact hzero r (by omega) hlt

/-- The signature comes last: it is the entry cut, or it follows a cut value. -/
lemma Commissioning.split_entries {before after : List OneromOtpEntry} {cut : OneromOtpEntry}
    (h : c.entries = before ++ cut :: after) :
    (before = valueEntries c.board c.manufacturer c.date c.signer ∧
        cut = .commissioningSig c.signature ∧ after = []) ∨
      ∃ values, after = values ++ [.commissioningSig c.signature] ∧
        valueEntries c.board c.manufacturer c.date c.signer = before ++ cut :: values := by
  unfold Commissioning.entries at h
  rcases after.eq_nil_or_concat with rfl | ⟨values, last, rfl⟩
  · obtain ⟨hvalues, hsig⟩ := List.append_inj' h rfl
    exact .inl ⟨hvalues.symm, (List.cons.inj hsig).1.symm, rfl⟩
  · have h' : valueEntries c.board c.manufacturer c.date c.signer ++
        [.commissioningSig c.signature] = (before ++ cut :: values) ++ [last] := by
      rw [h]; simp
    obtain ⟨hvalues, hsig⟩ := List.append_inj' h' rfl
    exact .inr ⟨values, by rw [List.concat_eq_append, (List.cons.inj hsig).1], hvalues⟩

/-- A list of entries cut short ends at the unwritten rows. -/
lemma entries_cut (hzero : ZeroFrom mem c.firstRow) (hk : k + 2 < c.values.rowCount) :
    ∃ next, c.firstRow + 2 ≤ next ∧ next ≤ 0x4c0 ∧ (next + 1 = 0x4c0 ↔ CutAtEnd c (k + 2)) ∧
      ZeroFrom (apply mem (c.writes.take (k + 2))) next ∧
      (parseEntries (areaOf (apply mem (c.writes.take (k + 2)))) (c.firstRow + 2) true).2 =
        unwrittenEnd next := by
  have hfits := c.fits
  have hfirst := c.first_le
  have hlen := c.length_image
  simp only [Commissioning.image, List.length_cons] at hlen
  rcases take_entriesWrites (Commissioning.hasRows c.entries) (c.firstRow + 2) k with
    hall | ⟨before', cut', after', i, hsplit, hi, hki, htake⟩
  · omega
  obtain ⟨before, rest, hentries, rfl, hrest⟩ := List.map_eq_append_iff.mp hsplit
  obtain ⟨cut, after, rfl, rfl, rfl⟩ := List.map_eq_cons_iff.mp hrest
  have hsum : (before.map entryRows).flatten.length + (entryRows cut).length +
      (after.map entryRows).flatten.length + 2 = c.values.rowCount := by
    rw [← hlen, hentries]; simp; omega
  have hlast := c.split_entries hentries
  have hr : ∀ entry ∈ before,
      Readable entry ∧ entryKey entry ≠ OneromOtpKey.commissioningSig.toU16 := by
    intro entry hmem
    refine c.valueEntries_readable ?_
    rcases hlast with ⟨rfl, -, -⟩ | ⟨values, -, hvalues⟩
    · exact hmem
    · rw [hvalues]; exact List.mem_append_left _ hmem
  have hcut := c.valueLen_pos (show cut ∈ c.entries by rw [hentries]; simp)
  obtain ⟨hafter, hparse⟩ := parseEntries_cut hr hcut hi (by omega) (zeroFrom_headed hzero)
    (by omega)
  rw [← htake, ← apply_take_writes] at hafter hparse
  have htwo := two_le_entryRowCount (valueLen cut)
  rw [← length_entryRows] at htwo
  have hsig := c.sig_rows
  refine ⟨_, ?_, ?_, ?_, hafter, hparse⟩
  · unfold cutNext; split_ifs <;> omega
  · unfold cutNext; split_ifs <;> omega
  · simp only [cutNext, CutAtEnd, COMMISSIONING_AREA_END, OTP_COMMISSIONING_AREA_LAST_ROW]
    rcases hlast with ⟨-, rfl, rfl⟩ | ⟨values, rfl, -⟩
    · -- cut in the signature's entry
      simp only [List.map_nil, List.flatten_nil, List.length_nil] at hsum
      split_ifs <;> omega
    · -- the signature's entry follows, and it fits
      simp only [List.map_append, List.flatten_append, List.length_append, List.map_cons,
        List.map_nil, List.flatten_cons, List.flatten_nil, List.append_nil] at hsum
      split_ifs <;> omega

/-- **Interrupted**: an instance cut short ends, without a signature, before the unwritten rows. -/
theorem parse_interrupted (hzero : ZeroFrom mem c.firstRow) (hk : 0 < k)
    (hlt : k < c.values.rowCount) (hcut : ¬CutAtEnd c k) :
    ∃ inst lastRow, parseInstance (areaOf (apply mem (c.writes.take k))) c.firstRow =
        .ended inst lastRow ∧ inst.firstRow = c.firstRow ∧ inst.isComplete = false ∧
      ZeroFrom (apply mem (c.writes.take k)) (lastRow + 1) := by
  have hfits := c.fits
  have hfirst := c.first_le
  have hcount := c.two_le_rowCount
  obtain rfl | ⟨k, rfl⟩ : k = 1 ∨ ∃ n, k = n + 2 := by
    rcases k with _ | _ | k
    · omega
    · exact .inl rfl
    · exact .inr ⟨k, rfl⟩
  · -- only the magic row is written
    have hafter : ZeroFrom (apply mem (c.writes.take 1)) (c.firstRow + 1) := fun r hle hlt => by
      simp only [Commissioning.writes_eq, List.take_succ_cons, List.take_zero, apply_cons,
        apply_nil]
      rw [Function.update_of_ne (by omega)]
      exact hzero r (by omega) hlt
    refine ⟨_, _, parseInstance_unwritten _ (by rw [areaOf_endRow]; omega) ?_, rfl, rfl,
      hafter.mono (by omega)⟩
    rw [row_areaOf _ (by omega) (by omega)]
    exact hafter _ le_rfl (by omega)
  · obtain ⟨next, hle, hend, hiff, hafter, hparse⟩ := entries_cut hzero hlt
    have hne : next + 1 ≠ 0x4c0 := fun h => hcut (hiff.mp h)
    rw [parseInstance_headed]
    rcases hentries : parseEntries (areaOf (apply mem (c.writes.take (k + 2)))) (c.firstRow + 2)
      true with ⟨entries, listEnd⟩
    rw [hentries] at hparse
    obtain ⟨lastRow, hterm, hlast⟩ : ∃ lastRow, listEnd = .terminated lastRow ∧
        next ≤ lastRow + 1 := by
      have hparse : listEnd = unwrittenEnd next := hparse
      unfold unwrittenEnd at hparse
      split_ifs at hparse with h1
      · exact ⟨_, hparse, by omega⟩
      · exact ⟨_, hparse, by omega⟩
    subst hterm
    exact ⟨_, _, rfl, rfl, rfl, hafter.mono hlast⟩

/-- Cut so close to the area's end, the parser loses its place there. -/
lemma parse_cutAtEnd (hzero : ZeroFrom mem c.firstRow) (hcut : CutAtEnd c k) :
    ∃ inst, parseInstance (areaOf (apply mem (c.writes.take k))) c.firstRow =
      .lost inst 0x4bf := by
  have hcount := c.two_le_rowCount
  obtain ⟨k, rfl⟩ : ∃ n, k = n + 2 := ⟨k - 2, by have := hcut.2.1; omega⟩
  obtain ⟨next, -, -, hiff, -, hparse⟩ := entries_cut hzero hcut.2.2
  have hnext : next = 0x4bf := by have := hiff.mpr hcut; omega
  rcases hentries : parseEntries (areaOf (apply mem (c.writes.take (k + 2)))) (c.firstRow + 2)
    true with ⟨entries, listEnd⟩
  rw [hentries] at hparse
  have hlost : listEnd = .lost 0x4bf := by rw [hnext] at hparse; exact hparse
  subst hlost
  rw [parseInstance_headed, hentries]
  exact ⟨_, rfl⟩

/-- The entries of a complete instance name its values. -/
lemma shows_of_entries (c : Commissioning) (row sigRow : ℕ) (signedRows : List UInt16)
    (hsigned : signedRows = OTP_STORE_MAGIC :: OTP_STORE_VERSION :: c.values.entries.flatten) :
    Shows c ⟨c.firstRow,
      storeEntries row (valueEntries c.board c.manufacturer c.date c.signer) ++
        [.entry sigRow (.commissioningSig c.signature)], some signedRows⟩ := by
  subst hsigned
  constructor <;> rfl

/-- **Complete**: once all the writes are performed, the instance shows what it was given and ends
at its last row. -/
theorem parse_complete (c : Commissioning) (mem : ℕ → UInt16) :
    ∃ inst, parseInstance (areaOf (apply mem c.writes)) c.firstRow =
      .ended inst (c.firstRow + c.values.rowCount - 1) ∧ Shows c inst := by
  have hfits := c.fits
  have hfirst := c.first_le
  have hcount := c.two_le_rowCount
  have hacc := CommissioningValues.new_ok c.accepted
  have hsig := c.sig_rows
  have hlen := c.length_image
  have hholds := c.lays_writes.holds_apply mem
  simp only [Commissioning.image, c.entries_eq, List.flatten_append, List.flatten_cons,
    List.flatten_nil, List.append_nil, List.length_cons, List.length_append, hsig] at hlen hholds
  set rows := c.values.entries.flatten with hrows
  set sigRow := c.firstRow + 2 + rows.length with hsigRow
  set mem' := apply mem c.writes with hmem'
  have hmap : ((valueEntries c.board c.manufacturer c.date c.signer).map entryRows).flatten =
      rows := by rw [hrows, hacc.entries_eq]
  -- the rows in memory: the header and the values, then the signature's entry
  have hsplit : Holds mem' c.firstRow (OTP_STORE_MAGIC :: OTP_STORE_VERSION :: rows) ∧
      Holds mem' sigRow (entryRows (.commissioningSig c.signature)) := by
    have h := hholds
    rw [← List.cons_append, ← List.cons_append, holds_append] at h
    refine ⟨h.1, ?_⟩
    have hrow : c.firstRow + (OTP_STORE_MAGIC :: OTP_STORE_VERSION :: rows).length = sigRow := by
      simp only [List.length_cons]; omega
    exact hrow ▸ h.2
  obtain ⟨hhead, hsigHolds⟩ := hsplit
  have hvalues : Holds mem' (c.firstRow + 2)
      ((valueEntries c.board c.manufacturer c.date c.signer).map entryRows).flatten := by
    rw [hmap]
    exact (holds_cons.mp (holds_cons.mp hhead).2).2
  have hskip := parseEntries_entries true
    (fun entry hentry => c.valueEntries_readable hentry) (by omega)
    (by rw [hmap]; omega) hvalues
  rw [hmap, ← hsigRow, parseEntries_signature (by omega) (by omega) hsigHolds] at hskip
  have hinst := parseInstance_headed c mem (c.values.rowCount - 2)
  rw [Nat.sub_add_cancel (by omega), List.take_of_length_le c.length_writes.le, ← hmem',
    hskip] at hinst
  refine ⟨_, hinst.trans ?_, shows_of_entries c (c.firstRow + 2) sigRow
    ((areaOf mem').rowsIn c.firstRow sigRow) ?_⟩
  · simp only [Instance.ofEntries]
    congr 1; omega
  · rw [rowsIn_areaOf hfirst]
    have hcells : min sigRow 0x4c0 - c.firstRow =
        (OTP_STORE_MAGIC :: OTP_STORE_VERSION :: rows).length := by
      simp only [List.length_cons]; omega
    rw [hcells]
    exact hhead

end OneRom.OtpAttempt
