import OneRom.OtpStore
import OneRom.WriteOnce

/-!
The commissioning area's parser over an OTP memory.

An entry, a deleted entry and the end of a list each take the parser one step (`parseEntries_entry`,
`parseEntries_deleted`, `parseEntries_terminated`). What the parser has read depends only on the
rows it has passed (`Agree.parseInstance`), so a walk that ended at an unwritten boundary goes on
from there once an instance is written at it (`walk_resume`).
-/

namespace OneRom.OtpArea

open OneRom.LittleEndian OneRom.OtpEntry OneRom.OtpStore OneRom.WriteOnce

/-- The commissioning area's rows in a memory, row `0x0c0` first. -/
def commissioningRows (mem : ℕ → UInt16) : List UInt16 :=
  (List.range' OTP_COMMISSIONING_AREA_FIRST_ROW
    (COMMISSIONING_AREA_END - OTP_COMMISSIONING_AREA_FIRST_ROW)).map mem

def areaOf (mem : ℕ → UInt16) : Area :=
  Area.new (commissioningRows mem) OTP_COMMISSIONING_AREA_FIRST_ROW COMMISSIONING_AREA_END

variable {mem mem' : ℕ → UInt16}

@[simp] lemma areaOf_first : (areaOf mem).first = 0x0c0 := rfl

@[simp] lemma areaOf_endRow : (areaOf mem).endRow = 0x4c0 := by
  simp [areaOf, Area.new, commissioningRows, COMMISSIONING_AREA_END,
    OTP_COMMISSIONING_AREA_FIRST_ROW, OTP_COMMISSIONING_AREA_LAST_ROW]

lemma areaOf_rows : (areaOf mem).rows = (List.range' 0x0c0 1024).map mem := by
  simp [areaOf, Area.new, commissioningRows, COMMISSIONING_AREA_END,
    OTP_COMMISSIONING_AREA_FIRST_ROW, OTP_COMMISSIONING_AREA_LAST_ROW, List.take_of_length_le]

lemma row_areaOf (mem : ℕ → UInt16) {row : ℕ} (hfirst : 0x0c0 ≤ row) (hend : row < 0x4c0) :
    (areaOf mem).row row = mem row := by
  have hi : row - 0x0c0 < 1024 := by omega
  have hrow : 0x0c0 + (row - 0x0c0) = row := by omega
  simp [Area.row, areaOf_rows, hi, hrow]

lemma rowsIn_areaOf {lo hi : ℕ} (hfirst : 0x0c0 ≤ lo) :
    (areaOf mem).rowsIn lo hi = (List.range' lo (min hi 0x4c0 - lo)).map mem := by
  refine List.ext_getElem ?_ fun i hi hi' => ?_
  · simp [Area.rowsIn, areaOf_rows]; omega
  · simp only [List.length_map, List.length_range'] at hi'
    simp only [Area.rowsIn, areaOf_rows, areaOf_first, List.getElem_take, List.getElem_drop,
      List.getElem_map, List.getElem_range', one_mul]
    congr 1; omega

/-! ### One step of an entry list -/

variable {row : ℕ} {signatureEnds : Bool}

lemma entryKey_ne_zero {entry : OneromOtpEntry} (h : Readable entry) : entryKey entry ≠ 0 := by
  cases entry with
  | unknown key params =>
    obtain ⟨hkey, hlt⟩ := h
    intro h0
    rw [entryKey] at h0
    rw [h0] at hkey
    rw [← hkey] at hlt
    exact absurd hlt (by decide)
  | _ => simp only [entryKey, OneromOtpKey.toU16]; decide

lemma parseEntry_entryRows {entry : OneromOtpEntry} (hr : Readable entry)
    (hlen : valueLen entry < 2 ^ 16) (row : ℕ) :
    parseEntry (entryRows entry) row = .entry row entry := by
  have hparse := parse_entryRows entry hr hlen
  have hn : (UInt16.ofNat (valueLen entry)).toNat = valueLen entry := by
    simp only [UInt16.toNat_ofNat']; omega
  have hkey : (entryRows entry).getD 0 0 = entryKey entry := by rw [entryRows_eq]; rfl
  have hrow : (entryRows entry).getD 1 0 = UInt16.ofNat (valueLen entry) := by
    rw [entryRows_eq]; rfl
  simp only [parseEntry, hkey, hrow, hparse, hn, OTP_KEY_NONE, entryKey_ne_zero hr, if_true,
    if_false]

/-- What an entry's rows in memory say to `parseEntries`. -/
lemma reads_entry {entry : OneromOtpEntry} (hr : Readable entry) (hfirst : 0x0c0 ≤ row)
    (hend : row + entryRowCount (valueLen entry) ≤ 0x4c0) (hrows : Holds mem row (entryRows entry)) :
    mem row = entryKey entry ∧ (mem (row + 1)).toNat = valueLen entry ∧
      parseEntry ((areaOf mem).rowsIn row (row + entryRowCount (valueLen entry))) row =
        .entry row entry := by
  have hlen : valueLen entry < 2 ^ 16 := by simp only [entryRowCount] at hend; omega
  have hn : (UInt16.ofNat (valueLen entry)).toNat = valueLen entry := by
    simp only [UInt16.toNat_ofNat']; omega
  have hcells := hrows
  rw [entryRows_eq, holds_cons, holds_cons] at hcells
  refine ⟨hcells.1, by rw [hcells.2.1, hn], ?_⟩
  have hcount : min (row + entryRowCount (valueLen entry)) 0x4c0 - row =
      (entryRows entry).length := by rw [length_entryRows]; omega
  rw [rowsIn_areaOf hfirst, hcount, show _ = entryRows entry from hrows,
    parseEntry_entryRows hr hlen]

lemma parseEntries_entry {entry : OneromOtpEntry} (hr : Readable entry) (hfirst : 0x0c0 ≤ row)
    (hend : row + entryRowCount (valueLen entry) ≤ 0x4c0) (hrows : Holds mem row (entryRows entry))
    (hsig : entryKey entry ≠ OneromOtpKey.commissioningSig.toU16) :
    parseEntries (areaOf mem) row signatureEnds =
      (.entry row entry ::
        (parseEntries (areaOf mem) (row + entryRowCount (valueLen entry)) signatureEnds).1,
        (parseEntries (areaOf mem) (row + entryRowCount (valueLen entry)) signatureEnds).2) := by
  obtain ⟨hkey, hlen, hparse⟩ := reads_entry hr hfirst hend hrows
  have htwo := two_le_entryRowCount (valueLen entry)
  rw [← row_areaOf mem hfirst (by omega)] at hkey
  rw [← row_areaOf mem (by omega) (by omega : row + 1 < 0x4c0)] at hlen
  rw [parseEntries_next, hlen, hparse]
  · exact fun h => entryKey_ne_zero hr (hkey.symm.trans h.1)
  · rw [hlen, areaOf_endRow]; exact hend
  · exact fun h => hsig (hkey.symm.trans h.2)

lemma parseEntries_signature {signature : Vector UInt8 OTP_COMMISSIONING_SIG_LEN}
    (hfirst : 0x0c0 ≤ row) (hend : row + 34 ≤ 0x4c0)
    (hrows : Holds mem row (entryRows (.commissioningSig signature))) :
    parseEntries (areaOf mem) row true =
      ([.entry row (.commissioningSig signature)], .signature row (row + 33)) := by
  have hcount : entryRowCount (valueLen (.commissioningSig signature)) = 34 := by
    simp [entryRowCount, valueLen, OTP_COMMISSIONING_SIG_LEN]
  have hread : Readable (.commissioningSig signature) := trivial
  obtain ⟨hkey, hlen, hparse⟩ := reads_entry hread hfirst (by omega) hrows
  rw [← row_areaOf mem hfirst (by omega)] at hkey
  rw [← row_areaOf mem (by omega) (by omega : row + 1 < 0x4c0)] at hlen
  rw [parseEntries_sig, hlen, hparse, hcount, Nat.add_sub_assoc (by decide)]
  · exact fun h => entryKey_ne_zero hread (hkey.symm.trans h.1)
  · rw [hlen, hcount, areaOf_endRow]; exact hend
  · exact ⟨rfl, hkey⟩

lemma parseEntries_deleted (signatureEnds : Bool) (hfirst : 0x0c0 ≤ row) (hkey : mem row = 0) (hlen : mem (row + 1) ≠ 0)
    (hend : row + entryRowCount (mem (row + 1)).toNat ≤ 0x4c0) :
    parseEntries (areaOf mem) row signatureEnds =
      (.deleted row (mem (row + 1)) :: (parseEntries (areaOf mem)
          (row + entryRowCount (mem (row + 1)).toNat) signatureEnds).1,
        (parseEntries (areaOf mem)
          (row + entryRowCount (mem (row + 1)).toNat) signatureEnds).2) := by
  have htwo := two_le_entryRowCount (mem (row + 1)).toNat
  have hrow0 := row_areaOf mem hfirst (by omega)
  have hrow1 := row_areaOf mem (by omega : 0x0c0 ≤ row + 1) (by omega)
  obtain ⟨n, hn⟩ : ∃ n, min (row + entryRowCount (mem (row + 1)).toNat) 0x4c0 - row = n + 2 :=
    ⟨entryRowCount (mem (row + 1)).toNat - 2, by omega⟩
  have hparse : parseEntry ((areaOf mem).rowsIn row (row + entryRowCount (mem (row + 1)).toNat))
      row = .deleted row (mem (row + 1)) := by
    rw [rowsIn_areaOf hfirst, hn]
    simp [parseEntry, List.range'_succ, hkey, OTP_KEY_NONE]
  rw [parseEntries_next, hrow1, hparse]
  · exact fun h => hlen (hrow1.symm.trans h.2)
  · rw [hrow1, areaOf_endRow]; exact hend
  · rw [hrow0, hkey]; exact fun h => absurd h.2 (by decide)

lemma parseEntries_terminated (hfirst : 0x0c0 ≤ row) (hend : row + 2 ≤ 0x4c0)
    (hkey : mem row = 0) (hlen : mem (row + 1) = 0) :
    parseEntries (areaOf mem) row signatureEnds = ([], .terminated (row + 1)) := by
  refine parseEntries_stop (by rw [areaOf_endRow]; exact hend) ⟨?_, ?_⟩
  · rw [row_areaOf mem hfirst (by omega), hkey]; rfl
  · rw [row_areaOf mem (by omega) (by omega), hlen]

/-! ### The rows the parser has passed -/

/-- The list ended, and all its rows lie before `b`. -/
def Before (b : ℕ) : ListEnd → Prop
  | .terminated lastRow => lastRow < b
  | .signature _ lastRow => lastRow < b
  | .lost _ => False

lemma Before.le {b row : ℕ} {e : ListEnd} (h : Before b e) (hfrom : e.From row) : row ≤ b := by
  cases e <;> simp only [Before, ListEnd.From] at h hfrom <;> omega

/-- Two areas with the same rows before `b`, which ends neither of them or lies within both. -/
structure Agree (b : ℕ) (area area' : Area) : Prop where
  first : area'.first = area.first
  row : ∀ r, area.first ≤ r → r < b → area'.row r = area.row r
  ends : area'.endRow = area.endRow ∨ b < area.endRow ∧ b < area'.endRow
  le : b ≤ area.endRow

lemma agree_areaOf {b : ℕ} (heq : ∀ r, r < b → mem' r = mem r) (hb : b ≤ 0x4c0) :
    Agree b (areaOf mem) (areaOf mem') where
  first := rfl
  row := fun r hfirst hr => by
    rw [row_areaOf _ hfirst (by omega), row_areaOf _ hfirst (by omega), heq r hr]
  ends := .inl (areaOf_endRow.trans areaOf_endRow.symm)
  le := hb.trans areaOf_endRow.ge

lemma rowsIn_eq (area : Area) {lo hi : ℕ} (hfirst : area.first ≤ lo) :
    area.rowsIn lo hi = (List.range' lo (min hi area.endRow - lo)).map area.row := by
  have hend := area.endRow_eq
  refine List.ext_getElem ?_ fun i hi hi' => ?_
  · simp [Area.rowsIn]; omega
  · simp only [List.length_map, List.length_range'] at hi'
    have hlt : lo - area.first + i < area.rows.length := by omega
    have hrow : lo + i - area.first = lo - area.first + i := by omega
    simp only [Area.rowsIn, Area.row, List.getElem_take, List.getElem_drop, List.getElem_map,
      List.getElem_range', one_mul, hrow, List.getD_eq_getElem _ _ hlt]

namespace Agree

variable {b : ℕ} {area area' : Area}

lemma le' (h : Agree b area area') : b ≤ area'.endRow := by
  rcases h.ends with hend | ⟨-, hlt⟩
  · exact h.le.trans hend.ge
  · exact hlt.le

lemma mono {c : ℕ} (h : Agree b area area') (hc : c ≤ b) : Agree c area area' where
  first := h.first
  row := fun r hfirst hr => h.row r hfirst (by omega)
  ends := h.ends.imp_right fun ⟨hlt, hlt'⟩ => ⟨by omega, by omega⟩
  le := hc.trans h.le

lemma rowsIn (h : Agree b area area') {lo hi : ℕ} (hfirst : area.first ≤ lo) (hhi : hi ≤ b) :
    area'.rowsIn lo hi = area.rowsIn lo hi := by
  rw [rowsIn_eq area' (h.first.trans_le hfirst), rowsIn_eq area hfirst,
    min_eq_left (hhi.trans h.le), min_eq_left (hhi.trans h.le')]
  refine List.map_congr_left fun r hr => h.row r ?_ ?_
  all_goals
    have := List.mem_range'_1.mp hr
    omega

/-- A list's end depends only on the rows up to it. -/
lemma parseEntries (h : Agree b area area') (hfirst : area.first ≤ row)
    (hbefore : Before b (OtpStore.parseEntries area row signatureEnds).2) :
    OtpStore.parseEntries area' row signatureEnds =
      OtpStore.parseEntries area row signatureEnds := by
  have hle := h.le
  have hle' := h.le'
  induction row using parseEntries.induct area signatureEnds with
  | case1 =>
    rw [parseEntries_end rfl] at hbefore ⊢
    have hlt : area.endRow - 1 < b := hbefore
    rcases h.ends with hend | ⟨hend, -⟩
    · rw [parseEntries_end hend.symm]
    · omega
  | case2 row h1 h2 =>
    rw [parseEntries_last h2] at hbefore
    exact hbefore.elim
  | case3 row h1 h2 key len h3 =>
    have hrow := hbefore.le (parseEntries_from ..)
    rw [parseEntries_stop (by omega) h3] at hbefore ⊢
    have hrow : row + 1 < b := hbefore
    rw [parseEntries_stop (by omega)]
    rw [h.row row hfirst (by omega), h.row (row + 1) (by omega) hrow]
    exact h3
  | case4 row h1 h2 key len h3 next h4 =>
    have hrow := hbefore.le (parseEntries_from ..)
    rw [parseEntries_overrun (by omega) h3 h4] at hbefore
    exact hbefore.elim
  | case5 row h1 h2 key len h3 next h4 h5 =>
    have htwo := two_le_entryRowCount len.toNat
    rw [parseEntries_sig h3 (not_lt.mp h4) h5] at hbefore ⊢
    have hnext : next - 1 < b := hbefore
    have hrow0 := h.row row hfirst (by omega)
    have hrow1 := h.row (row + 1) (by omega) (by omega)
    rw [parseEntries_sig, hrow1, h.rowsIn hfirst (by omega : next ≤ b)]
    · rw [hrow0, hrow1]; exact h3
    · rw [hrow1]; exact (by omega : next ≤ area'.endRow)
    · rw [hrow0]; exact h5
  | case6 row h1 h2 key len h3 next h4 h5 entries listEnd hnext ih =>
    have htwo := two_le_entryRowCount len.toNat
    rw [parseEntries_next h3 (not_lt.mp h4) h5] at hbefore ⊢
    have hnextLe : next ≤ b := Before.le hbefore (parseEntries_from ..)
    have hrow0 := h.row row hfirst (by omega)
    have hrow1 := h.row (row + 1) (by omega) (by omega)
    rw [parseEntries_next, hrow1, h.rowsIn hfirst hnextLe, ih (by omega) hbefore]
    · rw [hrow0, hrow1]; exact h3
    · rw [hrow1]; exact (by omega : next ≤ area'.endRow)
    · rw [hrow0]; exact h5

/-- An instance's end depends only on the rows up to it. -/
lemma parseInstance {firstRow lastRow : ℕ} {inst : CommissioningInstance}
    (h : Agree b area area') (hfirst : area.first ≤ firstRow)
    (hinst : OtpStore.parseInstance area firstRow = .ended inst lastRow) (hlast : lastRow < b) :
    OtpStore.parseInstance area' firstRow = .ended inst lastRow := by
  have hle' := h.le'
  have hafter := parseInstance_from area firstRow
  rw [hinst] at hafter
  have hrow := h.row (firstRow + 1) (by omega) (lt_of_le_of_lt hafter hlast)
  have hne' : firstRow + 1 ≠ area'.endRow := by
    have : firstRow + 1 ≤ lastRow := hafter
    omega
  obtain ⟨hne, ⟨hzero, rfl⟩ | ⟨hversion, hlist⟩⟩ := parseInstance_ended _ hinst
  · rw [parseInstance_unwritten _ hne hzero] at hinst
    rw [parseInstance_unwritten _ hne' (hrow.trans hzero), hinst]
  · rw [parseInstance_entries _ hne' (hrow.trans hversion)]
    have hfrom := parseEntries_from area (firstRow + 2) true
    rcases hparse : OtpStore.parseEntries area (firstRow + 2) true with
      ⟨entries, l | ⟨k, l⟩ | l⟩
    all_goals rw [hparse] at hlist hfrom
    · cases hlist
      rw [h.parseEntries (by omega) (by rwa [hparse]), hparse]
      rfl
    · cases hlist
      rw [h.parseEntries (by omega) (by rwa [hparse]), hparse]
      simp only [Instance.ofEntries]
      rw [h.rowsIn hfirst (by simp only [ListEnd.From] at hfrom; omega)]
    · cases hlist

end Agree

/-! ### Going on from an unwritten boundary -/

lemma walk_ended_le {area : Area} {boundary b : ℕ}
    (h : (walk area boundary).2.2 = .ended (some b)) :
    boundary ≤ b ∧ b < area.endRow ∧ area.row b = 0 := by
  fun_induction walk area boundary with
  | case1 boundary hlt hzero => cases h; exact ⟨le_rfl, hlt, hzero⟩
  | case2 boundary _ _ _ inst lastRow hinst instances issues walked hnext ih =>
    rw [hnext] at ih
    obtain ⟨hle, hlt⟩ := ih h
    have hfrom := parseInstance_from area boundary
    rw [hinst] at hfrom
    have := lt_pageAfter lastRow
    exact ⟨by simp only [Instance.From] at hfrom; omega, hlt⟩
  | case4 boundary _ _ _ inst lost hinst next hnext instances issues walked hwalk ih =>
    rw [hwalk] at ih
    obtain ⟨hle, hlt⟩ := ih h
    have hfrom := parseInstance_from area boundary
    rw [hinst] at hfrom
    have := area.lt_instanceAfter hnext
    exact ⟨by simp only [Instance.From] at hfrom; omega, hlt⟩
  | case6 boundary _ _ _ next hnext instances issues walked hwalk ih =>
    rw [hwalk] at ih
    obtain ⟨hle, hlt⟩ := ih h
    have := area.lt_instanceAfter hnext
    exact ⟨by omega, hlt⟩
  | case3 => cases h
  | case5 => cases h
  | case7 => cases h
  | case8 => cases h

/-- **Resumption**: a walk that met no problem and ended at the unwritten boundary `b` takes the
same steps in any area with the same rows before `b`, and goes on from `b`. -/
theorem Agree.walk {area area' : Area} {b boundary : ℕ} {instances : List CommissioningInstance}
    (hagree : Agree b area area') (hfirst : area.first ≤ boundary)
    (h : OtpStore.walk area boundary = (instances, [], .ended (some b))) :
    OtpStore.walk area' boundary =
      (instances ++ (OtpStore.walk area' b).1, (OtpStore.walk area' b).2) := by
  have hle' := hagree.le'
  fun_induction OtpStore.walk area boundary generalizing instances with
  | case1 boundary hlt hzero => cases h; rfl
  | case2 boundary hlt hne hmagic inst lastRow hinst rest issues walked hnext ih =>
    obtain ⟨rfl, rfl, rfl⟩ : inst :: rest = instances ∧ issues = [] ∧ walked = .ended (some b) := by
      simpa using h
    have hle := (walk_ended_le (congrArg (·.2.2) hnext)).1
    have hafter := parseInstance_from area boundary
    rw [hinst] at hafter
    have hafter : boundary < lastRow := hafter
    have hpage := lt_pageAfter lastRow
    have hrow := hagree.row boundary hfirst (by omega)
    have hinst' := hagree.parseInstance hfirst hinst (by omega)
    rw [walk_instance (by omega) (hrow.trans hmagic) hinst', ih (by omega) hnext]
    rfl
  | case3 => cases h
  | case4 => cases h
  | case5 => cases h
  | case6 => cases h
  | case7 => cases h
  | case8 => cases h

/-- A walk over a memory goes on from an unwritten boundary in another with the same rows before. -/
theorem walk_resume {b boundary : ℕ} {instances : List CommissioningInstance}
    (heq : ∀ r, r < b → mem' r = mem r) (hfirst : 0x0c0 ≤ boundary)
    (h : walk (areaOf mem) boundary = (instances, [], .ended (some b))) :
    walk (areaOf mem') boundary =
      (instances ++ (walk (areaOf mem') b).1, (walk (areaOf mem') b).2) := by
  have hb := (walk_ended_le (congrArg (·.2.2) h)).2.1
  rw [areaOf_endRow] at hb
  exact (agree_areaOf heq hb.le).walk hfirst h

end OneRom.OtpArea
