import OneRom.OtpStore

/-!
What a commissioning signature covers. The message is the chip's ID and the rows of the instance up
to its signature. Whatever the rows hold, the values a reader takes from the instance are those
rows' own: where they stand in OTP, and what follows them, has no part in it.
-/

namespace OneRom.SignedRows

open OneRom.LittleEndian OneRom.OtpEntry OneRom.OtpStore

/-- The start of the message a signer's proof covers. -/
def PROOF_PREFIX : List UInt8 := strBytes "onerom-signer-v1"

/-! ### Entries without their rows -/

/-- An entry, wherever it stands. -/
def plain : StoreEntry → StoreEntry
  | .entry _ e => .entry 0 e
  | .deleted _ len => .deleted 0 len
  | .unreadable _ key len => .unreadable 0 key len

@[simp] lemma key_plain (entry : StoreEntry) : (plain entry).key = entry.key := by
  cases entry <;> rfl

lemma plain_parseEntry (rows : List UInt16) (row : ℕ) :
    plain (parseEntry rows row) = parseEntry rows 0 := by
  unfold parseEntry
  dsimp only
  split_ifs
  · rfl
  · split
    · split_ifs <;> rfl
    · rfl

/-- An entry that isn't deleted has its first row for a key. -/
lemma key_parseEntry {rows : List UInt16} {row : ℕ} (h : rows.getD 0 0 ≠ OTP_KEY_NONE) :
    (parseEntry rows row).key = some (rows.getD 0 0) := by
  cases rows with
  | nil => exact absurd rfl h
  | cons key rows =>
    rw [List.getD_cons_zero] at h ⊢
    unfold parseEntry
    rw [List.getD_cons_zero]
    dsimp only
    rw [if_neg h]
    split
    · next entry hparse =>
      split_ifs
      · exact congrArg some (entryKey_of_parse hparse)
      · rfl
    · rfl

/-- The entries that rows hold one after the other. -/
def readRows (rows : List UInt16) : List StoreEntry :=
  if rows.length < 2 then []
  else
    let count := entryRowCount (rows.getD 1 0).toNat
    parseEntry (rows.take count) 0 :: readRows (rows.drop count)
termination_by rows.length
decreasing_by
  have := two_le_entryRowCount (rows.getD 1 0).toNat
  simp only [List.length_drop]
  omega

/-! ### Rows of an area -/

section Rows

variable {area : Area} {lo mid hi : ℕ}

lemma length_rowsIn (hlo : area.first ≤ lo) (hhi : hi ≤ area.endRow) :
    (area.rowsIn lo hi).length = hi - lo := by
  have hend := area.endRow_eq
  simp only [Area.rowsIn, List.length_take, List.length_drop]
  omega

lemma getD_rowsIn (hlo : area.first ≤ lo) {i : ℕ} (hi' : lo + i < hi) :
    (area.rowsIn lo hi).getD i 0 = area.row (lo + i) := by
  have hsub : lo - area.first + i = lo + i - area.first := by omega
  simp only [Area.rowsIn, Area.row, List.getD_eq_getElem?_getD, List.getElem?_take,
    List.getElem?_drop, hsub]
  rw [if_pos (by omega)]

lemma take_rowsIn (h : mid ≤ hi) (hmid : lo ≤ mid) :
    (area.rowsIn lo hi).take (mid - lo) = area.rowsIn lo mid := by
  simp only [Area.rowsIn, List.take_take]
  congr 1
  omega

lemma drop_rowsIn (hlo : area.first ≤ lo) (hmid : lo ≤ mid) :
    (area.rowsIn lo hi).drop (mid - lo) = area.rowsIn mid hi := by
  simp only [Area.rowsIn, List.drop_take, List.drop_drop]
  congr 1
  · omega
  · congr 1
    omega

end Rows

/-! ### What a signed instance holds -/

variable {area : Area}

/-- The entries before a signature are those of the rows before it. -/
lemma entries_of_signature {row keyRow lastRow : ℕ} {entries : List StoreEntry}
    (hfirst : area.first ≤ row)
    (h : parseEntries area row true = (entries, .signature keyRow lastRow)) :
    keyRow < area.endRow ∧ ∃ sig, sig.key = some OneromOtpKey.commissioningSig.toU16 ∧
      entries.map plain = readRows (area.rowsIn row keyRow) ++ [sig] := by
  generalize hends : true = signatureEnds at h
  fun_induction parseEntries area row signatureEnds generalizing entries with
  | case1 => cases h
  | case2 => cases h
  | case3 => cases h
  | case4 => cases h
  | case5 row _ _ key len _ next hfits entry =>
    rename_i hsig
    have htwo := two_le_entryRowCount len.toNat
    obtain ⟨rfl, hend⟩ := Prod.mk.inj h
    obtain ⟨rfl, -⟩ := ListEnd.signature.inj hend
    have hkey : (area.rowsIn row next).getD 0 0 = OneromOtpKey.commissioningSig.toU16 := by
      rw [getD_rowsIn hfirst (by omega)]
      exact hsig.2
    refine ⟨by omega, plain entry, ?_, ?_⟩
    · rw [key_plain, key_parseEntry (by rw [hkey]; decide), hkey]
    · rw [readRows, if_pos (by rw [length_rowsIn hfirst (by omega)]; omega)]
      rfl
  | case6 row _ _ key len _ next hfits entry hsig rest listEnd heq =>
    rename_i ih
    have htwo := two_le_entryRowCount len.toNat
    obtain ⟨rfl, rfl⟩ := Prod.mk.inj h
    obtain ⟨hlt, sig, hsigkey, hrest⟩ := ih (by omega) heq
    have hfrom : next ≤ keyRow := by
      have := parseEntries_from area next signatureEnds
      rw [heq] at this
      exact this.1
    have hlen : (area.rowsIn row keyRow).getD 1 0 = len := getD_rowsIn hfirst (by omega)
    have hcount : entryRowCount len.toNat = next - row := by omega
    refine ⟨hlt, sig, hsigkey, ?_⟩
    rw [readRows, if_neg (by rw [length_rowsIn hfirst hlt.le]; omega)]
    dsimp only
    rw [hlen, hcount, take_rowsIn hfrom (by omega), drop_rowsIn hfirst (by omega), List.map_cons,
      hrest, plain_parseEntry]
    rfl

/-- Every instance the walk finds is one the parser read at some row. -/
lemma parseInstance_of_walk {boundary : ℕ} {inst : CommissioningInstance}
    (hfirst : area.first ≤ boundary) (h : inst ∈ (walk area boundary).1) :
    ∃ firstRow row, area.first ≤ firstRow ∧
      (parseInstance area firstRow = .ended inst row ∨
        parseInstance area firstRow = .lost inst row) := by
  fun_induction walk area boundary with
  | case1 => exact absurd h List.not_mem_nil
  | case2 boundary _ _ _ inst' lastRow hinst instances issues walked heq ih =>
    rcases List.mem_cons.mp h with rfl | h
    · exact ⟨boundary, lastRow, hfirst, Or.inl hinst⟩
    · have hlast := parseInstance_from area boundary
      rw [hinst] at hlast
      have hpage := lt_pageAfter lastRow
      rw [heq] at ih
      exact ih (by simp only [Instance.From] at hlast; omega) h
  | case3 => exact absurd h List.not_mem_nil
  | case4 boundary _ _ _ inst' lost hinst next hnext instances issues walked heq ih =>
    rcases List.mem_cons.mp h with rfl | h
    · exact ⟨boundary, lost, hfirst, Or.inr hinst⟩
    · have hlost := parseInstance_from area boundary
      rw [hinst] at hlost
      have hafter := area.lt_instanceAfter hnext
      rw [heq] at ih
      exact ih (by simp only [Instance.From] at hlost; omega) h
  | case5 boundary _ _ _ inst' lost hinst =>
    obtain rfl := List.mem_singleton.mp h
    exact ⟨boundary, lost, hfirst, Or.inr hinst⟩
  | case6 boundary _ _ _ next hnext instances issues walked heq ih =>
    have hafter := area.lt_instanceAfter hnext
    rw [heq] at ih
    exact ih (by omega) h
  | case7 => exact absurd h List.not_mem_nil
  | case8 => exact absurd h List.not_mem_nil

/-- What a complete instance holds before its signature is what its signed rows hold. -/
lemma entries_of_complete {rows : List UInt16} {inst : CommissioningInstance}
    (h : inst ∈ (CommissioningArea.parse rows).instances) {signed : List UInt16}
    (hsigned : inst.signedRows = some signed) :
    ∃ sig, sig.key = some OneromOtpKey.commissioningSig.toU16 ∧
      inst.entries.map plain = readRows (signed.drop 2) ++ [sig] := by
  have hwalk : inst ∈ (walk (Area.new rows OTP_COMMISSIONING_AREA_FIRST_ROW
      COMMISSIONING_AREA_END) OTP_COMMISSIONING_AREA_FIRST_ROW).1 := by
    unfold CommissioningArea.parse at h
    dsimp only at h
    split at h <;> next heq => exact congrArg Prod.fst heq ▸ h
  obtain ⟨firstRow, row, hfirst, hinst⟩ := parseInstance_of_walk le_rfl hwalk
  unfold parseInstance at hinst
  dsimp only at hinst
  split_ifs at hinst
  · rcases hinst with hinst | hinst <;> cases hinst
    cases hsigned
  · rcases hinst with hinst | hinst <;> cases hinst
    cases hsigned
  · rcases hparse : parseEntries (Area.new rows OTP_COMMISSIONING_AREA_FIRST_ROW
      COMMISSIONING_AREA_END) (firstRow + 2) true with ⟨entries, lastRow | ⟨keyRow, lastRow⟩ | lost⟩
    all_goals rw [hparse] at hinst
    · rcases hinst with hinst | hinst <;> cases hinst
      cases hsigned
    · rcases hinst with hinst | hinst <;> cases hinst
      obtain rfl := Option.some.inj hsigned
      have hdrop : ((Area.new rows OTP_COMMISSIONING_AREA_FIRST_ROW
          COMMISSIONING_AREA_END).rowsIn firstRow keyRow).drop (firstRow + 2 - firstRow) = _ :=
        drop_rowsIn hfirst (Nat.le_add_right firstRow 2)
      rw [Nat.add_sub_cancel_left] at hdrop
      rw [hdrop]
      exact (entries_of_signature (by omega) hparse).2
    · rcases hinst with hinst | hinst <;> cases hinst
      cases hsigned
  · rcases hinst with hinst | hinst <;> cases hinst

/-! ### Values -/

/-- The last entry with a key, as a list of entries gives it. -/
def usedOf (entries : List StoreEntry) (key : OneromOtpKey) : Option OneromOtpEntry :=
  match entries.reverse.find? (fun entry => entry.key == some key.toU16) with
  | some (.entry _ entry) => some entry
  | _ => none

lemma used_eq_plain (inst : CommissioningInstance) (key : OneromOtpKey) :
    inst.used key = usedOf (inst.entries.map plain) key := by
  unfold CommissioningInstance.used usedOf
  rw [← List.map_reverse, List.find?_map]
  have hkey : (fun entry => entry.key == some key.toU16) ∘ plain
      = fun entry : StoreEntry => entry.key == some key.toU16 := by
    funext entry
    simp
  rw [hkey]
  cases inst.entries.reverse.find? (fun entry => entry.key == some key.toU16) with
  | none => rfl
  | some entry => cases entry <;> rfl

/-- An entry with another key at the end has no part in it. -/
lemma usedOf_concat {entries : List StoreEntry} {sig : StoreEntry} {key : OneromOtpKey}
    (h : sig.key ≠ some key.toU16) : usedOf (entries ++ [sig]) key = usedOf entries key := by
  unfold usedOf
  rw [List.reverse_append, List.reverse_singleton, List.singleton_append, List.find?_cons_of_neg]
  simpa using h

/-- The values of a complete instance are its signed rows'. -/
lemma used_of_complete {rows : List UInt16} {inst : CommissioningInstance}
    (h : inst ∈ (CommissioningArea.parse rows).instances) {signed : List UInt16}
    (hsigned : inst.signedRows = some signed) {key : OneromOtpKey} (hkey : key ≠ .commissioningSig) :
    inst.used key = usedOf (readRows (signed.drop 2)) key := by
  obtain ⟨sig, hsig, hentries⟩ := entries_of_complete h hsigned
  rw [used_eq_plain, hentries, usedOf_concat]
  rw [hsig]
  cases key <;> first | decide | exact absurd rfl hkey

/-! ### Messages -/

lemma message_inj {chipId chipId' : Vector UInt16 4} {rows rows' : List UInt16}
    (h : signedMessage chipId rows = signedMessage chipId' rows') :
    chipId = chipId' ∧ rows = rows' := by
  have hbytes := List.append_cancel_left h
  have hwords := congrArg words hbytes
  rw [words_bytes, words_bytes] at hwords
  obtain ⟨hchip, hrows⟩ := List.append_inj hwords (by simp)
  exact ⟨Vector.toList_inj.mp hchip, hrows⟩

/-- The two kinds of message part at their eighth byte. -/
lemma message_ne_proof (chipId : Vector UInt16 4) (rows : List UInt16) (name : List UInt8) :
    signedMessage chipId rows ≠ PROOF_PREFIX ++ name := by
  intro h
  have hbytes := congrArg (·.take 8) h
  unfold signedMessage at hbytes
  rw [List.take_append_of_le_length (by decide), List.take_append_of_le_length (by decide)] at hbytes
  exact absurd hbytes (by decide)

end OneRom.SignedRows
