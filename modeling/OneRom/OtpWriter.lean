import OneRom.Hw
import OneRom.OtpStore
import OneRom.WriteOnce

/-!
The writer of a commissioning instance.

`CommissioningValues.new` checks the values and lays their entries out, and
`NewCommissioningInstance.writes` lists the rows to write, each entry's key row last.
-/

namespace OneRom.OtpWriter

open OneRom.LittleEndian OneRom.OtpEntry OneRom.OtpStore OneRom.WriteOnce OneRom.Hw

inductive BuildError
  | emptyManufacturer
  | badManufacturer
  | badDate
  | badSigner
  | badFirstRow
  | doesNotFit
  deriving DecidableEq, Repr

/-- Checks that `name` is printable ASCII without `*` or a leading or trailing space. -/
def checkManufacturer (name : String) : Except BuildError Unit :=
  if (strBytes name).isEmpty then .error .emptyManufacturer
  else
    let printable := (strBytes name).all fun b => 0x20 ≤ b && b ≤ 0x7e && b != 0x2a
    if !printable || (strBytes name).head? == some 0x20 || (strBytes name).getLast? == some 0x20
    then .error .badManufacturer
    else .ok ()

/-- The number of rows an instance takes, its header and its signature's entry included. -/
def instanceRowCount (entryRowCounts : List ℕ) : ℕ :=
  2 + entryRowCounts.sum + entryRowCount OTP_COMMISSIONING_SIG_LEN

/-- The values of a commissioning instance. -/
structure CommissioningValues where
  /-- Each entry's rows, key row first, without the signature's entry. -/
  entries : List (List UInt16)
  deriving DecidableEq

/-- The entries of a commissioning instance, without the signature's. -/
def valueEntries (board : Board) (manufacturer date : String) (signer : UInt16) :
    List OneromOtpEntry :=
  [.commissioningBoard board.name, .commissioningManufacturer manufacturer,
    .commissioningDate date, .commissioningSigner signer]

def CommissioningValues.new (board : Board) (manufacturer date : String) (signer : UInt16) :
    Except BuildError CommissioningValues := do
  checkManufacturer manufacturer
  if (strBytes date).length ≠ 8 ∨ !(strBytes date).all fun b => 0x30 ≤ b && b ≤ 0x39 then
    throw .badDate
  if signer = 0 then
    throw .badSigner
  let entries := valueEntries board manufacturer date signer
  -- only a value that fits the area has a length the 16-bit length row can hold
  let rows := instanceRowCount (entries.map fun entry => entryRowCount (valueLen entry))
  if rows > COMMISSIONING_AREA_END - OTP_COMMISSIONING_AREA_FIRST_ROW then
    throw .doesNotFit
  return ⟨entries.map entryRows⟩

/-- The message the instance's signature covers. -/
def CommissioningValues.message (values : CommissioningValues) (chipId : Vector UInt16 4) :
    List UInt8 :=
  signedMessage chipId ([OTP_STORE_MAGIC, OTP_STORE_VERSION] ++ values.entries.flatten)

/-- The number of rows the instance takes including its signature's entry. -/
def CommissioningValues.rowCount (values : CommissioningValues) : ℕ :=
  instanceRowCount (values.entries.map List.length)

/-- A commissioning instance to write, before it has a signature. -/
structure NewCommissioningInstance where
  firstRow : ℕ
  values : CommissioningValues
  deriving DecidableEq

def NewCommissioningInstance.new (values : CommissioningValues) (firstRow : ℕ) :
    Except BuildError NewCommissioningInstance := do
  if firstRow % OTP_PAGE_ROWS ≠ 0 ∨
      ¬(OTP_COMMISSIONING_AREA_FIRST_ROW ≤ firstRow ∧ firstRow < COMMISSIONING_AREA_END) then
    throw .badFirstRow
  if firstRow + values.rowCount > COMMISSIONING_AREA_END then
    throw .doesNotFit
  return ⟨firstRow, values⟩

/-- An ECC write of a value to an OTP row. -/
abbrev RowWrite := Write UInt16

/-- The writes of the entry at `row`: its length row, its value rows, then its key row. -/
def entryWrites (row : ℕ) (entry : List UInt16) : List RowWrite :=
  -- the key row goes last, so the parser treats an entry cut short as deleted
  (List.range' 1 (entry.length - 1) ++ [0]).map fun i => ⟨row + i, entry.getD i 0⟩

def entriesWrites (row : ℕ) : List (List UInt16) → List RowWrite
  | [] => []
  | entry :: entries => entryWrites row entry ++ entriesWrites (row + entry.length) entries

/-- The rows to write with ECC, in order. -/
def NewCommissioningInstance.writes (inst : NewCommissioningInstance)
    (signature : Vector UInt8 OTP_COMMISSIONING_SIG_LEN) : List RowWrite :=
  ⟨inst.firstRow, OTP_STORE_MAGIC⟩ :: ⟨inst.firstRow + 1, OTP_STORE_VERSION⟩ ::
    entriesWrites (inst.firstRow + 2)
      (inst.values.entries ++ [entryRows (.commissioningSig signature)])

/-! ### What the checks ensure -/

/-- What `CommissioningValues.new` checks before it accepts. -/
structure Accepted (board : Board) (manufacturer date : String) (signer : UInt16)
    (values : CommissioningValues) : Prop where
  manufacturer_pos : 0 < (strBytes manufacturer).length
  date_length : (strBytes date).length = 8
  signer_ne : signer ≠ 0
  entries_eq : values.entries = (valueEntries board manufacturer date signer).map entryRows
  fits : values.rowCount ≤ COMMISSIONING_AREA_END - OTP_COMMISSIONING_AREA_FIRST_ROW

lemma checkManufacturer_ok {name : String} (h : checkManufacturer name = .ok ()) :
    0 < (strBytes name).length := by
  unfold checkManufacturer at h
  split_ifs at h with hempty
  rcases hb : strBytes name with _ | ⟨b, bs⟩
  · simp [hb] at hempty
  · simp

lemma CommissioningValues.new_ok {board : Board} {manufacturer date : String} {signer : UInt16}
    {values : CommissioningValues} (h : new board manufacturer date signer = .ok values) :
    Accepted board manufacturer date signer values := by
  simp only [CommissioningValues.new, bind, Except.bind] at h
  rcases hm : checkManufacturer manufacturer with e | u
  · simp [hm] at h
  simp only [hm] at h
  split_ifs at h with hdate hsigner hfits
  all_goals cases h
  simp only [not_or, not_not] at hdate
  refine ⟨checkManufacturer_ok hm, hdate.1, hsigner, rfl, ?_⟩
  have hlen : (fun entry => entryRowCount (valueLen entry)) = List.length ∘ entryRows := by
    funext entry; simp
  rw [CommissioningValues.rowCount, List.map_map, ← hlen]
  exact not_lt.mp hfits

/-- Where `NewCommissioningInstance.new` places an instance. -/
structure Placed (values : CommissioningValues) (firstRow : ℕ)
    (inst : NewCommissioningInstance) : Prop where
  eq : inst = ⟨firstRow, values⟩
  boundary : firstRow % OTP_PAGE_ROWS = 0
  first_le : OTP_COMMISSIONING_AREA_FIRST_ROW ≤ firstRow
  fits : firstRow + values.rowCount ≤ COMMISSIONING_AREA_END

lemma NewCommissioningInstance.new_ok {values : CommissioningValues} {firstRow : ℕ}
    {inst : NewCommissioningInstance} (h : new values firstRow = .ok inst) :
    Placed values firstRow inst := by
  simp only [NewCommissioningInstance.new, bind, Except.bind] at h
  split_ifs at h with hrow hfits
  all_goals cases h
  simp only [not_or, not_not] at hrow
  exact ⟨rfl, hrow.1, hrow.2.1, not_lt.mp hfits⟩

/-! ### What the writes lay out -/

lemma lays_entryWrites (row : ℕ) {entry : List UInt16} (h : 0 < entry.length) :
    Lays row entry (entryWrites row entry) where
  cells := by
    obtain ⟨n, hn⟩ : ∃ n, entry.length = n + 1 := ⟨entry.length - 1, by omega⟩
    have hrow : (List.range' 1 n).map (fun i => row + i) = List.range' (row + 1) n := by
      rw [List.map_add_range']
    simp only [entryWrites, hn, List.map_map, List.map_append, Function.comp_def,
      Nat.add_sub_cancel, List.map_cons, List.map_nil, List.range'_succ, Nat.add_zero, hrow]
    exact List.perm_append_singleton _ _
  values := by
    intro w hw
    obtain ⟨i, hi, rfl⟩ := List.mem_map.mp hw
    have hlt : i < entry.length := by
      rcases List.mem_append.mp hi with hi | hi
      · obtain ⟨_, _⟩ := List.mem_range'_1.mp hi; omega
      · simp at hi; omega
    simp [hlt]

/-- A list of entries with a key row each. -/
def HasRows (entries : List (List UInt16)) : Prop := ∀ entry ∈ entries, 0 < entry.length

lemma lays_entriesWrites {entries : List (List UInt16)} (h : HasRows entries) (row : ℕ) :
    Lays row entries.flatten (entriesWrites row entries) := by
  induction entries generalizing row with
  | nil => exact Lays.nil row
  | cons entry entries ih =>
    exact (lays_entryWrites row (h entry (by simp))).append
      (ih (fun e he => h e (by simp [he])) (row + entry.length))

/-- A prefix of the writes of some entries: all of them, or the entries before one and a prefix
of that one's. -/
lemma take_entriesWrites {entries : List (List UInt16)} (h : HasRows entries) (row k : ℕ) :
    entries.flatten.length ≤ k ∨
      ∃ before entry after i, entries = before ++ entry :: after ∧ i < entry.length ∧
        k = before.flatten.length + i ∧
        (entriesWrites row entries).take k = entriesWrites row before ++
          (entryWrites (row + before.flatten.length) entry).take i := by
  induction entries generalizing row k with
  | nil => exact .inl (Nat.zero_le k)
  | cons entry entries ih =>
    have hlen := (lays_entryWrites row (h entry (by simp))).length
    rcases lt_or_ge k entry.length with hk | hk
    · refine .inr ⟨[], entry, entries, k, rfl, hk, by simp, ?_⟩
      simp [entriesWrites, List.take_append_of_le_length (by omega : k ≤ (entryWrites row entry).length)]
    · rcases ih (fun e he => h e (by simp [he])) (row + entry.length) (k - entry.length) with
        hall | ⟨before, cut, after, i, rfl, hi, hki, htake⟩
      · refine .inl ?_
        simp only [List.flatten_cons, List.length_append]; omega
      · refine .inr ⟨entry :: before, cut, after, i, rfl, hi, ?_, ?_⟩
        · simp only [List.flatten_cons, List.length_append]; omega
        · rw [entriesWrites, List.take_append, List.take_of_length_le (by omega), hlen, htake]
          simp [entriesWrites, List.append_assoc, Nat.add_assoc]

/-- An entry cut short has its length row but not its key row. -/
lemma apply_take_entryWrites {m : ℕ → UInt16} {row i : ℕ} {entry : List UInt16}
    (hi : i < entry.length) (hpos : 0 < i) (hzero : m row = 0) :
    apply m ((entryWrites row entry).take i) row = 0 ∧
      apply m ((entryWrites row entry).take i) (row + 1) = entry.getD 1 0 := by
  have hlays := lays_entryWrites row (by omega : 0 < entry.length)
  have htake : (entryWrites row entry).take i =
      (List.range' 1 i).map fun j => ⟨row + j, entry.getD j 0⟩ := by
    have hsplit : List.range' 1 (entry.length - 1) =
        List.range' 1 i ++ List.range' (1 + i) (entry.length - 1 - i) := by
      rw [List.range'_append_1]; congr 1; omega
    rw [entryWrites, ← List.map_take, hsplit, List.append_assoc, List.take_left' (by simp)]
  constructor
  · rw [← hzero, htake]
    refine apply_of_notMem m ?_
    simp
  · have hmem : (⟨row + 1, entry.getD 1 0⟩ : RowWrite) ∈ (entryWrites row entry).take i := by
      rw [htake]; exact List.mem_map.mpr ⟨1, by simp [hpos], rfl⟩
    refine apply_of_mem m ?_ hmem
    rw [List.map_take]
    exact hlays.nodup.sublist (List.take_sublist _ _)

end OneRom.OtpWriter
