import OneRom.Checks
import OneRom.OtpReads

/-!
The rows a plan writes, from the rows it was made over.

Each row belongs to one kind of step (`kindOf`), so a plan whose steps are of different kinds and
keep to their rows names no row twice. A planned write is `fresh` over the rows it was planned
from: it says whether its row holds the value.
-/

namespace OneRom.CommissionPlan

open OneRom.OtpEntry OneRom.OtpStore OneRom.OtpWriter OneRom.Hw OneRom.WriteOnce OneRom.Fallible
open OneRom.OtpAccess OneRom.Commission OneRom.OtpReads OneRom.Checks

/-! ### The kinds of rows -/

def InArea (row : ℕ) : Prop := OTP_COMMISSIONING_AREA_FIRST_ROW ≤ row ∧ row < COMMISSIONING_AREA_END

instance : DecidablePred InArea := fun _ => inferInstanceAs (Decidable (_ ∧ _))

/-- The kind of step that writes a row. -/
def kindOf (row : ℕ) : Option StepKind :=
  if row ∈ BOOT_FLAGS0_ROWS then some .bootFlags0
  else if row = OTP_FLASH_DEVINFO_ROW then some .flashDevinfo
  else if row ∈ USB_BOOT_FLAGS_ROWS then some .usbBootFlags
  else if row = OTP_ROW_USB_WHITE_LABEL_DATA then some .whiteLabelAddr
  else if InArea row then some .instance_
  else if OTP_USB_WHITE_LABEL_ROW ≤ row ∧ row < OTP_USB_WHITE_LABEL_ROW + WHITE_LABEL_TABLE_ROWS then
    some .whiteLabelTable
  else if OTP_USB_WHITE_LABEL_ROW + WHITE_LABEL_TABLE_ROWS ≤ row ∧ row < OTP_ROW_UNRESERVED_END then
    some .whiteLabelStrings
  else if lock1Row AREA_FIRST_PAGE ≤ row ∧ row ≤ lock1Row AREA_LAST_PAGE ∧ row % 2 = 1 then
    some (.lock ((row - PAGE0_LOCK1_ROW) / 2))
  else none

lemma kindOf_bootFlags0 {row : ℕ} (h : row ∈ BOOT_FLAGS0_ROWS) : kindOf row = some .bootFlags0 :=
  if_pos h

lemma kindOf_usbBootFlags {row : ℕ} (h : row ∈ USB_BOOT_FLAGS_ROWS) :
    kindOf row = some .usbBootFlags := by
  have : row = 0x059 ∨ row = 0x05a ∨ row = 0x05b := by simpa [USB_BOOT_FLAGS_ROWS] using h
  rcases this with rfl | rfl | rfl <;> decide +kernel

lemma kindOf_area {row : ℕ} (h : InArea row) : kindOf row = some .instance_ := by
  obtain ⟨hfirst, hend⟩ := h
  simp only [OTP_COMMISSIONING_AREA_FIRST_ROW, COMMISSIONING_AREA_END,
    OTP_COMMISSIONING_AREA_LAST_ROW] at hfirst hend
  unfold kindOf
  rw [if_neg, if_neg, if_neg, if_neg, if_pos]
  · exact ⟨hfirst, hend⟩
  · simp only [OTP_ROW_USB_WHITE_LABEL_DATA]; omega
  · simp [USB_BOOT_FLAGS_ROWS]; omega
  · simp only [OTP_FLASH_DEVINFO_ROW]; omega
  · simp [BOOT_FLAGS0_ROWS, OTP_BOOT_FLAGS0_ROW, OTP_BOOT_FLAGS0_R1_ROW, OTP_BOOT_FLAGS0_R2_ROW]
    omega

lemma kindOf_lock {page : ℕ} (hfirst : AREA_FIRST_PAGE ≤ page) (hlast : page ≤ AREA_LAST_PAGE) :
    kindOf (lock1Row page) = some (.lock page) := by
  have h1 : 3 ≤ page := hfirst
  have h2 : page ≤ 18 := hlast
  interval_cases page <;> decide +kernel

/-- A row of the white label belongs to its table or to its strings. -/
lemma kindOf_whiteLabel {i : ℕ} (h : i < WHITE_LABEL_PAGES_ROWS) :
    kindOf (OTP_USB_WHITE_LABEL_ROW + i) =
      some (if i < WHITE_LABEL_TABLE_ROWS then .whiteLabelTable else .whiteLabelStrings) := by
  simp only [WHITE_LABEL_PAGES_ROWS, OTP_ROW_UNRESERVED_END, OTP_USB_WHITE_LABEL_ROW] at h
  unfold kindOf
  rw [if_neg, if_neg, if_neg, if_neg, if_neg]
  · by_cases hi : i < WHITE_LABEL_TABLE_ROWS
    · rw [if_pos ⟨Nat.le_add_right _ _, Nat.add_lt_add_left hi _⟩, if_pos hi]
    · have hend : OTP_USB_WHITE_LABEL_ROW + i < OTP_ROW_UNRESERVED_END := by
        simp only [OTP_USB_WHITE_LABEL_ROW, OTP_ROW_UNRESERVED_END]
        omega
      rw [if_neg fun h' => hi (Nat.lt_of_add_lt_add_left h'.2),
        if_pos ⟨Nat.add_le_add_left (Nat.le_of_not_lt hi) _, hend⟩, if_neg hi]
  · rintro ⟨-, hend⟩
    simp only [OTP_USB_WHITE_LABEL_ROW, COMMISSIONING_AREA_END,
      OTP_COMMISSIONING_AREA_LAST_ROW] at hend
    omega
  · simp only [OTP_ROW_USB_WHITE_LABEL_DATA, OTP_USB_WHITE_LABEL_ROW]; omega
  · simp [USB_BOOT_FLAGS_ROWS, OTP_USB_WHITE_LABEL_ROW]; omega
  · simp only [OTP_FLASH_DEVINFO_ROW, OTP_USB_WHITE_LABEL_ROW]; omega
  · simp [BOOT_FLAGS0_ROWS, OTP_BOOT_FLAGS0_ROW, OTP_BOOT_FLAGS0_R1_ROW, OTP_BOOT_FLAGS0_R2_ROW,
      OTP_USB_WHITE_LABEL_ROW]
    omega

/-! ### Planned writes over rows -/

/-- A value that sets every bit a raw value has: at most one for a row written with ECC. -/
def Sets (raw : UInt32) : RowValue → Prop
  | .ecc _ => countOnes raw ≤ 1
  | .raw value => raw &&& ~~~value = 0

lemma sets_or (raw bits : UInt32) : Sets raw (.raw (raw ||| bits)) := by
  simp only [Sets]
  apply UInt32.toBitVec_inj.mp
  ext i hi
  simp
  grind

lemma zip_map_rows (rows : Rows) (v : Vector ℕ 3) :
    (v.zip (v.map rows)).toList = v.toList.map fun row => (row, rows row) := by
  rw [Vector.toList_zip, Vector.toList_map]
  exact List.map_prod_left_eq_zip.symm

lemma flashDevinfo_l (pin : UInt8) : ∃ devinfo, flashDevinfo .l pin = some devinfo := ⟨_, rfl⟩

variable [PicoOtp]

/-- The planned write of a value to a row. -/
def fresh (rows : Rows) (row : ℕ) (value : RowValue) : PlannedWrite :=
  ⟨row, value, holdsValue (rows row) value⟩

/-- Whether a row with a raw value holds a value or can still be given it. -/
def Takes (raw : UInt32) : RowValue → Prop
  | .ecc value => OtpAccess.holds raw value = true ∨ isUnwritten raw = true
  | .raw value => raw = 0 ∨ raw = value

lemma eccWrite_eq_ok {rows : Rows} {row : ℕ} {value : UInt16} {w : PlannedWrite} :
    eccWrite row value (rows row) = .ok w ↔
      Takes (rows row) (.ecc value) ∧ w = fresh rows row (.ecc value) := by
  unfold eccWrite
  simp only [Takes, ← Bool.or_eq_true]
  split
  · next h => simp [h, fresh, holdsValue, eq_comm]
  · next h => simp [h]

lemma rawWrite_eq (rows : Rows) (row : ℕ) (value : UInt32) :
    rawWrite row value (rows row) = fresh rows row (.raw value) := rfl

lemma usbBootFlagsWrite_eq_ok {rows : Rows} {row : ℕ} {flags : UInt32} {w : PlannedWrite} :
    usbBootFlagsWrite flags row (rows row) = .ok w ↔
      Takes (rows row) (.raw flags) ∧ w = fresh rows row (.raw flags) := by
  unfold usbBootFlagsWrite
  simp only [Takes]
  split
  · next h =>
    exact ⟨fun heq => ⟨h, (Except.ok.inj heq).symm⟩, fun ⟨_, heq⟩ => congrArg Except.ok heq.symm⟩
  · next h => exact ⟨(by cases ·), fun ⟨ht, _⟩ => absurd ht h⟩

/-- A row that takes a value it doesn't hold can be given it. -/
lemma Takes.sets {raw : UInt32} {value : RowValue} (h : Takes raw value)
    (hnot : holdsValue raw value = false) : Sets raw value := by
  cases value with
  | ecc value =>
    rcases h with h | h
    · exact absurd (h.symm.trans hnot) (by decide)
    · have hd : decide (countOnes raw ≤ 1) = true := h
      exact (of_decide_eq_true hd : countOnes raw ≤ 1)
  | raw value =>
    rcases h with rfl | rfl
    · simp [Sets]
    · simp [holdsValue] at hnot

/-! ### The steps over rows -/

/-- The planned writes of a white label's rows. -/
def freshLabel (rows : Rows) (label : List (UInt16 × ℕ)) : List PlannedWrite :=
  label.map fun (value, i) => fresh rows (OTP_USB_WHITE_LABEL_ROW + i) (.ecc value)

/-- The white label's rows that go after its table, each with its place. -/
def labelStrings (board : Board) : List (UInt16 × ℕ) :=
  (whiteLabel board).rows.zipIdx.drop WHITE_LABEL_TABLE_ROWS

/-- The table's rows that are written. -/
def labelTable (board : Board) : List (UInt16 × ℕ) :=
  ((whiteLabel board).rows.zipIdx.take WHITE_LABEL_TABLE_ROWS).filter (·.1 != 0)

lemma lt_of_mem_label {board : Board} {p : UInt16 × ℕ} (h : p ∈ (whiteLabel board).rows.zipIdx) :
    p.2 < WHITE_LABEL_PAGES_ROWS :=
  (List.snd_lt_of_mem_zipIdx h).trans_le (by simpa using (whiteLabel board).fits)

lemma whiteLabelWrites_eq_ok {rows : Rows} {label : List (UInt16 × ℕ)} {ws : List PlannedWrite}
    (hlt : ∀ p ∈ label, p.2 < WHITE_LABEL_PAGES_ROWS) :
    whiteLabelWrites (rawsOf rows OTP_USB_WHITE_LABEL_ROW WHITE_LABEL_PAGES_ROWS) label = .ok ws ↔
      (∀ p ∈ label, Takes (rows (OTP_USB_WHITE_LABEL_ROW + p.2)) (.ecc p.1)) ∧
        ws = freshLabel rows label := by
  refine mapM_eq_ok_iff fun p hp w => ?_
  simp only
  rw [rawsOf, getD_map_range' _ _ _ (hlt p hp), eccWrite_eq_ok]

/-- The planned writes of `USB_BOOT_FLAGS` and its copies. -/
def freshUsbFlags (rows : Rows) (flags : UInt32) : List PlannedWrite :=
  USB_BOOT_FLAGS_ROWS.toList.map fun row => fresh rows row (.raw flags)

/-- The planned writes of `BOOT_FLAGS0` and its copies. -/
def freshBootFlags (rows : Rows) : List PlannedWrite :=
  BOOT_FLAGS0_ROWS.toList.map fun row =>
    fresh rows row (.raw (rows row ||| OTP_BOOT_FLAGS0_FLASH_DEVINFO_ENABLE))

/-- The rows the white label's steps write take their values. -/
structure LabelTakes (board : Board) (rows : Rows) : Prop where
  strings : ∀ p ∈ labelStrings board, Takes (rows (OTP_USB_WHITE_LABEL_ROW + p.2)) (.ecc p.1)
  table : ∀ p ∈ labelTable board, Takes (rows (OTP_USB_WHITE_LABEL_ROW + p.2)) (.ecc p.1)
  addr : Takes (rows OTP_ROW_USB_WHITE_LABEL_DATA) (.ecc (UInt16.ofNat OTP_USB_WHITE_LABEL_ROW))
  flags : ∀ row ∈ USB_BOOT_FLAGS_ROWS.toList,
    Takes (rows row) (.raw (whiteLabel board).usbBootFlags)

def freshLabelSteps (board : Board) (rows : Rows) : List Step :=
  [⟨.whiteLabelStrings, freshLabel rows (labelStrings board)⟩,
    ⟨.whiteLabelTable, freshLabel rows (labelTable board)⟩,
    ⟨.whiteLabelAddr, [fresh rows OTP_ROW_USB_WHITE_LABEL_DATA
      (.ecc (UInt16.ofNat OTP_USB_WHITE_LABEL_ROW))]⟩,
    ⟨.usbBootFlags, freshUsbFlags rows (whiteLabel board).usbBootFlags⟩]

/-- **The white label's steps** are planned where every row takes its value. -/
theorem whiteLabelSteps_eq_ok {board : Board} {rows : Rows} {steps : List Step} :
    whiteLabelSteps board (rawsOf rows OTP_USB_WHITE_LABEL_ROW WHITE_LABEL_PAGES_ROWS)
        (bootOf rows) = .ok steps ↔
      LabelTakes board rows ∧ steps = freshLabelSteps board rows := by
  have hstrings : ∀ p ∈ labelStrings board, p.2 < WHITE_LABEL_PAGES_ROWS := fun p hp =>
    lt_of_mem_label (List.mem_of_mem_drop hp)
  have htable : ∀ p ∈ labelTable board, p.2 < WHITE_LABEL_PAGES_ROWS := fun p hp =>
    lt_of_mem_label (List.mem_of_mem_take (List.mem_of_mem_filter hp))
  have hflags : ∀ ws, ((USB_BOOT_FLAGS_ROWS.zip (USB_BOOT_FLAGS_ROWS.map rows)).toList.mapM
      fun p => usbBootFlagsWrite (whiteLabel board).usbBootFlags p.1 p.2) = .ok ws ↔
      (∀ row ∈ USB_BOOT_FLAGS_ROWS.toList,
        Takes (rows row) (.raw (whiteLabel board).usbBootFlags)) ∧
        ws = freshUsbFlags rows (whiteLabel board).usbBootFlags := fun ws => by
    rw [zip_map_rows, List.mapM_map]
    exact mapM_eq_ok_iff fun row _ w => usbBootFlagsWrite_eq_ok
  unfold whiteLabelSteps
  constructor
  · intro h
    obtain ⟨strings, h1, h⟩ := bind_eq_ok.mp h
    obtain ⟨table, h2, h⟩ := bind_eq_ok.mp h
    obtain ⟨addr, h3, h⟩ := bind_eq_ok.mp h
    obtain ⟨flags, h4, h⟩ := bind_eq_ok.mp h
    obtain ⟨t1, rfl⟩ := (whiteLabelWrites_eq_ok hstrings).mp h1
    obtain ⟨t2, rfl⟩ := (whiteLabelWrites_eq_ok htable).mp h2
    obtain ⟨t3, rfl⟩ := eccWrite_eq_ok.mp h3
    obtain ⟨t4, rfl⟩ := (hflags _).mp h4
    exact ⟨⟨t1, t2, t3, t4⟩, (pure_eq_ok.mp h).symm⟩
  · rintro ⟨⟨t1, t2, t3, t4⟩, rfl⟩
    refine bind_eq_ok.mpr ⟨_, (whiteLabelWrites_eq_ok hstrings).mpr ⟨t1, rfl⟩, ?_⟩
    refine bind_eq_ok.mpr ⟨_, (whiteLabelWrites_eq_ok htable).mpr ⟨t2, rfl⟩, ?_⟩
    refine bind_eq_ok.mpr ⟨_, eccWrite_eq_ok.mpr ⟨t3, rfl⟩, ?_⟩
    exact bind_eq_ok.mpr ⟨_, (hflags _).mpr ⟨t4, rfl⟩, rfl⟩

/-- What `checkSize` establishes for a board with a second chip. -/
structure SizeTakes (board : Board) (rows : Rows) (devinfo : UInt16) : Prop where
  pin : ∃ pin, board.externalFlashCsPin = some pin ∧ flashDevinfo .l pin = some devinfo
  slotSize : (codeword (rows OTP_FLASH_PARTITION_SLOT_SIZE_ROW)).isSome
  devinfo : Takes (rows OTP_FLASH_DEVINFO_ROW) (.ecc devinfo)

/-- The steps of a size over rows: none for an M board. -/
def freshSizeSteps (rows : Rows) : Option UInt16 → SizeSteps
  | none => ⟨none, none⟩
  | some devinfo => ⟨some ⟨.flashDevinfo, [fresh rows OTP_FLASH_DEVINFO_ROW (.ecc devinfo)]⟩,
      some ⟨.bootFlags0, freshBootFlags rows⟩⟩

/-- The value `FLASH_DEVINFO` is planned to have. -/
def SizeChoice (board : Board) (rows : Rows) : BoardSize → Option UInt16 → Prop
  | .m, none => True
  | .l, some devinfo => SizeTakes board rows devinfo
  | _, _ => False

lemma checkSize_l {board : Board} {boot : BootRows} {configured : OneromBoardSize}
    {devinfo : Option UInt16} :
    checkSize board .l boot configured = .ok devinfo ↔
      checkConfigured configured .l = .ok () ∧ ∃ pin, board.externalFlashCsPin = some pin ∧
        (codeword boot.flashPartitionSlotSize).isSome ∧ devinfo = flashDevinfo .l pin := by
  unfold checkSize
  rcases board.externalFlashCsPin with _ | pin
  · exact ⟨(by cases ·), fun ⟨_, pin, hpin, _⟩ => by cases hpin⟩
  · simp only
    constructor
    · intro h
      obtain ⟨_, hpin, h⟩ := bind_eq_ok.mp h
      cases pure_eq_ok.mp hpin
      obtain ⟨hsize, h⟩ := seq_eq_ok.mp h
      split at h
      · cases h
      · next hcode =>
        refine ⟨hsize, pin, rfl, ?_, (pure_eq_ok.mp h).symm⟩
        simpa [Option.isSome_iff_ne_none] using hcode
    · rintro ⟨hsize, _, ⟨⟩, hcode, rfl⟩
      refine bind_eq_ok.mpr ⟨pin, rfl, seq_eq_ok.mpr ⟨hsize, ?_⟩⟩
      rw [if_neg (by simpa [Option.isSome_iff_ne_none] using hcode)]
      rfl

/-- **The size's steps** are planned where OTP allows the size and the rows take their values. -/
theorem sizeSteps_eq_ok {board : Board} {size : BoardSize} {rows : Rows} {ecc : UInt16}
    {steps : SizeSteps} :
    sizeSteps board size (bootOf rows) ecc = .ok steps ↔
      checkConfigured (boardSize (BOOT_FLAGS0_ROWS.map rows) ecc) size = .ok () ∧
        ∃ devinfo, SizeChoice board rows size devinfo ∧ steps = freshSizeSteps rows devinfo := by
  have hflags : ((BOOT_FLAGS0_ROWS.zip (BOOT_FLAGS0_ROWS.map rows)).toList.map fun p =>
      rawWrite p.1 (p.2 ||| OTP_BOOT_FLAGS0_FLASH_DEVINFO_ENABLE) p.2) = freshBootFlags rows := by
    rw [zip_map_rows, List.map_map]
    rfl
  unfold sizeSteps
  rw [bind_eq_ok]
  cases size with
  | m =>
    simp only [checkSize, bootOf]
    constructor
    · rintro ⟨devinfo, h, hsteps⟩
      obtain ⟨hsize, hnone⟩ := seq_eq_ok.mp h
      cases pure_eq_ok.mp hnone
      exact ⟨hsize, none, trivial, (pure_eq_ok.mp hsteps).symm⟩
    · rintro ⟨hsize, _ | devinfo, hchoice, rfl⟩
      · exact ⟨none, seq_eq_ok.mpr ⟨hsize, rfl⟩, rfl⟩
      · exact hchoice.elim
  | l =>
    constructor
    · rintro ⟨devinfo?, h, hsteps⟩
      obtain ⟨hsize, pin, hpin, hcode, rfl⟩ := checkSize_l.mp h
      obtain ⟨devinfo, hdevinfo⟩ := flashDevinfo_l pin
      simp only [hdevinfo] at hsteps
      obtain ⟨w, hw, hsteps⟩ := bind_eq_ok.mp hsteps
      obtain ⟨htakes, rfl⟩ := eccWrite_eq_ok.mp hw
      refine ⟨hsize, some devinfo, ⟨⟨pin, hpin, hdevinfo⟩, hcode, htakes⟩, ?_⟩
      rw [← pure_eq_ok.mp hsteps, freshSizeSteps, ← hflags]
      rfl
    · rintro ⟨hsize, _ | devinfo, hchoice, rfl⟩
      · exact hchoice.elim
      · obtain ⟨⟨pin, hpin, hdevinfo⟩, hcode, htakes⟩ := hchoice
        refine ⟨some devinfo, checkSize_l.mpr ⟨hsize, pin, hpin, hcode, hdevinfo.symm⟩, ?_⟩
        refine bind_eq_ok.mpr ⟨_, eccWrite_eq_ok.mpr ⟨htakes, rfl⟩, ?_⟩
        rw [freshSizeSteps, ← hflags]
        rfl

end OneRom.CommissionPlan
