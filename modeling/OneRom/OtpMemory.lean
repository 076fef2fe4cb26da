import OneRom.OtpAccess

/-!
An in-memory OTP that follows the bootrom's rules.

A raw write is refused where it would clear a set bit, an ECC write stores the value's encoding or
its inverse, and `reset` loads the page locks: a page locked read-only refuses writes and one locked
inaccessible refuses reads too. Here an access's number counts the reads as well as the writes.
-/

namespace OneRom.OtpMemory

open OneRom.OtpEntry OneRom.OtpAccess

/-- Rows in OTP. -/
def ROWS : ℕ := 4096

/-- Row of page 0's `LOCK0` word. -/
def LOCK_WORDS_ROW : ℕ := 0xf80

/-- Bits 23:22. The bootrom sets both where it inverted a row. -/
def INVERTED : UInt32 := 0xc00000

/-- The bits holding the value and its six parity bits. -/
def CODEWORD_BITS : UInt32 := 0x3fffff

/-- The first `LOCK_BL` value refusing reads as well as writes. -/
def INACCESSIBLE : UInt8 := 2

/-- Whether an interrupted write lands before it fails. -/
inductive Interruption
  | landed
  | notLanded
  deriving DecidableEq

/-- The OTP's own state, apart from its rows. -/
structure MemoryOtp where
  /-- Each page's `LOCK_BL` value from the last reset. -/
  locks : ℕ → UInt8
  interruption : Option (ℕ × Interruption) := none
  corruption : Option (ℕ × UInt32) := none

/-- Each page's lock as a chip reset loads it. -/
def locksAt (rows : Rows) (page : ℕ) : UInt8 := bootloaderLock (rows (lock1Row page))

/-- An OTP just reset, whose writes all go right. -/
def MemoryOtp.reset (rows : Rows) : MemoryOtp := ⟨locksAt rows, none, none⟩

def page (row : ℕ) : ℕ := row / OTP_PAGE_ROWS

/-- The page whose lock refuses writes to `row`: a lock word takes the lock of the page it locks. -/
def lockPage (row : ℕ) : ℕ := if LOCK_WORDS_ROW ≤ row then (row - LOCK_WORDS_ROW) / 2 else page row

/-- Whether storing `target` over `stored` keeps every set bit. -/
def keeps (stored target : UInt32) : Bool := stored &&& ~~~target == 0

/-- A row number in hexadecimal, of three digits at least. -/
def hexRow (row : ℕ) : String :=
  let digits := Nat.toDigits 16 row
  "0x" ++ String.ofList (List.replicate (3 - digits.length) '0' ++ digits)

/-- The rows from `row` that an access names. Refuses rows past the end of OTP. -/
def range (row count : ℕ) : Except OtpError Unit :=
  if row + count ≤ ROWS then .ok ()
  else .error (.transport
    ("" ++ toString count ++ " rows from row " ++ hexRow row ++ " run past the end of OTP"))

/-- The error an interrupted write `n` returns. -/
def interrupted (n : ℕ) : OtpError := .transport ("write " ++ toString n ++ " was interrupted")

section Access

variable [PicoOtp] (otp : MemoryOtp)

/-- The value an ECC read returns for a row with raw value `raw`. -/
def eccRead (raw : UInt32) : UInt16 :=
  let row := (if raw &&& INVERTED = INVERTED then ~~~raw else raw) &&& CODEWORD_BITS
  -- an exact codeword and then a codeword with a single wrong bit
  match ((0 :: (List.range 22).map fun bit => (1 : UInt32) <<< UInt32.ofNat bit).map
      (row ^^^ ·)).find? fun candidate => eccEncode candidate.toUInt16 == candidate with
  | some codeword => codeword.toUInt16
  | none => row.toUInt16

namespace MemoryOtp

omit [PicoOtp] in
/-- Refuses rows that can't be read. -/
def readable (row count : ℕ) : Except OtpError Unit := do
  range row count
  if (List.range' row count).any fun r =>
    decide (r < LOCK_WORDS_ROW) && decide (INACCESSIBLE ≤ otp.locks (page r)) then
    throw .notPermitted

/-- A row's new raw value from its current one. -/
def newValue (stored : UInt32) : RowValue → Except OtpError UInt32
  | .ecc value =>
    let encoding := eccEncode value
    match [encoding, ~~~encoding &&& ROW_BITS].find? (keeps stored) with
    | some target => .ok target
    | none => .error .unsupportedModification
  | .raw value =>
    if keeps stored (value &&& ROW_BITS) then .ok (value &&& ROW_BITS)
    else .error .unsupportedModification

/-- The value access `n` stores in `row`. Refuses a locked row. -/
def store (n row : ℕ) (value : RowValue) (stored : UInt32) : Except OtpError UInt32 := do
  range row 1
  if LOCK_BL_READ_ONLY ≤ otp.locks (lockPage row) then throw .notPermitted
  let raw ← newValue stored value
  match otp.corruption with
  | some (at_, mask) => return (if at_ = n then raw ^^^ mask else raw) &&& ROW_BITS
  | none => return raw &&& ROW_BITS

/-- The row a store leaves, and its error. -/
def stored (raw : UInt32) : Except OtpError UInt32 → UInt32 × Option OtpError
  | .ok new => (new, none)
  | .error e => (raw, some e)

/-- Makes write `n`, where it isn't interrupted before it lands. -/
def write (n row : ℕ) (value : RowValue) (raw : UInt32) : UInt32 × Option OtpError :=
  match otp.interruption.filter (·.1 == n) with
  | some (_, .notLanded) => (raw, some (interrupted n))
  | some (_, .landed) => ((stored raw (otp.store n row value raw)).1, some (interrupted n))
  | none => stored raw (otp.store n row value raw)

/-- The OTP as a host reaches it. -/
def host : Host where
  readFails _ row count :=
    match otp.readable row count with
    | .ok () => none
    | .error e => some e
  eccRead := eccRead
  write := otp.write

end MemoryOtp

end Access

/-! ### ECC reads -/

section Reads

lemma getLsbD_high {e : UInt32} (h : e.toNat < 2 ^ 22) {i : ℕ} (hi : 22 ≤ i) :
    e.toBitVec.getLsbD i = false := by
  have hlt : e.toBitVec.toNat < 2 ^ i := h.trans_le (Nat.pow_le_pow_right (by decide) hi)
  exact Nat.testBit_lt_two_pow hlt

lemma plain_bits {e : UInt32} (h : e.toNat < 2 ^ 22) :
    e &&& INVERTED ≠ INVERTED ∧ e &&& CODEWORD_BITS = e := by
  have h22 : e.toBitVec[22] = false := getLsbD_high h le_rfl
  constructor
  · intro heq
    have hbit := congrArg (fun x : UInt32 => x.toBitVec.getLsbD 22) heq
    simp [INVERTED] at hbit
    rw [h22] at hbit
    cases hbit
  · apply UInt32.toBitVec_inj.mp
    ext i hi
    rcases Nat.lt_or_ge i 22 with hlt | hge
    · interval_cases i <;> simp [CODEWORD_BITS]
    · have hbit : e.toBitVec[i] = false := getLsbD_high h hge
      simp [hbit]

lemma inverted_bits {e : UInt32} (h : e.toNat < 2 ^ 22) :
    (~~~e &&& ROW_BITS) &&& INVERTED = INVERTED ∧
      ~~~(~~~e &&& ROW_BITS) &&& CODEWORD_BITS = e := by
  constructor
  · apply UInt32.toBitVec_inj.mp
    ext i hi
    rcases Nat.lt_or_ge i 22 with hlt | hge
    · interval_cases i <;> simp [INVERTED]
    · have hbit : e.toBitVec[i] = false := getLsbD_high h hge
      interval_cases i <;> simp [hbit, INVERTED, ROW_BITS]
  · apply UInt32.toBitVec_inj.mp
    ext i hi
    rcases Nat.lt_or_ge i 22 with hlt | hge
    · interval_cases i <;> simp [CODEWORD_BITS, ROW_BITS]
    · have hbit : e.toBitVec[i] = false := getLsbD_high h hge
      interval_cases i <;> simp [hbit, CODEWORD_BITS]

variable [PicoOtp]

/-- **Exact codewords**: an ECC read of a row that holds a value, in either form, gives the value. -/
theorem eccRead_of_holds {raw : UInt32} {value : UInt16} (hlt : (eccEncode value).toNat < 2 ^ 22)
    (hlow : (eccEncode value).toUInt16 = value) (h : holds raw value = true) :
    eccRead raw = value := by
  have hrow : (if raw &&& INVERTED = INVERTED then ~~~raw else raw) &&& CODEWORD_BITS =
      eccEncode value := by
    simp only [holds, Bool.or_eq_true, beq_iff_eq] at h
    rcases h with rfl | rfl
    · rw [if_neg (plain_bits hlt).1, (plain_bits hlt).2]
    · rw [if_pos (inverted_bits hlt).1, (inverted_bits hlt).2]
  unfold eccRead
  simp only [hrow, List.map_cons, UInt32.xor_zero, List.find?_cons, hlow, beq_self_eq_true]

end Reads

/-! ### The RP2350's code -/

/-- The parity of the bits of `value` under `mask`. -/
def parity (value mask : ℕ) : ℕ :=
  ((List.range 16).countP fun i => (value &&& mask).testBit i) % 2

/-- A value's six parity bits: five over parts of the value and one over all of them. -/
def hammingParity (value : UInt16) : ℕ :=
  let x := value.toNat
  let p0 := parity x 0b1010110101011011
  let p1 := parity x 0b0011011001101101
  let p2 := parity x 0b1100011110001110
  let p3 := parity x 0b0000011111110000
  let p4 := parity x 0b1111100000000000
  let p5 := (parity x 0xffff + p0 + p1 + p2 + p3 + p4) % 2
  p0 + 2 * p1 + 4 * p2 + 8 * p3 + 16 * p4 + 32 * p5

def hammingEncode (value : UInt16) : UInt32 :=
  UInt32.ofNat (value.toNat + 2 ^ 16 * hammingParity value)

example : hammingEncode 0x0001 = 0x230001 ∧ hammingEncode 0x8000 = 0x158000 ∧
    hammingEncode 0xabcd = 0x11abcd := by decide

lemma hammingParity_lt (value : UInt16) : hammingParity value < 64 := by
  have hbit : ∀ mask, parity value.toNat mask < 2 := fun mask => Nat.mod_lt _ (by decide)
  have h0 := hbit 0b1010110101011011
  have h1 := hbit 0b0011011001101101
  have h2 := hbit 0b1100011110001110
  have h3 := hbit 0b0000011111110000
  have h4 := hbit 0b1111100000000000
  simp only [hammingParity]
  omega

lemma hammingEncode_toNat (value : UInt16) :
    (hammingEncode value).toNat = value.toNat + 2 ^ 16 * hammingParity value := by
  have hparity := hammingParity_lt value
  have hlt := value.toNat_lt
  rw [hammingEncode, UInt32.toNat_ofNat', Nat.mod_eq_of_lt (by omega)]

/-- A raw value with at most one bit set is 0 or a power of two. -/
lemma unwritten_cases {raw : UInt32} (h : isUnwritten raw = true) :
    raw = 0 ∨ ∃ k < 32, raw = UInt32.ofNat (2 ^ k) := by
  have hcount : ((List.range 32).filter fun i => raw.toNat.testBit i).length ≤ 1 := by
    have hd : decide (countOnes raw ≤ 1) = true := h
    rw [← List.countP_eq_length_filter]
    exact of_decide_eq_true hd
  have hone : ∀ i < 32, ∀ j < 32, raw.toNat.testBit i = true → raw.toNat.testBit j = true →
      i = j := by
    intro i hi j hj hbi hbj
    by_contra hne
    have hsub : [i, j] ⊆ (List.range 32).filter fun i => raw.toNat.testBit i := by
      simp [hi, hj, hbi, hbj]
    have := (List.subperm_of_subset (by simp [hne]) hsub).length_le
    simp only [List.length_cons, List.length_nil] at this
    omega
  have hhigh : ∀ i, 32 ≤ i → raw.toNat.testBit i = false := fun i hi =>
    Nat.testBit_lt_two_pow (raw.toNat_lt.trans_le (Nat.pow_le_pow_right (by decide) hi))
  by_cases hzero : ∃ k < 32, raw.toNat.testBit k = true
  · obtain ⟨k, hk, hbit⟩ := hzero
    refine .inr ⟨k, hk, UInt32.toNat_inj.mp ?_⟩
    have hlt : 2 ^ k < 2 ^ 32 := Nat.pow_lt_pow_right (by decide) hk
    rw [UInt32.toNat_ofNat', Nat.mod_eq_of_lt hlt]
    refine Nat.eq_of_testBit_eq fun i => ?_
    rw [Nat.testBit_two_pow]
    by_cases hik : k = i
    · subst hik
      simpa using hbit
    · rcases Nat.lt_or_ge i 32 with hi | hi
      · have : raw.toNat.testBit i ≠ true := fun hbi => hik (hone k hk i hi hbit hbi)
        simpa [hik] using this
      · simp [hhigh i hi, hik]
  · refine .inl (UInt32.toNat_inj.mp (Nat.eq_of_testBit_eq fun i => ?_))
    rcases Nat.lt_or_ge i 32 with hi | hi
    · have : raw.toNat.testBit i ≠ true := fun hbi => hzero ⟨i, hi, hbi⟩
      simpa using this
    · simp [hhigh i hi]

/-- The white label of `fire-24-f`. -/
def FIRE_24_F_ROWS : List UInt16 :=
  [0x1209, 0xf540, 0x0000, 0x0000, 0x100b, 0x1612, 0x0000, 0x0000, 0x1f06, 0x0000, 0x0000, 0x0000,
    0x2212, 0x2b0a, 0x3007, 0x3409, 0x6970, 0x7265, 0x2e73, 0x6f72, 0x6b63, 0x0073, 0x6e4f, 0x2065,
    0x4f52, 0x204d, 0x6f42, 0x746f, 0x6f6c, 0x6461, 0x7265, 0x4e4f, 0x5245, 0x4d4f, 0x7468, 0x7074,
    0x3a73, 0x2f2f, 0x6e6f, 0x7265, 0x6d6f, 0x6f2e, 0x6772, 0x6e6f, 0x7265, 0x6d6f, 0x6f2e, 0x6772,
    0x6e4f, 0x2065, 0x4f52, 0x004d, 0x6966, 0x6572, 0x322d, 0x2d34, 0x0066]

/-- The RP2350's code, and one board's white label. -/
abbrev fire24FOtp : PicoOtp := ⟨hammingEncode, fun _ => ⟨FIRE_24_F_ROWS, 0x40f133, by decide, by decide⟩⟩

/-- **Unwritten rows**: an ECC read of a row with at most one bit set gives 0. -/
theorem eccRead_of_unwritten {raw : UInt32} (h : isUnwritten raw = true) :
    @eccRead fire24FOtp raw = 0 := by
  have hall : ∀ k < 32, @eccRead fire24FOtp (UInt32.ofNat (2 ^ k)) = 0 := by decide +kernel
  rcases unwritten_cases h with rfl | ⟨k, hk, rfl⟩
  · decide +kernel
  · exact hall k hk

/-- An ECC read gives the value that a row holds. -/
theorem eccRead_of_held {raw : UInt32} {value : UInt16} (h : @holds fire24FOtp raw value = true) :
    @eccRead fire24FOtp raw = value := by
  let _ := fire24FOtp
  have hnat : (eccEncode value).toNat = value.toNat + 2 ^ 16 * hammingParity value :=
    hammingEncode_toNat value
  have hparity := hammingParity_lt value
  have hlt := value.toNat_lt
  refine eccRead_of_holds ?_ ?_ h
  · rw [hnat]
    omega
  · apply UInt16.toNat_inj.mp
    rw [UInt32.toNat_toUInt16, hnat]
    omega

end OneRom.OtpMemory
