import Mathlib

/-!
The time since the timer started.

The timer's count is read in halves while it goes on, and its milliseconds are worked out in pieces
of 32 bits. `uptime_exact` says that both come to what they should.
-/

namespace OneRom.Uptime

/-! ### Milliseconds -/

/-- What the milliseconds are the sum of. -/
structure Pieces where
  high : UInt32
  low : UInt32
  carry : UInt32

/-- The milliseconds of a count, but for a multiple of 2 ^ 32. -/
def pieces (us : UInt64) : Pieces :=
  let hi := (us >>> 32).toUInt32
  let lo := us.toUInt32
  let r := hi % 1000
  ⟨r * 4294967, lo / 1000, (r * 296 + lo % 1000) / 1000⟩

def uptimeMs (us : UInt64) : UInt32 := (pieces us).high + (pieces us).low + (pieces us).carry

/-- None of the pieces wraps. -/
lemma toNat_pieces (us : UInt64) :
    (pieces us).high.toNat = us.toNat / 2 ^ 32 % 1000 * 4294967 ∧
      (pieces us).low.toNat = us.toNat % 2 ^ 32 / 1000 ∧
      (pieces us).carry.toNat =
        (us.toNat / 2 ^ 32 % 1000 * 296 + us.toNat % 2 ^ 32 % 1000) / 1000 := by
  have hlt := us.toNat_lt
  have hhi : us.toNat / 4294967296 % 4294967296 = us.toNat / 4294967296 :=
    Nat.mod_eq_of_lt (by omega)
  simp only [pieces, UInt32.toNat_mul, UInt32.toNat_mod, UInt32.toNat_div, UInt32.toNat_add,
    UInt64.toNat_toUInt32, UInt64.toNat_shiftRight, UInt32.toNat_ofNat, UInt64.toNat_ofNat,
    Nat.shiftRight_eq_div_pow, Nat.reducePow, Nat.reduceMod, hhi]
  refine ⟨Nat.mod_eq_of_lt ?_, trivial, ?_⟩
  · omega
  · rw [Nat.mod_eq_of_lt (by omega : us.toNat / 4294967296 % 1000 * 296 < 4294967296),
      Nat.mod_eq_of_lt (by omega)]

/-- The pieces add up: 2 ^ 32 is 296 more than 4294967 thousands. -/
lemma toNat_uptimeMs (us : UInt64) : (uptimeMs us).toNat = us.toNat / 1000 % 2 ^ 32 := by
  obtain ⟨hhigh, hlow, hcarry⟩ := toNat_pieces us
  have hlt := us.toNat_lt
  simp only [uptimeMs, UInt32.toNat_add, hhigh, hlow, hcarry]
  omega

/-! ### Reading the timer -/

/-- The high half of the timer, where its count is `us`. -/
def timerRawHi (us : ℕ) : UInt32 := UInt32.ofNat (us / 2 ^ 32)

def timerRawLo (us : ℕ) : UInt32 := UInt32.ofNat us

/-- What has been read so far, and how many reads there were. -/
structure Reading where
  hi : UInt32
  lo : UInt32
  hiAgain : UInt32
  reads : ℕ

/-- Reads the high half before and after the low one until it is the same. The counts are those at
each of the reads. -/
def timerLoop (counts : ℕ → ℕ) : ℕ → Reading → Option Reading
  | 0, _ => none
  | fuel + 1, s =>
    if s.hiAgain ≠ s.hi then
      timerLoop counts fuel
        { hi := s.hiAgain
          lo := timerRawLo (counts s.reads)
          hiAgain := timerRawHi (counts (s.reads + 1))
          reads := s.reads + 2 }
    else some s

def oneromTimer (counts : ℕ → ℕ) (fuel : ℕ) : Option Reading :=
  timerLoop counts fuel
    { hi := timerRawHi (counts 0)
      lo := timerRawLo (counts 1)
      hiAgain := timerRawHi (counts 2)
      reads := 3 }

/-- The count that is put together. -/
def Reading.us64 (s : Reading) : UInt64 := s.hi.toUInt64 <<< 32 ||| s.lo.toUInt64

/-- The count at the last read of the low half. -/
def Reading.lastLow (s : Reading) (counts : ℕ → ℕ) : ℕ := counts (s.reads - 2)

/-- The timer goes on, by less than 2 ^ 64 while it is read, and by no more than 2 ^ 64 - 2 ^ 32
where it starts again from 0. -/
structure GoesOn (counts : ℕ → ℕ) : Prop where
  mono : Monotone counts
  total : ∀ n, counts n < counts 0 + 2 ^ 64
  wraps : ∀ n, counts n / 2 ^ 64 = counts 0 / 2 ^ 64 ∨ counts n ≤ counts 0 + (2 ^ 64 - 2 ^ 32)

/-- The reads are of the counts at their time. -/
structure ReadAt (counts : ℕ → ℕ) (s : Reading) : Prop where
  reads : 3 ≤ s.reads
  hi : s.hi = timerRawHi (counts (s.reads - 3))
  lo : s.lo = timerRawLo (counts (s.reads - 2))
  hiAgain : s.hiAgain = timerRawHi (counts (s.reads - 1))

variable {counts : ℕ → ℕ}

/-- The loop ends: each time round the count has gone on, and it doesn't go on for ever. -/
lemma timerLoop_ends (hmono : Monotone counts) (htotal : ∀ n, counts n < counts 0 + 2 ^ 64)
    (fuel : ℕ) (s : Reading) (h : ReadAt counts s)
    (hfuel : counts 0 + 2 ^ 64 - counts (s.reads - 3) ≤ fuel) :
    ∃ s', timerLoop counts fuel s = some s' ∧ ReadAt counts s' ∧ s'.hiAgain = s'.hi := by
  induction fuel generalizing s with
  | zero =>
    have := htotal (s.reads - 3)
    omega
  | succ fuel ih =>
    have hreads := h.reads
    rw [timerLoop]
    split_ifs with hsame
    · refine ih _ ⟨?_, ?_, ?_, ?_⟩ ?_
      · dsimp only
        omega
      · rw [h.hiAgain]
        dsimp only
        congr 2
      · dsimp only
        congr 2
      · dsimp only
        congr 2
      · -- the high half has changed, and so has the count
        have hne : counts (s.reads - 3) ≠ counts (s.reads - 1) := fun heq =>
          hsame (by rw [h.hiAgain, h.hi, heq])
        have hle := hmono (show s.reads - 3 ≤ s.reads - 1 by omega)
        dsimp only
        rw [show s.reads + 2 - 3 = s.reads - 1 by omega]
        omega
    · exact ⟨s, rfl, h, not_not.mp hsame⟩

lemma toNat_us64 (s : Reading) : s.us64.toNat = s.hi.toNat * 2 ^ 32 + s.lo.toNat := by
  have hhi := s.hi.toNat_lt
  have hlo := s.lo.toNat_lt
  have hshift : s.hi.toNat * 2 ^ 32 < 2 ^ 64 := by omega
  rw [Reading.us64, UInt64.toNat_or, UInt64.toNat_shiftLeft, UInt32.toNat_toUInt64,
    UInt32.toNat_toUInt64, show (32 : UInt64).toNat % 64 = 32 from rfl, Nat.shiftLeft_eq,
    Nat.mod_eq_of_lt hshift, ← Nat.shiftLeft_eq, Nat.shiftLeft_add_eq_or_of_lt hlo]

/-- An unchanged high half is that of the count in between. -/
lemma us64_of_same (hgoes : GoesOn counts) {s : Reading} (h : ReadAt counts s)
    (hsame : s.hiAgain = s.hi) : s.us64 = UInt64.ofNat (s.lastLow counts) := by
  have hreads := h.reads
  have hle := hgoes.mono (show s.reads - 3 ≤ s.reads - 2 by omega)
  have hle' := hgoes.mono (show s.reads - 2 ≤ s.reads - 1 by omega)
  have hstart := hgoes.mono (Nat.zero_le (s.reads - 3))
  have hwraps := hgoes.wraps (s.reads - 1)
  rw [h.hiAgain, h.hi, timerRawHi, timerRawHi, ← UInt32.toNat_inj, UInt32.toNat_ofNat',
    UInt32.toNat_ofNat'] at hsame
  refine UInt64.toNat_inj.mp ?_
  rw [toNat_us64, h.hi, h.lo, timerRawHi, timerRawLo, UInt32.toNat_ofNat', UInt32.toNat_ofNat',
    UInt64.toNat_ofNat', Reading.lastLow]
  generalize counts (s.reads - 3) = before at *
  generalize counts (s.reads - 2) = count at *
  generalize counts (s.reads - 1) = after at *
  generalize counts 0 = start at *
  -- the high halves don't differ by a whole turn of the timer
  have hhigh : before / 2 ^ 32 = after / 2 ^ 32 := by
    rcases hwraps with hnone | hturn <;> omega
  omega

/-- **Uptime is exact**: the milliseconds of a count are its thousandth, and the count is that at
which the low half was last read. -/
theorem uptime_exact :
    (∀ us : UInt64, (uptimeMs us).toNat = us.toNat / 1000 % 2 ^ 32 ∧
      us.toNat / 2 ^ 32 % 1000 * 4294967 < 2 ^ 32 ∧
      us.toNat / 2 ^ 32 % 1000 * 296 + us.toNat % 2 ^ 32 % 1000 < 2 ^ 32) ∧
    ∀ counts, GoesOn counts → ∃ fuel s, oneromTimer counts fuel = some s ∧
      s.us64 = UInt64.ofNat (s.lastLow counts) := by
  refine ⟨fun us => ⟨toNat_uptimeMs us, by omega, by omega⟩, fun counts hgoes => ?_⟩
  obtain ⟨s, hs, hread, hsame⟩ := timerLoop_ends hgoes.mono hgoes.total (2 ^ 64)
    ⟨timerRawHi (counts 0), timerRawLo (counts 1), timerRawHi (counts 2), 3⟩
    ⟨le_rfl, rfl, rfl, rfl⟩ (Nat.add_sub_cancel_left (counts 0) _).le
  exact ⟨2 ^ 64, s, hs, us64_of_same hgoes hread hsame⟩

/-- A timer that is read just before its high half first changes, half way round, and when it has
started again. -/
def roundTrip : ℕ → ℕ
  | 0 => 2 ^ 32 - 1
  | 1 => 2 ^ 63
  | _ => 2 ^ 64

/-- Its high half is the same before and after, and was another in between. -/
theorem roundTrip_torn : Monotone roundTrip ∧ (∀ n, roundTrip n < roundTrip 0 + 2 ^ 64) ∧
    ∃ s, oneromTimer roundTrip 1 = some s ∧ s.us64 = 0 ∧
      UInt64.ofNat (s.lastLow roundTrip) = 2 ^ 63 := by
  refine ⟨monotone_nat_of_le_succ fun n => ?_, fun n => ?_, _, rfl, by decide +kernel,
    by decide +kernel⟩
  · match n with
    | 0 => decide +kernel
    | 1 => decide +kernel
    | _ + 2 => exact le_rfl
  · match n with
    | 0 => decide +kernel
    | 1 => decide +kernel
    | n + 2 =>
      have h : (2 : ℕ) ^ 64 < 2 ^ 32 - 1 + 2 ^ 64 := by decide +kernel
      exact h

end OneRom.Uptime
