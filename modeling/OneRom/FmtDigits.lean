import OneRom.Printf

/-!
The digits of a number, without a 64-bit division.

`fmtDigits_eq` says that they are the number's digits, the least significant first.
-/

namespace OneRom.FmtDigits

open OneRom.Printf

/-! ### The digits as the code finds them -/

/-- A quotient by ten and the remainder, from shifts by constants. -/
def fmtDiv10 (n : UInt64) : UInt64 × UInt64 :=
  let q := (n >>> 1) + (n >>> 2)
  let q := q + (q >>> 4)
  let q := q + (q >>> 8)
  let q := q + (q >>> 16)
  let q := q + (q >>> 32)
  let q := q >>> 3
  let r := n - (((q <<< 2) + q) <<< 1)
  if r > 9 then (q + 1, r - 10) else (q, r)

/-- The digit characters. -/
def map (upper : Bool) (d : ℕ) : UInt8 :=
  (bytes (if upper then "0123456789ABCDEF" else "0123456789abcdef")).getD d 0

/-- How many digits there is space for. -/
def DIGITS : ℕ := 64

/-- The digits of a value down to its 32-bit part, and that part. -/
def wideDigits (upper : Bool) : ℕ → UInt64 → List UInt8 × UInt64
  | 0, value => ([], value)
  | space + 1, value =>
    if value > 0xFFFFFFFF then
      let (q, rem) := fmtDiv10 value
      let (digits, value) := wideDigits upper space q
      (map upper rem.toNat :: digits, value)
    else ([], value)

def narrowDigits (upper : Bool) : ℕ → UInt32 → List UInt8
  | 0, _ => []
  | space + 1, v32 =>
    if v32 = 0 then [] else map upper (v32 % 10).toNat :: narrowDigits upper space (v32 / 10)

/-- How far a value is shifted for a digit. -/
def shift (base : UInt64) : UInt64 := if base = 2 then 1 else if base = 8 then 3 else 4

def powerDigits (base : UInt64) (upper : Bool) : ℕ → UInt64 → List UInt8
  | 0, _ => []
  | space + 1, value =>
    if value = 0 then []
    else map upper (value &&& (base - 1)).toNat ::
      powerDigits base upper space (value >>> shift base)

/-- The digits of a value, the least significant first. -/
def fmtDigits (value base : UInt64) (upper : Bool) : List UInt8 :=
  if value = 0 then [byte '0']
  else if base = 10 then
    let (digits, value) := wideDigits upper DIGITS value
    digits ++ narrowDigits upper (DIGITS - digits.length) value.toUInt32
  else powerDigits base upper DIGITS value

/-! ### The division -/

/-- The shifts add up to eight tenths, less what they cut off. -/
lemma shifts_bound {n q₀ q₁ q₂ q₃ q₄ : ℕ} (hn : n < 2 ^ 64) (h₀ : q₀ = n / 2 + n / 4)
    (h₁ : q₁ = q₀ + q₀ / 2 ^ 4) (h₂ : q₂ = q₁ + q₁ / 2 ^ 8) (h₃ : q₃ = q₂ + q₂ / 2 ^ 16)
    (h₄ : q₄ = q₃ + q₃ / 2 ^ 32) : q₄ ≤ n ∧ 10 * (q₄ / 8) ≤ n ∧ n < 10 * (q₄ / 8) + 20 := by
  have hlow₀ : 3 * n ≤ 4 * q₀ + 5 := by omega
  have hup₀ : 4 * q₀ ≤ 3 * n := by omega
  have hlow₁ : 17 * q₀ ≤ 16 * q₁ + 15 := by omega
  have hup₁ : 16 * q₁ ≤ 17 * q₀ := by omega
  have hlow₂ : 257 * q₁ ≤ 256 * q₂ + 255 := by omega
  have hup₂ : 256 * q₂ ≤ 257 * q₁ := by omega
  have hlow₃ : 65537 * q₂ ≤ 65536 * q₃ + 65535 := by omega
  have hup₃ : 65536 * q₃ ≤ 65537 * q₂ := by omega
  have hlow₄ : 4294967297 * q₃ ≤ 4294967296 * q₄ + 4294967295 := by omega
  have hup₄ : 4294967296 * q₄ ≤ 4294967297 * q₃ := by omega
  clear h₀ h₁ h₂ h₃ h₄
  omega

/-- The eight tenths, as the code adds them up. -/
def shifts (n : UInt64) : UInt64 :=
  let q := (n >>> 1) + (n >>> 2)
  let q := q + (q >>> 4)
  let q := q + (q >>> 8)
  let q := q + (q >>> 16)
  q + (q >>> 32)

lemma fmtDiv10_eq (n : UInt64) : fmtDiv10 n =
    if n - (((shifts n >>> 3 <<< 2) + (shifts n >>> 3)) <<< 1) > 9 then
      (shifts n >>> 3 + 1, n - (((shifts n >>> 3 <<< 2) + (shifts n >>> 3)) <<< 1) - 10)
    else (shifts n >>> 3, n - (((shifts n >>> 3 <<< 2) + (shifts n >>> 3)) <<< 1)) := rfl

lemma toNat_add_of_lt {a b : UInt64} (h : a.toNat + b.toNat < 2 ^ 64) :
    (a + b).toNat = a.toNat + b.toNat := by
  rw [UInt64.toNat_add, Nat.mod_eq_of_lt h]

lemma toNat_shiftRight (q : UInt64) {k : UInt64} (hk : k.toNat < 64) :
    (q >>> k).toNat = q.toNat / 2 ^ k.toNat := by
  rw [UInt64.toNat_shiftRight, Nat.mod_eq_of_lt hk, Nat.shiftRight_eq_div_pow]

lemma toNat_add_shiftRight {q k : UInt64} (hk : k.toNat < 64)
    (h : q.toNat + q.toNat / 2 ^ k.toNat < 2 ^ 64) :
    (q + (q >>> k)).toNat = q.toNat + q.toNat / 2 ^ k.toNat := by
  rw [toNat_add_of_lt (by rwa [toNat_shiftRight q hk]), toNat_shiftRight q hk]

/-- No sum overflows, and the quotient is at most one too small. -/
lemma shifts_toNat (n : UInt64) : (shifts n >>> 3).toNat * 10 ≤ n.toNat ∧
    n.toNat < (shifts n >>> 3).toNat * 10 + 20 := by
  have hn := n.toNat_lt
  have hhalf : (n >>> 1).toNat = n.toNat / 2 := toNat_shiftRight n (by decide)
  have hquarter : (n >>> 2).toNat = n.toNat / 4 := toNat_shiftRight n (by decide)
  rw [shifts, toNat_shiftRight _ (by decide)]
  have h₀ : ((n >>> 1) + (n >>> 2)).toNat = n.toNat / 2 + n.toNat / 4 := by
    rw [toNat_add_of_lt (by omega), hhalf, hquarter]
  generalize (n >>> 1) + (n >>> 2) = q₀ at h₀ ⊢
  have h₁ : (q₀ + (q₀ >>> 4)).toNat = q₀.toNat + q₀.toNat / 2 ^ 4 :=
    toNat_add_shiftRight (by decide) (show q₀.toNat + q₀.toNat / 2 ^ 4 < 2 ^ 64 by omega)
  generalize q₀ + (q₀ >>> 4) = q₁ at h₁ ⊢
  have h₂ : (q₁ + (q₁ >>> 8)).toNat = q₁.toNat + q₁.toNat / 2 ^ 8 :=
    toNat_add_shiftRight (by decide) (show q₁.toNat + q₁.toNat / 2 ^ 8 < 2 ^ 64 by omega)
  generalize q₁ + (q₁ >>> 8) = q₂ at h₂ ⊢
  have h₃ : (q₂ + (q₂ >>> 16)).toNat = q₂.toNat + q₂.toNat / 2 ^ 16 :=
    toNat_add_shiftRight (by decide) (show q₂.toNat + q₂.toNat / 2 ^ 16 < 2 ^ 64 by omega)
  generalize q₂ + (q₂ >>> 16) = q₃ at h₃ ⊢
  have h₄ : (q₃ + (q₃ >>> 32)).toNat = q₃.toNat + q₃.toNat / 2 ^ 32 :=
    toNat_add_shiftRight (by decide) (show q₃.toNat + q₃.toNat / 2 ^ 32 < 2 ^ 64 by omega)
  obtain ⟨-, hle, hlt⟩ := shifts_bound hn h₀ h₁ h₂ h₃ h₄
  exact ⟨(mul_comm _ _).trans_le hle, hlt.trans_eq (by rw [mul_comm]; rfl)⟩

lemma toNat_four_mul {q : UInt64} (h : q.toNat * 4 < 2 ^ 64) : (q <<< 2).toNat = q.toNat * 4 := by
  simp [UInt64.toNat_shiftLeft, Nat.shiftLeft_eq]
  omega

lemma toNat_ten_mul {q : UInt64} (h : q.toNat * 10 < 2 ^ 64) :
    (((q <<< 2) + q) <<< 1).toNat = q.toNat * 10 := by
  have hfour : (q <<< 2).toNat = q.toNat * 4 := toNat_four_mul (by omega)
  have hfive : ((q <<< 2) + q).toNat = q.toNat * 5 := by
    rw [toNat_add_of_lt (by omega)]
    omega
  have htwo : (((q <<< 2) + q) <<< 1).toNat = ((q <<< 2) + q).toNat * 2 % 2 ^ 64 := by
    simp [UInt64.toNat_shiftLeft, Nat.shiftLeft_eq]
  rw [htwo, hfive]
  omega

/-- **The division by ten is exact.** -/
theorem fmtDiv10_toNat (n : UInt64) :
    (fmtDiv10 n).1.toNat = n.toNat / 10 ∧ (fmtDiv10 n).2.toNat = n.toNat % 10 := by
  have hn := n.toNat_lt
  obtain ⟨hle, hlt⟩ := shifts_toNat n
  rw [fmtDiv10_eq]
  generalize shifts n >>> 3 = q at hle hlt ⊢
  have hten := toNat_ten_mul (q := q) (by omega)
  have hrem : (n - (((q <<< 2) + q) <<< 1)).toNat = n.toNat - q.toNat * 10 := by
    rw [UInt64.toNat_sub_of_le _ _ (UInt64.le_iff_toNat_le.mpr (by omega)), hten]
  generalize n - (((q <<< 2) + q) <<< 1) = r at hrem
  -- the remainder is below twenty, so the quotient is at most one too small
  split_ifs with hr
  · rw [gt_iff_lt, UInt64.lt_iff_toNat_lt] at hr
    have hr' : 9 < r.toNat := hr
    have hsub : (r - 10).toNat = r.toNat - 10 := UInt64.toNat_sub_of_le _ _
      (UInt64.le_iff_toNat_le.mpr (show 10 ≤ r.toNat by omega))
    have hsucc : (q + 1).toNat = q.toNat + 1 := by
      rw [toNat_add_of_lt (by change q.toNat + 1 < _; omega)]
      rfl
    dsimp only
    omega
  · rw [gt_iff_lt, UInt64.lt_iff_toNat_lt, not_lt] at hr
    have hr' : r.toNat ≤ 9 := hr
    dsimp only
    omega

/-! ### The digits -/

section Digits

variable {upper : Bool}

lemma map_eq {d : ℕ} (h : d < 16) : map upper d = digit upper d := by
  have hall : ∀ d < 16, ∀ upper, map upper d = digit upper d := by decide +kernel
  exact hall d h upper

lemma digits_of_pos {base n : ℕ} (hbase : 1 < base) (hn : 0 < n) :
    (Nat.digits base n).map (digit upper) =
      digit upper (n % base) :: (Nat.digits base (n / base)).map (digit upper) := by
  rw [Nat.digits_def' hbase hn, List.map_cons]

/-- The digits down to the 32-bit part are the first ones, and `k` of them are enough. -/
lemma wideDigits_eq (upper : Bool) (k space : ℕ) (value : UInt64)
    (hk : value.toNat < 2 ^ 32 * 10 ^ k) (hspace : k ≤ space) :
    (wideDigits upper space value).1.length ≤ k ∧
      (wideDigits upper space value).2.toNat < 2 ^ 32 ∧
      (wideDigits upper space value).1 ++
          (Nat.digits 10 (wideDigits upper space value).2.toNat).map (digit upper) =
        (Nat.digits 10 value.toNat).map (digit upper) := by
  induction space generalizing k value with
  | zero =>
    obtain rfl := Nat.le_zero.mp hspace
    rw [pow_zero, mul_one] at hk
    exact ⟨le_rfl, hk, rfl⟩
  | succ space ih =>
    rw [wideDigits]
    split_ifs with hwide
    · rw [gt_iff_lt, UInt64.lt_iff_toNat_lt] at hwide
      have hwide' : 2 ^ 32 ≤ value.toNat := hwide
      obtain ⟨hquot, hrem⟩ := fmtDiv10_toNat value
      obtain ⟨k, rfl⟩ : ∃ j, k = j + 1 := Nat.exists_eq_succ_of_ne_zero fun hzero => by
        rw [hzero] at hk
        omega
      obtain ⟨hlen, hlt, heq⟩ := ih k (fmtDiv10 value).1
        (by rw [hquot, pow_succ] at *; omega) (by omega)
      refine ⟨Nat.succ_le_succ hlen, hlt, ?_⟩
      dsimp only
      rw [List.cons_append, heq, digits_of_pos (by decide) (by omega : 0 < value.toNat), hquot,
        hrem, map_eq (by omega)]
    · rw [gt_iff_lt, UInt64.lt_iff_toNat_lt, not_lt] at hwide
      have hwide' : value.toNat ≤ 0xFFFFFFFF := hwide
      exact ⟨Nat.zero_le _, by dsimp only; omega, rfl⟩

lemma narrowDigits_eq {space : ℕ} {v32 : UInt32} (h : v32.toNat < 10 ^ space) :
    narrowDigits upper space v32 = (Nat.digits 10 v32.toNat).map (digit upper) := by
  induction space generalizing v32 with
  | zero =>
    have hzero : v32.toNat = 0 := by simpa using h
    rw [hzero, Nat.digits_zero]
    rfl
  | succ space ih =>
    rw [narrowDigits]
    have hmod : (v32 % 10).toNat = v32.toNat % 10 := UInt32.toNat_mod v32 10
    have hdiv : (v32 / 10).toNat = v32.toNat / 10 := UInt32.toNat_div v32 10
    split_ifs with hzero
    · rw [hzero]
      simp
    · have hpos : 0 < v32.toNat := Nat.pos_of_ne_zero fun h => hzero (UInt32.toNat_inj.mp h)
      rw [ih (by rw [hdiv, pow_succ] at *; omega), digits_of_pos (by decide) hpos, hmod, hdiv,
        map_eq (by omega)]

/-- A digit in a base that is a power of two is some bits. -/
lemma power_toNat {base : UInt64} (hbase : base = 2 ∨ base = 8 ∨ base = 16) (value : UInt64) :
    (value &&& (base - 1)).toNat = value.toNat % base.toNat ∧
      (value >>> shift base).toNat = value.toNat / base.toNat := by
  have hmask : ∀ k, value.toNat &&& (2 ^ k - 1) = value.toNat % 2 ^ k :=
    fun k => Nat.and_two_pow_sub_one_eq_mod _ k
  rcases hbase with rfl | rfl | rfl
  · exact ⟨hmask 1, by simp [shift, UInt64.toNat_shiftRight, Nat.shiftRight_eq_div_pow]⟩
  · exact ⟨hmask 3, by simp [shift, UInt64.toNat_shiftRight, Nat.shiftRight_eq_div_pow]⟩
  · exact ⟨hmask 4, by simp [shift, UInt64.toNat_shiftRight, Nat.shiftRight_eq_div_pow]⟩

lemma powerDigits_eq {base : UInt64} (hbase : base = 2 ∨ base = 8 ∨ base = 16) {space : ℕ}
    {value : UInt64} (h : value.toNat < base.toNat ^ space) :
    powerDigits base upper space value = (Nat.digits base.toNat value.toNat).map (digit upper) := by
  have hrange : 1 < base.toNat ∧ base.toNat ≤ 16 := by rcases hbase with rfl | rfl | rfl <;> decide
  induction space generalizing value with
  | zero =>
    have hzero : value.toNat = 0 := by simpa using h
    rw [hzero, Nat.digits_zero]
    rfl
  | succ space ih =>
    obtain ⟨hmod, hdiv⟩ := power_toNat hbase value
    have hlt := Nat.mod_lt value.toNat (by omega : base.toNat > 0)
    rw [powerDigits]
    split_ifs with hzero
    · rw [hzero]
      simp
    · have hpos : 0 < value.toNat := Nat.pos_of_ne_zero fun h => hzero (UInt64.toNat_inj.mp h)
      have hquot : value.toNat / base.toNat < base.toNat ^ space :=
        Nat.div_lt_of_lt_mul (by rwa [pow_succ, mul_comm] at h)
      rw [ih (by rwa [hdiv]), digits_of_pos hrange.1 hpos, hmod, hdiv, map_eq (by omega)]

/-- **The digits of a value** are those of its number, and a zero's is one. -/
theorem fmtDigits_eq {base : UInt64} (hbase : base = 2 ∨ base = 8 ∨ base = 10 ∨ base = 16)
    (value : UInt64) : fmtDigits value base upper =
      if value = 0 then [byte '0']
      else (Nat.digits base.toNat value.toNat).map (digit upper) := by
  have hvalue := value.toNat_lt
  rw [fmtDigits]
  split_ifs with hzero hten
  · rfl
  · -- ten digits leave the 32-bit part, which has at most ten
    obtain ⟨hlen, hlt, heq⟩ := wideDigits_eq upper 10 DIGITS value (by omega) (by decide)
    dsimp only
    have hnarrow : (wideDigits upper DIGITS value).2.toUInt32.toNat =
        (wideDigits upper DIGITS value).2.toNat := by
      rw [UInt64.toNat_toUInt32, Nat.mod_eq_of_lt hlt]
    have hspace : (wideDigits upper DIGITS value).2.toUInt32.toNat <
        10 ^ (DIGITS - (wideDigits upper DIGITS value).1.length) := by
      rw [hnarrow]
      calc (wideDigits upper DIGITS value).2.toNat < 10 ^ 10 := by omega
        _ ≤ 10 ^ (DIGITS - (wideDigits upper DIGITS value).1.length) :=
          Nat.pow_le_pow_right (by decide) (by unfold DIGITS at *; omega)
    rw [narrowDigits_eq hspace, hnarrow, heq, hten]
    rfl
  · have hpower : base = 2 ∨ base = 8 ∨ base = 16 := by
      rcases hbase with rfl | rfl | rfl | rfl
      · exact .inl rfl
      · exact .inr (.inl rfl)
      · exact absurd rfl hten
      · exact .inr (.inr rfl)
    have hpos : 2 ≤ base.toNat := by rcases hpower with rfl | rfl | rfl <;> decide
    exact powerDigits_eq hpower (hvalue.trans_le (Nat.pow_le_pow_left hpos 64))

end Digits

/-! ### The sums of the division -/

lemma ten_sums_lt {q : UInt64} (h : q.toNat * 10 < 2 ^ 64) :
    (q <<< 2).toNat + q.toNat < 2 ^ 64 ∧
      ((q <<< 2) + q).toNat + ((q <<< 2) + q).toNat < 2 ^ 64 ∧
      q.toNat + (1 : UInt64).toNat < 2 ^ 64 := by
  have hfour : (q <<< 2).toNat = q.toNat * 4 := toNat_four_mul (by omega)
  have hfive : ((q <<< 2) + q).toNat = q.toNat * 5 := by
    rw [toNat_add_of_lt (by omega), hfour]
    omega
  have hone : (1 : UInt64).toNat = 1 := rfl
  omega

/-- What is added in each sum of `fmtDiv10`. -/
def fmtDiv10Sums (n : UInt64) : List (UInt64 × UInt64) :=
  let q₀ := (n >>> 1) + (n >>> 2)
  let q₁ := q₀ + (q₀ >>> 4)
  let q₂ := q₁ + (q₁ >>> 8)
  let q₃ := q₂ + (q₂ >>> 16)
  let q := (q₃ + (q₃ >>> 32)) >>> 3
  [(n >>> 1, n >>> 2), (q₀, q₀ >>> 4), (q₁, q₁ >>> 8), (q₂, q₂ >>> 16), (q₃, q₃ >>> 32),
    (q <<< 2, q), ((q <<< 2) + q, (q <<< 2) + q), (q, 1)]

lemma fmtDiv10Sums_lt (n : UInt64) : ∀ p ∈ fmtDiv10Sums n, p.1.toNat + p.2.toNat < 2 ^ 64 := by
  have hn := n.toNat_lt
  have hhalf : (n >>> 1).toNat = n.toNat / 2 := toNat_shiftRight n (by decide)
  have hquarter : (n >>> 2).toNat = n.toNat / 4 := toNat_shiftRight n (by decide)
  rw [fmtDiv10Sums]
  have hlt₀ : (n >>> 1).toNat + (n >>> 2).toNat < 2 ^ 64 := by omega
  have h₀ : ((n >>> 1) + (n >>> 2)).toNat = n.toNat / 2 + n.toNat / 4 := by
    rw [toNat_add_of_lt hlt₀, hhalf, hquarter]
  generalize (n >>> 1) + (n >>> 2) = q₀ at h₀ ⊢
  have hs₀ : (q₀ >>> 4).toNat = q₀.toNat / 2 ^ 4 := toNat_shiftRight q₀ (by decide)
  have hlt₁ : q₀.toNat + (q₀ >>> 4).toNat < 2 ^ 64 := by omega
  have h₁ : (q₀ + (q₀ >>> 4)).toNat = q₀.toNat + q₀.toNat / 2 ^ 4 := by
    rw [toNat_add_of_lt hlt₁, hs₀]
  generalize q₀ + (q₀ >>> 4) = q₁ at h₁ ⊢
  have hs₁ : (q₁ >>> 8).toNat = q₁.toNat / 2 ^ 8 := toNat_shiftRight q₁ (by decide)
  have hlt₂ : q₁.toNat + (q₁ >>> 8).toNat < 2 ^ 64 := by omega
  have h₂ : (q₁ + (q₁ >>> 8)).toNat = q₁.toNat + q₁.toNat / 2 ^ 8 := by
    rw [toNat_add_of_lt hlt₂, hs₁]
  generalize q₁ + (q₁ >>> 8) = q₂ at h₂ ⊢
  have hs₂ : (q₂ >>> 16).toNat = q₂.toNat / 2 ^ 16 := toNat_shiftRight q₂ (by decide)
  have hlt₃ : q₂.toNat + (q₂ >>> 16).toNat < 2 ^ 64 := by omega
  have h₃ : (q₂ + (q₂ >>> 16)).toNat = q₂.toNat + q₂.toNat / 2 ^ 16 := by
    rw [toNat_add_of_lt hlt₃, hs₂]
  generalize q₂ + (q₂ >>> 16) = q₃ at h₃ ⊢
  have hs₃ : (q₃ >>> 32).toNat = q₃.toNat / 2 ^ 32 := toNat_shiftRight q₃ (by decide)
  have hlt₄ : q₃.toNat + (q₃ >>> 32).toNat < 2 ^ 64 := by omega
  have h₄ : (q₃ + (q₃ >>> 32)).toNat = q₃.toNat + q₃.toNat / 2 ^ 32 := by
    rw [toNat_add_of_lt hlt₄, hs₃]
  obtain ⟨-, hten, -⟩ := shifts_bound hn h₀ h₁ h₂ h₃ h₄
  have hq : ((q₃ + (q₃ >>> 32)) >>> 3).toNat * 10 < 2 ^ 64 := by
    rw [toNat_shiftRight _ (by decide), mul_comm]
    exact hten.trans_lt hn
  generalize (q₃ + (q₃ >>> 32)) >>> 3 = q at hq ⊢
  obtain ⟨hlt₅, hlt₆, hlt₇⟩ := ten_sums_lt hq
  simp only [List.forall_mem_cons, List.not_mem_nil, false_implies, implies_true, and_true]
  exact ⟨hlt₀, hlt₁, hlt₂, hlt₃, hlt₄, hlt₅, hlt₆, hlt₇⟩

/-- **The division by ten is exact** for every number, no sum of it overflows, and so the digits in
base ten are the number's. -/
theorem fmtDiv10_exact (n : UInt64) :
    ((fmtDiv10 n).1.toNat = n.toNat / 10 ∧ (fmtDiv10 n).2.toNat = n.toNat % 10) ∧
      (∀ p ∈ fmtDiv10Sums n, p.1.toNat + p.2.toNat < 2 ^ 64) ∧
      ∀ upper, fmtDigits n 10 upper =
        if n = 0 then [byte '0'] else (Nat.digits 10 n.toNat).map (digit upper) :=
  ⟨fmtDiv10_toNat n, fmtDiv10Sums_lt n, fun _ => fmtDigits_eq (by decide) n⟩

end OneRom.FmtDigits
