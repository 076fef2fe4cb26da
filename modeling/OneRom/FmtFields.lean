import OneRom.Fmt

/-!
What the formatter writes for a field, and what C prescribes for it.

`written_fmtConvert` says that they are the same, but for an octal number whose forced zero loses
the zero flag and for a wide string.
-/

namespace OneRom.FmtFields

open OneRom.Fmt OneRom.FmtDigits OneRom.Printf

/-! ### What has been written -/

/-- The bytes that the chunks come to, with those that haven't been flushed. -/
def written (f : FmtState) : List UInt8 := f.chunks.flatten ++ f.buf

@[simp] lemma written_fmtFlush (f : FmtState) : written (fmtFlush f) = written f := by
  unfold fmtFlush
  split_ifs <;> simp [written]

lemma flatten_fmtFlush (f : FmtState) : (fmtFlush f).chunks.flatten = written f := by
  unfold fmtFlush
  split_ifs with h
  · simp [written]
  · simp [written, List.length_eq_zero_iff.mp (not_not.mp h)]

/-- A byte is added wherever the chunks end. -/
@[simp] lemma written_fmtPutc (f : FmtState) (c : UInt8) :
    written (fmtPutc f c) = written f ++ [c] := by
  have hpush : ∀ (f : FmtState) h, written (f.push c h) = written f ++ [c] :=
    fun f h => by simp [written, FmtState.push]
  unfold fmtPutc
  split_ifs
  · rw [hpush, written_fmtFlush]
  · exact hpush f _

@[simp] lemma written_fmtPuts (f : FmtState) (s : List UInt8) :
    written (fmtPuts f s) = written f ++ s := by
  induction s generalizing f with
  | nil => exact (List.append_nil _).symm
  | cons c s ih =>
    change written (fmtPuts (fmtPutc f c) s) = _
    rw [ih, written_fmtPutc, List.append_assoc, List.singleton_append]

@[simp] lemma written_fmtPad (f : FmtState) (c : UInt8) (count : ℤ) :
    written (fmtPad f c count) = written f ++ List.replicate count.toNat c :=
  written_fmtPuts f _

/-! ### Fields -/

/-- A field with its padding: at its end, between its parts or before it. -/
def assembled (left fill : Prop) [Decidable left] [Decidable fill] (width : ℕ)
    (lead body : List UInt8) : List UInt8 :=
  let n := width - (lead ++ body).length
  if left then lead ++ body ++ List.replicate n (byte ' ')
  else if fill then lead ++ List.replicate n (byte '0') ++ body
  else List.replicate n (byte ' ') ++ lead ++ body

lemma padded_eq (f : Field) (lead body : List UInt8) : f.padded lead body =
    assembled (.minus ∈ f.flags) (.zero ∈ f.flags ∧ f.precision = none) f.width lead body := rfl

lemma length_assembled (left fill : Prop) [Decidable left] [Decidable fill] (width : ℕ)
    (lead body : List UInt8) :
    (assembled left fill width lead body).length = max width (lead ++ body).length := by
  unfold assembled
  dsimp only
  split_ifs <;> simp only [List.length_append, List.length_replicate] <;> omega

lemma written_fmtText (f : FmtState) (s : List UInt8) (flags : FmtFlags) (width : ℕ) :
    written (fmtText f s flags width) =
      written f ++ assembled (flags.left = true) False width [] s := by
  have hpad : ((width : ℤ) - s.length).toNat = width - s.length := by omega
  unfold fmtText assembled
  cases flags.left <;> simp [hpad]

/-- The digits of a number with its zeros. -/
def numberBody (digits : List UInt8) (precision : ℤ) : List UInt8 :=
  List.replicate (precision - digits.length).toNat (byte '0') ++ digits.reverse

lemma written_fmtNumber (f : FmtState) (value base : UInt64) (upper negative : Bool)
    (flags : FmtFlags) (width : ℕ) (precision : ℤ) :
    written (fmtNumber f value base upper negative flags width precision) = written f ++
      assembled (flags.left = true)
        (flags.zero = true ∧ raised (numberDigits value base upper precision) base flags precision < 0)
        width (leadSign negative flags ++ leadBase value base upper flags)
        (numberBody (numberDigits value base upper precision)
          (raised (numberDigits value base upper precision) base flags precision)) := by
  unfold fmtNumber
  dsimp only
  generalize numberDigits value base upper precision = digits
  generalize raised digits base flags precision = raised
  generalize leadSign negative flags ++ leadBase value base upper flags = lead
  -- the zeros of the precision, and the padding that is left
  have hzeros : (if 0 ≤ raised ∧ (digits.length : ℤ) < raised then raised - digits.length else 0) =
      (raised - digits.length).toNat := by
    split_ifs <;> omega
  rw [hzeros]
  have hbody : (numberBody digits raised).length =
      (raised - digits.length).toNat + digits.length := by simp [numberBody]
  generalize hpad : (width : ℤ) - lead.length - (raised - digits.length).toNat - digits.length = pad
  have hn : width - (lead ++ numberBody digits raised).length = pad.toNat := by
    rw [List.length_append, hbody]
    omega
  unfold assembled
  rw [hn]
  cases hleft : flags.left
  · by_cases hfill : flags.zero = true ∧ raised < 0
    · -- no precision is given, so the zeros are the padding's
      have hnone : (raised - digits.length).toNat = 0 := by omega
      by_cases hpos : 0 < pad
      · simp [hfill, hpos, hnone, numberBody]
      · have hzero : pad.toNat = 0 := by omega
        simp [hfill, hpos, hnone, hzero, numberBody]
    · simp [hfill, numberBody]
  · simp [numberBody]

/-! ### Numbers -/

section Numbers

variable {upper : Bool} {value base : UInt64} {precision : ℤ}

/-- A precision that is given. -/
def given (precision : ℤ) : Option ℕ := if precision < 0 then none else some precision.toNat

@[simp] lemma numeral_zero (base : ℕ) (upper : Bool) : numeral base upper 0 = [] := by
  simp [numeral]

lemma numeral_ne_nil (base : ℕ) (upper : Bool) {n : ℕ} (hn : n ≠ 0) :
    numeral base upper n ≠ [] := by
  simpa [numeral, Nat.digits_eq_nil_iff_eq_zero] using hn

lemma toNat_base_range (hbase : base = 2 ∨ base = 8 ∨ base = 10 ∨ base = 16) :
    1 < base.toNat ∧ base.toNat ≤ 16 := by
  rcases hbase with rfl | rfl | rfl | rfl <;> decide

/-- A number's first digit isn't a zero. -/
lemma head_numeral_ne {base n : ℕ} (hbase : 1 < base) (hle : base ≤ 16) (hn : n ≠ 0) :
    (numeral base upper n).head? ≠ some (byte '0') := by
  have hdigit : ∀ d < 16, ∀ upper, digit upper d = byte '0' → d = 0 := by decide +kernel
  have hne : Nat.digits base n ≠ [] := Nat.digits_ne_nil_iff_ne_zero.mpr hn
  rw [numeral, List.map_reverse, List.head?_reverse, List.getLast?_map,
    List.getLast?_eq_some_getLast hne, Option.map_some]
  intro h
  have hlt := Nat.digits_lt_base hbase (List.getLast_mem hne)
  exact Nat.getLast_digit_ne_zero base hn (hdigit _ (by omega) upper (Option.some.inj h))

/-- The digits that the code finds. -/
lemma numberDigits_eq (hbase : base = 2 ∨ base = 8 ∨ base = 10 ∨ base = 16) :
    numberDigits value base upper precision =
      if value = 0 then if precision = 0 then [] else [byte '0']
      else (numeral base.toNat upper value.toNat).reverse := by
  rw [numberDigits, fmtDigits_eq hbase, numeral, ← List.map_reverse, List.reverse_reverse]
  split_ifs <;> simp_all

lemma toNat_ne_zero (h : value ≠ 0) : value.toNat ≠ 0 := fun hzero => h (UInt64.toNat_inj.mp hzero)

/-- The code's digits have the zeros that a precision asks for. -/
lemma numberBody_eq (hbase : base = 2 ∨ base = 8 ∨ base = 10 ∨ base = 16) :
    numberBody (numberDigits value base upper precision) precision =
      atLeast ((given precision).getD 1) (numeral base.toNat upper value.toNat) := by
  rw [numberDigits_eq hbase, numberBody, atLeast, given]
  split_ifs with hvalue hprec hneg hneg
  · omega
  · subst hvalue hprec
    simp
  · subst hvalue
    have hnone : (precision - 1).toNat = 0 := by omega
    simp [hnone]
  · subst hvalue
    obtain ⟨n, rfl⟩ : ∃ n : ℕ, precision = n + 1 := ⟨(precision - 1).toNat, by omega⟩
    simp [← List.replicate_succ']
  · have hpos := List.length_pos_iff.mpr
      (numeral_ne_nil base.toNat upper (toNat_ne_zero hvalue))
    have hnone : 1 - (numeral base.toNat upper value.toNat).length = 0 := by omega
    have hnone' : (precision - (numeral base.toNat upper value.toNat).length).toNat = 0 := by omega
    simp [hnone, hnone']
  · rw [List.length_reverse, List.reverse_reverse, Option.getD_some]
    congr 2
    omega

lemma getLast_digits_ne {digits : List UInt8} (h : digits = (numeral 8 upper value.toNat).reverse)
    (hvalue : value ≠ 0) : digits ≠ [] ∧ digits.getLast? ≠ some (byte '0') := by
  subst h
  refine ⟨?_, ?_⟩
  · simpa using numeral_ne_nil 8 upper (toNat_ne_zero hvalue)
  · rw [List.getLast?_reverse]
    exact head_numeral_ne (by decide) (by decide) (toNat_ne_zero hvalue)

lemma raised_eight {digits : List UInt8} {flags : FmtFlags} (halt : flags.alt = true) :
    raised digits 8 flags precision =
      if digits = [] then (1 : ℤ)
      else if digits.getLast? ≠ some (byte '0') ∧ precision ≤ digits.length then
        (digits.length + 1 : ℤ)
      else precision := by
  rw [raised, if_pos ⟨halt, rfl⟩]

lemma raised_of_not {digits : List UInt8} {flags : FmtFlags}
    (h : ¬(flags.alt = true ∧ base = 8)) : raised digits base flags precision = precision :=
  if_neg h

lemma head_replicate {n : ℕ} (hn : 0 < n) (s : List UInt8) :
    (List.replicate n (byte '0') ++ s).head? = some (byte '0') := by
  obtain ⟨n, rfl⟩ : ∃ m, n = m + 1 := Nat.exists_eq_succ_of_ne_zero hn.ne'
  rfl

/-- A forced zero is one digit more than the precision asks for, or one of its zeros. -/
lemma numberBody_forced {flags : FmtFlags} (halt : flags.alt = true) :
    numberBody (numberDigits value 8 upper precision)
        (raised (numberDigits value 8 upper precision) 8 flags precision) =
      forceZero (atLeast ((given precision).getD 1) (numeral 8 upper value.toNat)) := by
  have hbase : (8 : UInt64) = 2 ∨ (8 : UInt64) = 8 ∨ (8 : UInt64) = 10 ∨ (8 : UInt64) = 16 :=
    .inr (.inl rfl)
  have hdigits : numberDigits value 8 upper precision = _ := numberDigits_eq hbase
  have hbody : numberBody (numberDigits value 8 upper precision) precision =
      atLeast ((given precision).getD 1) (numeral 8 upper value.toNat) := numberBody_eq hbase
  rw [raised_eight halt]
  by_cases hvalue : value = 0
  · rw [if_pos hvalue] at hdigits
    by_cases hprec : precision = 0
    · rw [hdigits, if_pos hprec, hprec, hvalue]
      rfl
    · -- the zero's digit is there
      rw [if_neg hprec] at hdigits
      rw [hdigits, if_neg (List.cons_ne_nil _ _), if_neg (by simp), ← hdigits, ← hbody, hdigits,
        forceZero, if_pos]
      rcases Nat.eq_zero_or_pos (precision - ([byte '0'] : List UInt8).length).toNat with hnone | hpos
      · rw [numberBody, hnone]
        rfl
      · exact head_replicate hpos _
  · rw [if_neg hvalue] at hdigits
    obtain ⟨hne, hlast⟩ := getLast_digits_ne hdigits hvalue
    rw [if_neg hne]
    by_cases hshort : precision ≤ (numberDigits value 8 upper precision).length
    · rw [if_pos ⟨hlast, hshort⟩, ← hbody, numberBody, numberBody, forceZero]
      have hnone : (precision - (numberDigits value 8 upper precision).length).toNat = 0 := by omega
      have hone : ((numberDigits value 8 upper precision).length + 1 -
          (numberDigits value 8 upper precision).length : ℤ).toNat = 1 := by omega
      rw [hnone, hone, List.replicate_zero, List.nil_append, if_neg]
      · rfl
      · rwa [List.head?_reverse]
    · rw [if_neg fun h => hshort h.2, ← hbody, forceZero, if_pos]
      exact head_replicate (by omega) _

/-- No precision is left where none is given, but for a forced zero. -/
lemma raised_neg_iff {flags : FmtFlags} (hbase : base = 2 ∨ base = 8 ∨ base = 10 ∨ base = 16) :
    raised (numberDigits value base upper precision) base flags precision < 0 ↔
      precision < 0 ∧ ¬(flags.alt = true ∧ base = 8 ∧ value ≠ 0) := by
  by_cases hoctal : flags.alt = true ∧ base = 8
  · obtain ⟨halt, rfl⟩ := hoctal
    have hdigits : numberDigits value 8 upper precision = _ := numberDigits_eq hbase
    rw [raised_eight halt]
    by_cases hvalue : value = 0
    · rw [if_pos hvalue] at hdigits
      split_ifs at hdigits with hprec
      · rw [if_pos hdigits]
        omega
      · rw [hdigits, if_neg (List.cons_ne_nil _ _), if_neg (by simp)]
        simp [hvalue]
    · rw [if_neg hvalue] at hdigits
      obtain ⟨hne, hlast⟩ := getLast_digits_ne hdigits hvalue
      have hforced : ¬(precision < 0 ∧ ¬(flags.alt = true ∧ (8 : UInt64) = 8 ∧ value ≠ 0)) :=
        fun h => h.2 ⟨halt, rfl, hvalue⟩
      rw [if_neg hne]
      split_ifs with hshort
      · exact iff_of_false (by omega) hforced
      · exact iff_of_false (fun hneg => hshort ⟨hlast, by omega⟩) hforced
  · rw [raised_of_not hoctal]
    have : ¬(flags.alt = true ∧ base = 8 ∧ value ≠ 0) := fun h => hoctal ⟨h.1, h.2.1⟩
    simp [this]

end Numbers

/-! ### Where the fields differ -/

/-- A forced zero raises the precision, and the zeros that pad the field are lost. -/
def OctalSlip (t : Target) (f : Field) : Prop :=
  f.conv = .o ∧ .alt ∈ f.flags ∧ .zero ∈ f.flags ∧ .minus ∉ f.flags ∧ f.precision = none ∧
    ∃ type bits, f.arg = .integer type bits ∧ f.value t bits ≠ 0 ∧
      (numeral 8 false (f.value t bits).natAbs).length + 1 < f.width

/-- A wide string is read as bytes, of which the second is a null. What is left out would have to be
spaces that the padding puts there. -/
def WideSlip (f : Field) : Prop :=
  f.conv = .s ∧ ∃ array, f.arg = .wide array ∧ 1 < (f.chars array).length ∧
    ¬((∀ c ∈ if .minus ∈ f.flags then (f.chars array).tail else f.chars array, c = 32) ∧
      (f.chars array).length ≤ f.width)

def Slips (t : Target) (f : Field) : Prop := OctalSlip t f ∨ WideSlip f

/-- What is written is at most as long as what is prescribed, and is the same where nothing slips. -/
structure Near (out text : List UInt8) (slips : Prop) : Prop where
  length_le : out.length ≤ text.length
  eq_iff : out = text ↔ ¬slips

lemma Near.rfl_of_not {text : List UInt8} {slips : Prop} (h : ¬slips) : Near text text slips :=
  ⟨le_rfl, iff_of_true rfl h⟩

/-- What is shorter somewhere isn't made up for elsewhere. -/
lemma Near.append {out text out' text' : List UInt8} {slips slips' : Prop}
    (h : Near out text slips) (h' : Near out' text' slips') :
    Near (out ++ out') (text ++ text') (slips ∨ slips') where
  length_le := by
    rw [List.length_append, List.length_append]
    exact Nat.add_le_add h.length_le h'.length_le
  eq_iff := by
    rw [not_or, ← h.eq_iff, ← h'.eq_iff]
    constructor
    · intro heq
      have hlen := congrArg List.length heq
      rw [List.length_append, List.length_append] at hlen
      have hle := h.length_le
      have hle' := h'.length_le
      exact List.append_inj heq (by omega)
    · rintro ⟨rfl, rfl⟩
      rfl

/-- Without a sign, zeros and spaces are the same padding where there is none. -/
lemma assembled_eq_iff {left fill fill' : Prop} [Decidable left] [Decidable fill] [Decidable fill']
    (hleft : ¬left) (hfill : ¬fill) (hfill' : fill') (width : ℕ) (body : List UInt8) :
    assembled left fill width [] body = assembled left fill' width [] body ↔
      width ≤ body.length := by
  unfold assembled
  simp only [hleft, hfill, hfill', if_true, if_false, List.nil_append, List.append_nil]
  rw [List.append_left_inj]
  constructor
  · intro heq
    by_contra hlt
    have hmem : byte ' ' ∈ List.replicate (width - body.length) (byte '0') :=
      heq ▸ List.mem_replicate.mpr ⟨by omega, rfl⟩
    exact absurd (List.eq_of_mem_replicate hmem) (by decide)
  · intro hle
    rw [Nat.sub_eq_zero_of_le hle]
    rfl

lemma assembled_congr {left left' fill fill' : Prop} [Decidable left] [Decidable left']
    [Decidable fill] [Decidable fill'] (hleft : left ↔ left') (hfill : ¬left → (fill ↔ fill'))
    (width : ℕ) (lead body : List UInt8) :
    assembled left fill width lead body = assembled left' fill' width lead body := by
  unfold assembled
  by_cases h : left
  · simp only [if_pos h, if_pos (hleft.mp h)]
  · simp only [if_neg h, if_neg (hleft.not.mp h), hfill h]

lemma given_eq_none {precision : ℤ} : given precision = none ↔ precision < 0 := by
  rw [given]
  split_ifs with h <;> simp [h]

section Fields

variable {t : Target} {f : Field} {precision : ℤ}

lemma not_wideSlip {type : IntType} {bits : ℕ} (harg : f.arg = .integer type bits) :
    ¬WideSlip f := by
  rintro ⟨-, array, hwide, -⟩
  rw [harg] at hwide
  cases hwide

/-- The digits of an octal number with a forced zero. -/
lemma length_body_forced {value : ℤ} (hconv : f.conv = .o) (halt : .alt ∈ f.flags)
    (hprec : f.precision = none) (hvalue : value ≠ 0) :
    (f.body value).length = (numeral 8 false value.natAbs).length + 1 := by
  have hne : value.natAbs ≠ 0 := Int.natAbs_ne_zero.mpr hvalue
  have hpos := List.length_pos_iff.mpr (numeral_ne_nil 8 false hne)
  have hnone : 1 - (numeral 8 false value.natAbs).length = 0 := by omega
  have hbody : f.body value = forceZero (numeral 8 false value.natAbs) := by
    rw [Field.body, if_pos ⟨hconv, halt⟩, hconv, hprec, atLeast]
    simp [Conv.base, hnone]
  rw [hbody, forceZero, if_neg (head_numeral_ne (by decide) (by decide) hne), List.length_cons]

/-- A number is what C prescribes, but for the zeros that an octal one loses. -/
lemma near_number {type : IntType} {bits : ℕ} (harg : f.arg = .integer type bits)
    (hprec : f.precision = given precision) :
    Near (assembled (.minus ∈ f.flags) (.zero ∈ f.flags ∧ precision < 0 ∧
          ¬(.alt ∈ f.flags ∧ f.conv = .o ∧ f.value t bits ≠ 0))
        f.width (f.lead (f.value t bits)) (f.body (f.value t bits)))
      (f.padded (f.lead (f.value t bits)) (f.body (f.value t bits))) (Slips t f) := by
  have hnone : f.precision = none ↔ precision < 0 := hprec ▸ given_eq_none
  have hslips : Slips t f ↔ OctalSlip t f := or_iff_left (not_wideSlip harg)
  by_cases hforced : .alt ∈ f.flags ∧ f.conv = .o ∧ f.value t bits ≠ 0
  · obtain ⟨halt, hconv, hvalue⟩ := hforced
    have hlead : f.lead (f.value t bits) = [] := by rw [Field.lead, hconv]
    by_cases hzeros : .minus ∉ f.flags ∧ .zero ∈ f.flags ∧ f.precision = none
    · obtain ⟨hminus, hzero, hnone'⟩ := hzeros
      rw [hlead, padded_eq]
      refine ⟨by rw [length_assembled, length_assembled], ?_⟩
      rw [assembled_eq_iff hminus (fun h => h.2.2 ⟨halt, hconv, hvalue⟩) ⟨hzero, hnone'⟩,
        length_body_forced hconv halt hnone' hvalue, hslips, OctalSlip, ← not_lt]
      refine not_congr ⟨fun hlt => ⟨hconv, halt, hzero, hminus, hnone', type, bits, harg, hvalue, hlt⟩,
        ?_⟩
      rintro ⟨-, -, -, -, -, type', bits', harg', -, hlt⟩
      rw [harg] at harg'
      cases harg'
      exact hlt
    · -- there is no padding with zeros
      have heq : assembled (.minus ∈ f.flags) (.zero ∈ f.flags ∧ precision < 0 ∧
            ¬(.alt ∈ f.flags ∧ f.conv = .o ∧ f.value t bits ≠ 0))
          f.width (f.lead (f.value t bits)) (f.body (f.value t bits)) =
          f.padded (f.lead (f.value t bits)) (f.body (f.value t bits)) :=
        assembled_congr Iff.rfl (fun hminus => iff_of_false (fun h => h.2.2 ⟨halt, hconv, hvalue⟩)
          fun h => hzeros ⟨hminus, h⟩) _ _ _
      rw [heq]
      exact .rfl_of_not fun hslip =>
        have ⟨_, _, hzero, hminus, hnone', _⟩ := hslips.mp hslip
        hzeros ⟨hminus, hzero, hnone'⟩
  · have heq : assembled (.minus ∈ f.flags) (.zero ∈ f.flags ∧ precision < 0 ∧
          ¬(.alt ∈ f.flags ∧ f.conv = .o ∧ f.value t bits ≠ 0))
        f.width (f.lead (f.value t bits)) (f.body (f.value t bits)) =
        f.padded (f.lead (f.value t bits)) (f.body (f.value t bits)) :=
      assembled_congr Iff.rfl (fun _ => ⟨fun h => ⟨h.1, hnone.mpr h.2.1⟩,
        fun h => ⟨h.1, hnone.mp h.2, hforced⟩⟩) _ _ _
    rw [heq]
    refine .rfl_of_not fun hslip => ?_
    obtain ⟨hconv, halt, -, -, -, type', bits', harg', hvalue, -⟩ := hslips.mp hslip
    rw [harg] at harg'
    cases harg'
    exact hforced ⟨halt, hconv, hvalue⟩

/-! ### The conversions -/

def flagsOf (flags : List Flag) : FmtFlags :=
  ⟨.minus ∈ flags, .zero ∈ flags, .alt ∈ flags, .plus ∈ flags, .space ∈ flags, false⟩

def lenOf : Length → FmtLen
  | .none => .int
  | .hh => .char
  | .h => .short
  | .l => .long
  | .ll => .llong
  | .z => .size

lemma lenOf_type (length : Length) : (lenOf length).type = length.type := by cases length <;> rfl

lemma lenOf_bits (t : Target) (length : Length) : (lenOf length).bits t = length.bits t := by
  cases length <;> rfl

lemma bits_range (t : Target) (length : Length) : length.bits t ≤ 64 := by
  have hlong := t.longBits_le
  have hsize := t.sizeBits_le
  cases length <;> simp only [Length.bits, Length.type, Target.bits] <;> omega

/-- What the code takes of a signed value is its magnitude. -/
lemma toNat_magnitude {width bits : ℕ} (hwidth : width ≤ 64) :
    (if signed width bits < 0 then -(UInt64.ofInt (signed width bits))
      else UInt64.ofInt (signed width bits)).toNat = (signed width bits).natAbs := by
  have hpos : 0 < 2 ^ width := Nat.two_pow_pos width
  have hpow : 2 ^ width ≤ 2 ^ 64 := Nat.pow_le_pow_right (by decide) hwidth
  have hlow : -((2 ^ width : ℕ) / 2 : ℤ) ≤ signed width bits := Int.le_bmod hpos
  have hhigh : signed width bits < ((2 ^ width : ℕ) + 1 : ℤ) / 2 := Int.bmod_lt hpos
  generalize signed width bits = v at hlow hhigh ⊢
  generalize 2 ^ width = m at hpow hlow hhigh
  have hofInt : (UInt64.ofInt v).toNat = (v % 2 ^ 64).toNat := by
    rw [UInt64.ofInt, UInt64.toNat_ofNat', Nat.mod_eq_of_lt (by omega)]
  split_ifs with hneg
  · rw [UInt64.toNat_neg, hofInt, show UInt64.size = 2 ^ 64 from rfl]
    omega
  · rw [hofInt]
    omega

/-- The code writes an integer as its field says, but for the zeros. -/
lemma written_integer {type : IntType} {bits : ℕ} (st : FmtState) {value : UInt64}
    (base : UInt64) (upper negative : Bool) (flags : FmtFlags)
    (hbase : base = 2 ∨ base = 8 ∨ base = 10 ∨ base = 16) (hconv : base.toNat = f.conv.base)
    (height : base = 8 ↔ f.conv = .o) (hupper : upper = decide (f.conv = .X))
    (hvalue : value.toNat = (f.value t bits).natAbs)
    (hleft : flags.left = decide (.minus ∈ f.flags)) (hzero : flags.zero = decide (.zero ∈ f.flags))
    (halt : flags.alt = decide (.alt ∈ f.flags))
    (hlead : leadSign negative flags ++ leadBase value base upper flags = f.lead (f.value t bits))
    (harg : f.arg = .integer type bits) (hprec : f.precision = given precision) :
    ∃ out, written (fmtNumber st value base upper negative flags f.width precision) =
        written st ++ out ∧
      Near out (f.padded (f.lead (f.value t bits)) (f.body (f.value t bits))) (Slips t f) := by
  refine ⟨_, ?_, near_number harg hprec⟩
  have hne : value ≠ 0 ↔ f.value t bits ≠ 0 := by
    rw [← Int.natAbs_ne_zero, ← hvalue, not_iff_not]
    exact UInt64.toNat_inj.symm
  have hbody : numberBody (numberDigits value base upper precision)
      (raised (numberDigits value base upper precision) base flags precision) =
      f.body (f.value t bits) := by
    rw [Field.body, ← hconv, ← hupper, ← hvalue, hprec]
    by_cases hforced : flags.alt = true ∧ base = 8
    · obtain ⟨halt', rfl⟩ := hforced
      rw [if_pos ⟨height.mp rfl, by simpa [halt] using halt'⟩]
      exact numberBody_forced halt'
    · rw [raised_of_not hforced, numberBody_eq hbase, if_neg]
      rintro ⟨ho, halt'⟩
      exact hforced ⟨by simpa [halt] using halt', height.mpr ho⟩
  rw [written_fmtNumber, hlead, hbody]
  refine congrArg _ (assembled_congr (by simp [hleft]) (fun _ => ?_) _ _ _)
  rw [raised_neg_iff hbase, hzero, halt, height, hne]
  simp

/-- The code converts a field's argument, and what it writes is near a text. -/
def Converts (t : Target) (st : FmtState) (f : Field) (precision : ℤ) (args : List Arg)
    (text : List UInt8) : Prop :=
  ∃ st' out, fmtConvert t st f.conv.byte (lenOf f.length) (flagsOf f.flags) f.width precision
      (f.arg :: args) = some (st', args) ∧
    written st' = written st ++ out ∧ Near out text (Slips t f)

variable {args : List Arg} {text : List UInt8} {bits : ℕ}

lemma fmtSarg_eq (harg : f.arg = .integer f.length.type bits) :
    fmtSarg t (lenOf f.length) (f.arg :: args) = some (signed (f.length.bits t) bits, args) := by
  simp [fmtSarg, harg, vaInteger, lenOf_type, lenOf_bits]

lemma fmtUarg_eq (harg : f.arg = .integer f.length.type bits) :
    fmtUarg t (lenOf f.length) (f.arg :: args) =
      some (UInt64.ofNat (unsigned (f.length.bits t) bits), args) := by
  simp [fmtUarg, harg, vaInteger, lenOf_type, lenOf_bits]

lemma converts_signed (st : FmtState) (hconv : f.conv = .d ∨ f.conv = .i)
    (harg : f.arg = .integer f.length.type bits) (hprec : f.precision = given precision) :
    Converts t st f precision args
      (f.padded (f.lead (f.value t bits)) (f.body (f.value t bits))) := by
  have hvalue : f.value t bits = signed (f.length.bits t) bits := by
    rcases hconv with hconv | hconv <;> rw [Field.value, hconv]
  have hlead : ∀ uv, leadSign (f.value t bits < 0) (flagsOf f.flags) ++
      leadBase uv 10 false (flagsOf f.flags) = f.lead (f.value t bits) := fun uv => by
    have hbase : leadBase uv 10 false (flagsOf f.flags) = [] := by simp [leadBase]
    rw [hbase, List.append_nil]
    rcases hconv with hconv | hconv <;> simp [Field.lead, hconv, leadSign, flagsOf]
  obtain ⟨out, hout, hnear⟩ := written_integer (t := t) st 10 false _ (flagsOf f.flags)
    (.inr (.inr (.inl rfl))) (by rcases hconv with hconv | hconv <;> rw [hconv] <;> rfl)
    (by rcases hconv with hconv | hconv <;> simp [hconv]) (by rcases hconv with h | h <;> simp [h])
    ((toNat_magnitude (bits_range t f.length)).trans (by rw [hvalue])) rfl rfl rfl (hlead _) harg
    hprec
  refine ⟨_, out, ?_, hout, hnear⟩
  have hcode : fmtConvert t st f.conv.byte (lenOf f.length) (flagsOf f.flags) f.width precision
      (f.arg :: args) = (fmtSarg t (lenOf f.length) (f.arg :: args)).map fun p =>
        (fmtNumber st (if p.1 < 0 then -(UInt64.ofInt p.1) else UInt64.ofInt p.1) 10 false (p.1 < 0)
          (flagsOf f.flags) f.width precision, p.2) := by
    rcases hconv with hconv | hconv <;> rw [hconv] <;> rfl
  rw [hcode, fmtSarg_eq harg, Option.map_some, hvalue]

/-- The base of an unsigned conversion, and the case of its letters. -/
lemma converts_unsigned (st : FmtState) (base : UInt64) (upper : Bool)
    (hcode : fmtConvert t st f.conv.byte (lenOf f.length) (flagsOf f.flags) f.width precision
      (f.arg :: args) = fmtUnsigned t st (f.arg :: args) (lenOf f.length) base upper
        (flagsOf f.flags) f.width precision)
    (hbase : base = 2 ∨ base = 8 ∨ base = 10 ∨ base = 16) (hconv : base.toNat = f.conv.base)
    (height : base = 8 ↔ f.conv = .o) (hupper : upper = decide (f.conv = .X))
    (hvalue : f.value t bits = unsigned (f.length.bits t) bits)
    (hlead : ∀ value : UInt64, leadBase value base upper (fmtUnsignedFlags (flagsOf f.flags)) =
      f.lead value.toNat)
    (harg : f.arg = .integer f.length.type bits) (hprec : f.precision = given precision) :
    Converts t st f precision args
      (f.padded (f.lead (f.value t bits)) (f.body (f.value t bits))) := by
  have hlt : unsigned (f.length.bits t) bits < 2 ^ 64 :=
    (Nat.mod_lt _ (Nat.two_pow_pos _)).trans_le
      (Nat.pow_le_pow_right (by decide) (bits_range t f.length))
  have hnat : (UInt64.ofNat (unsigned (f.length.bits t) bits)).toNat =
      unsigned (f.length.bits t) bits := by rw [UInt64.toNat_ofNat', Nat.mod_eq_of_lt hlt]
  obtain ⟨out, hout, hnear⟩ := written_integer (t := t) st base upper false
    (fmtUnsignedFlags (flagsOf f.flags)) hbase hconv height hupper
    (hnat.trans (by rw [hvalue]; rfl)) rfl rfl rfl
    (by rw [hlead, hnat, hvalue]; rfl) harg hprec
  refine ⟨_, out, ?_, hout, hnear⟩
  rw [hcode, fmtUnsigned, fmtUarg_eq harg, Option.map_some]

lemma converts_integer (st : FmtState) (hconv : f.conv.IsInteger)
    (harg : f.arg = .integer f.length.type bits) (hprec : f.precision = given precision) :
    Converts t st f precision args
      (f.padded (f.lead (f.value t bits)) (f.body (f.value t bits))) := by
  rcases hconv with hconv | hconv | hconv | hconv | hconv | hconv
  · exact converts_signed st (.inl hconv) harg hprec
  · exact converts_signed st (.inr hconv) harg hprec
  · refine converts_unsigned st 10 false (by rw [hconv]; rfl)
      (.inr (.inr (.inl rfl))) (by rw [hconv]; rfl) (by simp [hconv]) (by simp [hconv])
      (by rw [Field.value, hconv]) (fun value => ?_) harg hprec
    simp [leadBase, Field.lead, hconv]
  · refine converts_unsigned st 8 false (by rw [hconv]; rfl)
      (.inr (.inl rfl)) (by rw [hconv]; rfl) (by simp [hconv]) (by simp [hconv])
      (by rw [Field.value, hconv]) (fun value => ?_) harg hprec
    simp [leadBase, Field.lead, hconv]
  · refine converts_unsigned st 16 false (by rw [hconv]; rfl)
      (.inr (.inr (.inr rfl))) (by rw [hconv]; rfl) (by simp [hconv]) (by simp [hconv])
      (by rw [Field.value, hconv]) (fun value => ?_) harg hprec
    by_cases hzero : value.toNat = 0 <;>
      simp [leadBase, Field.lead, hconv, fmtUnsignedFlags, flagsOf, ← UInt64.toNat_inj, hzero]
  · refine converts_unsigned st 16 true (by rw [hconv]; rfl)
      (.inr (.inr (.inr rfl))) (by rw [hconv]; rfl) (by simp [hconv]) (by simp [hconv])
      (by rw [Field.value, hconv]) (fun value => ?_) harg hprec
    by_cases hzero : value.toNat = 0 <;>
      simp [leadBase, Field.lead, hconv, fmtUnsignedFlags, flagsOf, ← UInt64.toNat_inj, hzero]

/-! ### Characters, strings and pointers -/

lemma not_octalSlip (hconv : f.conv ≠ .o) : ¬OctalSlip t f := fun h => hconv h.1

/-- A field without zeros. -/
lemma assembled_text (hzero : .zero ∉ f.flags) (body : List UInt8) :
    assembled ((flagsOf f.flags).left = true) False f.width [] body = f.padded [] body :=
  assembled_congr (by simp [flagsOf]) (fun _ => iff_of_false id fun h => hzero h.1) _ _ _

lemma ofInt_signed (bits : ℕ) : UInt8.ofInt (signed 32 bits) = UInt8.ofNat bits := by
  have hmod : signed 32 bits % 2 ^ 8 = (bits : ℤ) % 2 ^ 8 := by
    rw [← Int.emod_emod_of_dvd (signed 32 bits) (show (2 ^ 8 : ℤ) ∣ (2 ^ 32 : ℕ) by decide), signed,
      Int.bmod_emod, Int.emod_emod_of_dvd _ (by decide)]
  rw [UInt8.ofInt, hmod, ← UInt8.toNat_inj, UInt8.toNat_ofNat', UInt8.toNat_ofNat']
  omega

lemma converts_char (st : FmtState) (hconv : f.conv = .c) (harg : f.arg = .integer .int bits)
    (hzero : .zero ∉ f.flags) :
    Converts t st f precision args (f.padded [] [UInt8.ofNat bits]) := by
  have hslips : ¬Slips t f := not_or.mpr ⟨not_octalSlip (by simp [hconv]), not_wideSlip harg⟩
  have hcode : ∀ args, fmtConvert t st Conv.c.byte (lenOf f.length) (flagsOf f.flags) f.width
      precision args = (vaInt t args).map fun p =>
        (fmtText st [UInt8.ofInt p.1] (flagsOf f.flags) f.width, p.2) := fun _ => rfl
  refine ⟨_, _, ?_, (written_fmtText st [UInt8.ofNat bits] (flagsOf f.flags) f.width).trans
    (by rw [assembled_text hzero]), .rfl_of_not hslips⟩
  rw [hconv, harg, hcode]
  simp [vaInt, vaInteger, Target.bits, ofInt_signed]

lemma converts_pointer (st : FmtState) {address : UInt64} (hconv : f.conv = .p)
    (harg : f.arg = .pointer address) (hzero : .zero ∉ f.flags) (hprec : f.precision = given precision)
    (hnone : f.precision = none) :
    Converts t st f precision args
      (f.padded (bytes "0x") (atLeast 1 (numeral 16 false address.toNat))) := by
  have hslips : ¬Slips t f := by
    refine not_or.mpr ⟨not_octalSlip (by simp [hconv]), ?_⟩
    rintro ⟨hs, -⟩
    simp [hconv] at hs
  have hneg : precision < 0 := given_eq_none.mp (hprec ▸ hnone)
  have hbase : (16 : UInt64) = 2 ∨ (16 : UInt64) = 8 ∨ (16 : UInt64) = 10 ∨ (16 : UInt64) = 16 :=
    .inr (.inr (.inr rfl))
  refine ⟨_, _, ?_, written_fmtNumber st address 16 false false
    { fmtUnsignedFlags (flagsOf f.flags) with alt := true, ptr := true } f.width precision, ?_⟩
  · rw [hconv, harg]
    rfl
  · rw [raised_of_not (by simp), numberBody_eq hbase, ← hprec, hnone]
    have hlead : leadSign false { fmtUnsignedFlags (flagsOf f.flags) with alt := true, ptr := true } ++
        leadBase address 16 false
          { fmtUnsignedFlags (flagsOf f.flags) with alt := true, ptr := true } = bytes "0x" := by
      simp [leadSign, leadBase, fmtUnsignedFlags]
    rw [hlead]
    have hpadded : ∀ body, assembled ((flagsOf f.flags).left = true)
        ((flagsOf f.flags).zero = true ∧ precision < 0) f.width (bytes "0x") body =
        f.padded (bytes "0x") body := fun body =>
      assembled_congr (by simp [flagsOf]) (fun _ => by simp [flagsOf, hzero]) _ _ _
    exact (hpadded _).symm ▸ .rfl_of_not hslips

lemma stringLength_of_neg (hneg : precision < 0) (s : List UInt8) (len : ℕ) :
    stringLength precision s len = len + (s.takeWhile (· ≠ 0)).length := by
  induction s generalizing len with
  | nil => rfl
  | cons c s ih =>
    rw [stringLength]
    by_cases hc : c = 0
    · simp [hc]
    · rw [if_pos ⟨hc, .inl hneg⟩, ih, List.takeWhile_cons_of_pos (by simpa using hc),
        List.length_cons]
      omega

lemma stringLength_of_nonneg (n : ℕ) (s : List UInt8) (len : ℕ) :
    stringLength n s len = len + ((s.takeWhile (· ≠ 0)).take (n - len)).length := by
  induction s generalizing len with
  | nil => simp [stringLength]
  | cons c s ih =>
    rw [stringLength]
    by_cases hc : c = 0
    · simp [hc]
    · rw [List.takeWhile_cons_of_pos (by simpa using hc)]
      by_cases hlt : len < n
      · rw [if_pos ⟨hc, .inr (by omega)⟩, ih, show n - len = n - (len + 1) + 1 by omega,
          List.take_succ_cons, List.length_cons]
        omega
      · rw [if_neg (by omega), Nat.sub_eq_zero_of_le (by omega)]
        rfl

/-- What the code takes of a string is what C does. -/
lemma take_stringLength (hprec : f.precision = given precision) (s : List UInt8) :
    s.take (stringLength precision s 0) = f.chars s := by
  have hprefix : s.takeWhile (· ≠ 0) <+: s := List.takeWhile_prefix _
  rw [Field.chars, hprec, given]
  split_ifs with hneg
  · rw [stringLength_of_neg hneg, Nat.zero_add]
    exact (List.prefix_iff_eq_take.mp hprefix).symm
  · obtain ⟨n, rfl⟩ : ∃ n : ℕ, precision = n := ⟨precision.toNat, by omega⟩
    rw [stringLength_of_nonneg, Nat.zero_add, Nat.sub_zero, Int.toNat_natCast]
    exact (List.prefix_iff_eq_take.mp ((List.take_prefix _ _).trans hprefix)).symm

lemma converts_string (st : FmtState) {s : List UInt8} (hconv : f.conv = .s)
    (harg : f.arg = .string (some s)) (hzero : .zero ∉ f.flags) (hprec : f.precision = given precision) :
    Converts t st f precision args (f.padded [] (f.chars s)) := by
  have hslips : ¬Slips t f := by
    refine not_or.mpr ⟨not_octalSlip (by simp [hconv]), ?_⟩
    rintro ⟨-, array, hwide, -⟩
    rw [harg] at hwide
    cases hwide
  refine ⟨_, _, ?_, (written_fmtText st (f.chars s) (flagsOf f.flags) f.width).trans
    (by rw [assembled_text hzero]), .rfl_of_not hslips⟩
  rw [hconv, harg, ← take_stringLength hprec]
  rfl

/-- The bytes of a wide string's array. -/
def wideBytes (array : List ℕ) : List UInt8 :=
  array.flatMap fun c => (List.range 4).map fun n => UInt8.ofNat (c >>> (8 * n))

/-- Of a wide string of basic characters, the code takes the first one. -/
lemma chars_wideBytes {array : List ℕ} (hbasic : ∀ c ∈ f.chars array, c < 128) :
    f.chars (wideBytes array) = ((f.chars array).map UInt8.ofNat).take 1 := by
  cases array with
  | nil => cases h : f.precision <;> simp [Field.chars, wideBytes, h]
  | cons c rest =>
    by_cases hc : c = 0
    · cases h : f.precision <;> simp [Field.chars, wideBytes, h, hc, List.range_succ]
    · have hbytes : c < 128 → (wideBytes (c :: rest)).takeWhile (· ≠ 0) = [UInt8.ofNat c] :=
        fun hlt => by
          have hne : UInt8.ofNat c ≠ 0 := fun h => by
            have := congrArg UInt8.toNat h
            rw [UInt8.toNat_ofNat'] at this
            change c % 2 ^ 8 = 0 at this
            omega
          have hnext : c >>> 8 = 0 := by
            rw [Nat.shiftRight_eq_div_pow]
            omega
          simp [wideBytes, List.range_succ, hne, hnext]
      cases h : f.precision with
      | none =>
        have hlt : c < 128 := hbasic c (by simp [Field.chars, h, hc])
        simp only [Field.chars, h, hbytes hlt]
        simp [hc]
      | some n =>
        cases n with
        | zero => simp [Field.chars, h]
        | succ n =>
          have hlt : c < 128 := hbasic c (by simp [Field.chars, h, hc])
          simp only [Field.chars, h, hbytes hlt]
          simp [hc]

lemma padded_nil (hzero : .zero ∉ f.flags) (s : List UInt8) : f.padded [] s =
    if .minus ∈ f.flags then s ++ List.replicate (f.width - s.length) (byte ' ')
    else List.replicate (f.width - s.length) (byte ' ') ++ s := by
  simp [Field.padded, hzero]

/-- Spaces that are left out are there as padding, where there is as much. -/
lemma padded_take_one (hzero : .zero ∉ f.flags) {s : List UInt8} (hlong : 1 < s.length) :
    f.padded [] (s.take 1) = f.padded [] s ↔
      (∀ c ∈ if .minus ∈ f.flags then s.tail else s, c = byte ' ') ∧ s.length ≤ f.width := by
  obtain ⟨a, s, rfl⟩ : ∃ a l, s = a :: l := List.exists_cons_of_length_pos (by omega)
  have hlong' : 0 < s.length := by simpa using hlong
  rw [padded_nil hzero, padded_nil hzero, List.take_succ_cons, List.take_zero, List.length_singleton]
  constructor
  · intro heq
    have hlen := congrArg List.length heq
    have hfit : (a :: s).length ≤ f.width := by
      split_ifs at hlen <;>
        simp only [List.length_append, List.length_replicate, List.length_cons, List.length_nil]
          at hlen ⊢ <;> omega
    refine ⟨?_, hfit⟩
    split_ifs at heq ⊢ with hminus
    · intro c hc
      rw [List.cons_append, List.cons_append, List.cons.injEq] at heq
      refine List.eq_of_mem_replicate (n := f.width - 1) ?_
      rw [show List.replicate (f.width - 1) (byte ' ') = s ++ _ from heq.2]
      exact List.mem_append_left _ hc
    · -- the last character is where the only one is, and those before it are padding
      obtain ⟨front, last, rfl⟩ : ∃ front last, s = front ++ [last] :=
        ⟨_, _, (List.dropLast_append_getLast (List.length_pos_iff.mp hlong')).symm⟩
      rw [← List.cons_append, ← List.append_assoc] at heq
      obtain ⟨hfront, hlast⟩ := List.append_inj' heq rfl
      have hspace : ∀ c ∈ a :: front, c = byte ' ' := fun c hc =>
        List.eq_of_mem_replicate (hfront ▸ List.mem_append_right _ hc)
      intro c hc
      rw [← List.cons_append] at hc
      rcases List.mem_append.mp hc with hc | hc
      · exact hspace c hc
      · rw [List.mem_singleton.mp hc, ← List.singleton_inj.mp hlast]
        exact hspace a List.mem_cons_self
  · rintro ⟨hspace, hfit⟩
    rw [List.length_cons] at hfit
    split_ifs at hspace ⊢ with hminus
    · have hs : s = List.replicate s.length (byte ' ') := List.eq_replicate_iff.mpr ⟨rfl, hspace⟩
      have hsum : f.width - 1 = s.length + (f.width - (a :: s).length) := by
        rw [List.length_cons]
        omega
      rw [hsum, List.replicate_add, ← hs]
      rfl
    · have hs : a :: s = List.replicate (a :: s).length (byte ' ') :=
        List.eq_replicate_iff.mpr ⟨rfl, hspace⟩
      have ha : [a] = List.replicate 1 (byte ' ') := by rw [hspace a List.mem_cons_self]; rfl
      rw [ha]
      conv_rhs => rw [hs]
      rw [← List.replicate_add, List.length_replicate, ← List.replicate_add, List.length_cons]
      congr 1
      omega

lemma near_wide (hconv : f.conv = .s) {array : List ℕ} (harg : f.arg = .wide array)
    (hzero : .zero ∉ f.flags) (hbasic : ∀ c ∈ f.chars array, c < 128) :
    Near (f.padded [] (f.chars (wideBytes array)))
      (f.padded [] ((f.chars array).map UInt8.ofNat)) (Slips t f) := by
  have hslips : Slips t f ↔ WideSlip f := or_iff_right (not_octalSlip (by simp [hconv]))
  have hspace : ∀ l : List ℕ, (∀ c ∈ l, c < 128) →
      ((∀ c ∈ l.map UInt8.ofNat, c = byte ' ') ↔ ∀ c ∈ l, c = 32) := fun l hl => by
    rw [List.forall_mem_map]
    refine forall₂_congr fun c hc => ?_
    have hlt := hl c hc
    rw [← UInt8.toNat_inj, UInt8.toNat_ofNat', show (byte ' ').toNat = 32 from rfl]
    omega
  rw [chars_wideBytes hbasic]
  by_cases hlong : 1 < (f.chars array).length
  · refine ⟨?_, ?_⟩
    · rw [padded_nil hzero, padded_nil hzero]
      split_ifs <;> simp only [List.length_append, List.length_replicate, List.length_take] <;> omega
    · rw [padded_take_one hzero (by simpa using hlong), hslips, List.length_map]
      have hall : (∀ c ∈ if .minus ∈ f.flags then ((f.chars array).map UInt8.ofNat).tail
            else (f.chars array).map UInt8.ofNat, c = byte ' ') ↔
          ∀ c ∈ if .minus ∈ f.flags then (f.chars array).tail else f.chars array, c = 32 := by
        split_ifs
        · rw [← List.map_tail]
          exact hspace _ fun c hc => hbasic c (List.mem_of_mem_tail hc)
        · exact hspace _ hbasic
      rw [hall]
      constructor
      · rintro h ⟨-, array', harg', -, hnot⟩
        rw [harg] at harg'
        cases harg'
        exact hnot h
      · intro hnot
        by_contra h
        exact hnot ⟨hconv, array, harg, hlong, h⟩
  · rw [List.take_of_length_le (by rw [List.length_map]; omega)]
    refine .rfl_of_not fun hslip => ?_
    obtain ⟨-, array', harg', hlong', -⟩ := hslips.mp hslip
    rw [harg] at harg'
    cases harg'
    exact hlong hlong'

lemma converts_wide (st : FmtState) {array : List ℕ} (hconv : f.conv = .s)
    (harg : f.arg = .wide array) (hzero : .zero ∉ f.flags) (hprec : f.precision = given precision)
    (hbasic : ∀ c ∈ f.chars array, c < 128) :
    Converts t st f precision args (f.padded [] ((f.chars array).map UInt8.ofNat)) := by
  refine ⟨_, _, ?_, (written_fmtText st (f.chars (wideBytes array)) (flagsOf f.flags) f.width).trans
    (by rw [assembled_text hzero]), near_wide hconv harg hzero hbasic⟩
  rw [hconv, harg, ← take_stringLength hprec]
  rfl

/-- **A field is converted** to what C prescribes for it, where nothing slips. -/
theorem converts_of_text (st : FmtState) (args : List Arg) (hprec : f.precision = given precision)
    (htext : f.text t = some text) : Converts t st f precision args text := by
  rw [Field.text] at htext
  by_cases hdefined : f.Defined
  · rw [if_neg (not_not.mpr hdefined)] at htext
    obtain ⟨-, hzero, hprecision, -⟩ := hdefined
    have hnoZero : ¬f.conv.IsInteger → .zero ∉ f.flags := fun h hmem => h (hzero hmem)
    split at htext
    · rename_i bits hconv harg
      split_ifs at htext
      cases htext
      exact converts_char st hconv harg (hnoZero (by simp [hconv, Conv.IsInteger]))
    · rename_i array hconv harg
      split_ifs at htext
      cases htext
      exact converts_string st hconv harg (hnoZero (by simp [hconv, Conv.IsInteger])) hprec
    · rename_i array hconv harg
      split_ifs at htext with hbasic
      cases htext
      exact converts_wide st hconv harg (hnoZero (by simp [hconv, Conv.IsInteger])) hprec hbasic.2
    · rename_i address hconv harg
      cases htext
      have hnone : f.precision = none := by
        by_contra hsome
        have := hprecision hsome
        simp [hconv, Conv.IsInteger] at this
      exact converts_pointer st hconv harg (hnoZero (by simp [hconv, Conv.IsInteger])) hprec hnone
    · rename_i type bits harg _
      split_ifs at htext with hinteger
      cases htext
      obtain ⟨hconv, rfl⟩ := hinteger
      exact converts_integer st hconv harg hprec
    · cases htext
  · rw [if_pos hdefined] at htext
    cases htext

end Fields

end OneRom.FmtFields
