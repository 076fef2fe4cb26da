import OneRom.FmtFields
import OneRom.RttFifo

/-!
Formats, as the formatter reads them.

`vprintf_iff` says for which formats and arguments the bytes written are those that C prescribes.
-/

namespace OneRom.FmtFormat

open OneRom.Fmt OneRom.FmtFields OneRom.Printf

/-! ### The parts of a conversion -/

section Parts

variable {rest : List UInt8} {flags : List Flag}

lemma flagsOf_congr {flags' : List Flag} (h : ∀ x, x ∈ flags ↔ x ∈ flags') :
    flagsOf flags = flagsOf flags' := by
  simp only [flagsOf, h]

lemma fmtFlags_cons (x : Flag) (fmt : List UInt8) :
    fmtFlags (x.byte :: fmt) (flagsOf flags) = fmtFlags fmt (flagsOf (x :: flags)) := by
  cases x <;> simp [fmtFlags, flagsOf, Flag.byte, byte]

lemma fmtFlags_stop (h : ∀ x : Flag, rest.head? ≠ some x.byte) (flags : FmtFlags) :
    fmtFlags rest flags = (flags, rest) := by
  cases rest with
  | nil => rfl
  | cons c rest =>
    have hne : ∀ x : Flag, c ≠ x.byte := fun x heq => h x (congrArg some heq)
    rw [fmtFlags, if_neg (show c ≠ byte '-' from hne .minus),
      if_neg (show c ≠ byte '0' from hne .zero), if_neg (show c ≠ byte '#' from hne .alt),
      if_neg (show c ≠ byte '+' from hne .plus), if_neg (show c ≠ byte ' ' from hne .space)]

/-- The flags come in any order, and any number of times. -/
lemma fmtFlags_eq (h : ∀ x : Flag, rest.head? ≠ some x.byte) (new : List Flag) :
    fmtFlags (new.map Flag.byte ++ rest) (flagsOf flags) = (flagsOf (new ++ flags), rest) := by
  induction new generalizing flags with
  | nil => exact fmtFlags_stop h _
  | cons x new ih =>
    rw [List.map_cons, List.cons_append, fmtFlags_cons, ih]
    refine congrArg₂ Prod.mk (flagsOf_congr fun y => ?_) rfl
    simp only [List.mem_append, List.mem_cons]
    tauto

/-- A byte that is a digit. -/
def IsDecimal (c : UInt8) : Prop := byte '0' ≤ c ∧ c ≤ byte '9'

instance (c : UInt8) : Decidable (IsDecimal c) := inferInstanceAs (Decidable (_ ∧ _))

lemma decimalByte_spec (d : Fin 10) :
    IsDecimal (decimalByte d) ∧ (decimalByte d).toNat = 48 + d ∧ decimalByte d ≠ byte '*' ∧
      (d ≠ 0 → ∀ x : Flag, decimalByte d ≠ x.byte) := by
  have hall : ∀ d : Fin 10, IsDecimal (decimalByte d) ∧ (decimalByte d).toNat = 48 + d ∧
      decimalByte d ≠ byte '*' ∧ (d ≠ 0 → decimalByte d ≠ Flag.byte .minus ∧
        decimalByte d ≠ Flag.byte .zero ∧ decimalByte d ≠ Flag.byte .alt ∧
        decimalByte d ≠ Flag.byte .plus ∧ decimalByte d ≠ Flag.byte .space) := by decide +kernel
  obtain ⟨hdec, hnat, hstar, hflag⟩ := hall d
  refine ⟨hdec, hnat, hstar, fun hd x => ?_⟩
  obtain ⟨h₁, h₂, h₃, h₄, h₅⟩ := hflag hd
  cases x <;> assumption

lemma fmtDecimal_eq (h : ∀ c, rest.head? = some c → ¬IsDecimal c) (digits : List (Fin 10)) (n : ℕ) :
    fmtDecimal (digits.map decimalByte ++ rest) n =
      (((digits.foldl (fun (n : ℕ) (d : Fin 10) => n * 10 + d) n : ℕ) : ℤ), rest) := by
  induction digits generalizing n with
  | nil =>
    cases rest with
    | nil => rfl
    | cons c rest => exact if_neg (h c rfl)
  | cons d digits ih =>
    obtain ⟨⟨hlow, hhigh⟩, hnat, -⟩ := decimalByte_spec d
    rw [List.map_cons, List.cons_append, fmtDecimal, if_pos ⟨hlow, hhigh⟩, List.foldl_cons, ← ih]
    congr 1
    rw [hnat, show (byte '0').toNat = 48 from rfl]
    push_cast
    ring

lemma vaInt_eq (t : Target) (args : List Arg) : vaInt t args = starArg args := by
  cases args with
  | nil => rfl
  | cons arg args =>
    cases arg with
    | integer type bits => cases type <;> rfl
    | _ => rfl

/-- What comes after a width or a precision is neither a digit nor an asterisk. -/
structure Ends (rest : List UInt8) : Prop where
  digit : ∀ c, rest.head? = some c → ¬IsDecimal c
  star : rest.head? ≠ some (byte '*')

lemma fmtWidth_of_ne (t : Target) {fmt : List UInt8} (h : fmt.head? ≠ some (byte '*'))
    (args : List Arg) (flags : FmtFlags) : fmtWidth t fmt args flags =
      some (flags, (fmtDecimal fmt ((0 : ℕ) : ℤ)).1, (fmtDecimal fmt ((0 : ℕ) : ℤ)).2, args) := by
  rw [fmtWidth, if_neg h]
  rfl

lemma fmtWidth_eq (t : Target) {width : Width} {args args' : List Arg} {minus : List Flag} {n : ℕ}
    (h : width.resolve args = some (minus, n, args')) (hends : Ends rest) :
    fmtWidth t (width.bytes ++ rest) args (flagsOf flags) =
      some (flagsOf (minus ++ flags), (n : ℤ), rest, args') := by
  cases width with
  | omitted =>
    cases h
    have hdecimal : fmtDecimal rest ((0 : ℕ) : ℤ) = _ := fmtDecimal_eq hends.digit [] 0
    rw [Width.bytes, List.nil_append, fmtWidth_of_ne t hends.star, hdecimal]
    rfl
  | star =>
    obtain ⟨⟨v, args''⟩, hstar, heq⟩ := Option.map_eq_some_iff.mp h
    have hhead : (Width.star.bytes ++ rest).head? = some (byte '*') := rfl
    rw [fmtWidth, if_pos hhead, vaInt_eq, hstar]
    simp only [Prod.mk.injEq] at heq
    obtain ⟨rfl, rfl, rfl⟩ := heq
    change some (if v < 0 then ({ flagsOf flags with left := true }, -v, rest, args'')
      else (flagsOf flags, v, rest, args'')) = _
    split_ifs with hneg
    · have hflags : ({ flagsOf flags with left := true } : FmtFlags) = flagsOf ([.minus] ++ flags) := by
        simp [flagsOf]
      rw [hflags, show -v = (v.natAbs : ℤ) by omega]
    · rw [List.nil_append, show v = (v.natAbs : ℤ) by omega, Int.natAbs_natCast]
  | number first digits ne =>
    cases h
    obtain ⟨-, -, hstar, -⟩ := decimalByte_spec first
    have hhead : ((first :: digits).map decimalByte ++ rest).head? ≠ some (byte '*') := fun h =>
      hstar (Option.some.inj h)
    have hdecimal : fmtDecimal ((first :: digits).map decimalByte ++ rest) ((0 : ℕ) : ℤ) = _ :=
      fmtDecimal_eq hends.digit (first :: digits) 0
    rw [Width.bytes, fmtWidth_of_ne t hhead, hdecimal]
    rfl

lemma fmtPrecision_eq (t : Target) {precision : Precision} {args args' : List Arg} {p : Option ℕ}
    (h : precision.resolve args = some (p, args')) (hends : Ends rest)
    (hdot : rest.head? ≠ some (byte '.')) :
    ∃ v : ℤ, fmtPrecision t (precision.bytes ++ rest) args = some (v, rest, args') ∧ p = given v := by
  cases precision with
  | omitted =>
    cases h
    refine ⟨-1, ?_, rfl⟩
    rw [Precision.bytes, List.nil_append, fmtPrecision, if_neg hdot]
  | star =>
    obtain ⟨⟨v, args''⟩, hstar, heq⟩ := Option.map_eq_some_iff.mp h
    have hhead : (Precision.star.bytes ++ rest).head? = some (byte '.') := rfl
    have htail : (Precision.star.bytes ++ rest).tail.head? = some (byte '*') := rfl
    simp only [Prod.mk.injEq] at heq
    obtain ⟨rfl, rfl⟩ := heq
    refine ⟨v, ?_, rfl⟩
    rw [fmtPrecision, if_pos hhead]
    dsimp only
    rw [if_pos htail, vaInt_eq, hstar]
    rfl
  | number digits =>
    cases h
    have hhead : ((Precision.number digits).bytes ++ rest).head? = some (byte '.') := rfl
    have hnext : (digits.map decimalByte ++ rest).head? ≠ some (byte '*') := by
      cases digits with
      | nil => exact hends.star
      | cons d digits => exact fun h => (decimalByte_spec d).2.2.1 (Option.some.inj h)
    have hdecimal : fmtDecimal (digits.map decimalByte ++ rest) ((0 : ℕ) : ℤ) = _ :=
      fmtDecimal_eq hends.digit digits 0
    refine ⟨(decimal digits : ℕ), ?_, by simp [given]⟩
    rw [fmtPrecision, if_pos hhead]
    change (if (digits.map decimalByte ++ rest).head? = some (byte '*') then _
      else some ((fmtDecimal (digits.map decimalByte ++ rest) ((0 : ℕ) : ℤ)).1,
        (fmtDecimal (digits.map decimalByte ++ rest) ((0 : ℕ) : ℤ)).2, args)) = _
    rw [if_neg hnext, hdecimal]
    rfl

lemma fmtLength_eq (length : Length) (conv : Conv) (fmt : List UInt8) :
    fmtLength (length.bytes ++ conv.byte :: fmt) = (lenOf length, conv.byte :: fmt) := by
  cases length <;> cases conv <;> rfl

/-- What begins with a length or a conversion is neither a flag nor part of a width or a precision. -/
lemma length_head (length : Length) (conv : Conv) (fmt : List UInt8) :
    ∃ c l, length.bytes ++ conv.byte :: fmt = c :: l ∧ c ∈ bytes "hlzdiuoxXcsp" := by
  cases length
  case none => exact ⟨_, _, rfl, by cases conv <;> decide⟩
  all_goals exact ⟨_, _, rfl, by decide⟩

lemma length_head_spec : ∀ c ∈ bytes "hlzdiuoxXcsp", ¬IsDecimal c ∧ c ≠ byte '*' ∧ c ≠ byte '.' ∧
    c ≠ Flag.byte .minus ∧ c ≠ Flag.byte .zero ∧ c ≠ Flag.byte .alt ∧ c ≠ Flag.byte .plus ∧
    c ≠ Flag.byte .space := by decide +kernel

lemma ends_length (length : Length) (conv : Conv) (fmt : List UInt8) :
    Ends (length.bytes ++ conv.byte :: fmt) ∧
      (length.bytes ++ conv.byte :: fmt).head? ≠ some (byte '.') ∧
      ∀ x : Flag, (length.bytes ++ conv.byte :: fmt).head? ≠ some x.byte := by
  obtain ⟨c, l, heq, hc⟩ := length_head length conv fmt
  obtain ⟨hdec, hstar, hdot, hflags⟩ := length_head_spec c hc
  rw [heq]
  refine ⟨⟨fun c' h => ?_, fun h => hstar (Option.some.inj h)⟩, fun h => hdot (Option.some.inj h),
    fun x h => ?_⟩
  · cases h
    exact hdec
  · obtain rfl : c = x.byte := Option.some.inj h
    cases x <;> simp at hflags

/-- What begins with a precision, or what comes after one. -/
lemma ends_precision (precision : Precision) (h : Ends rest)
    (hflags : ∀ x : Flag, rest.head? ≠ some x.byte) :
    Ends (precision.bytes ++ rest) ∧ ∀ x : Flag, (precision.bytes ++ rest).head? ≠ some x.byte := by
  have hdot : ∀ l : List UInt8, Ends (byte '.' :: l) ∧
      ∀ x : Flag, (byte '.' :: l).head? ≠ some x.byte := fun l => by
    refine ⟨⟨fun c h => ?_, fun h => ?_⟩, fun x h => ?_⟩
    · cases h
      decide
    · exact absurd (Option.some.inj h) (by decide)
    · exact absurd (Option.some.inj h) (by cases x <;> decide)
  cases precision with
  | omitted => exact ⟨h, hflags⟩
  | star => exact hdot _
  | number digits => exact hdot _

lemma head_width (width : Width) (hflags : ∀ x : Flag, rest.head? ≠ some x.byte) (x : Flag) :
    (width.bytes ++ rest).head? ≠ some x.byte := by
  cases width with
  | omitted => exact hflags x
  | star => exact fun h => absurd (Option.some.inj h) (by cases x <;> decide)
  | number first digits ne =>
    exact fun h => (decimalByte_spec first).2.2.2 ne x (Option.some.inj h)

/-- **A conversion is read** as its parts say. -/
lemma fmtDirective_eq (t : Target) {c : Conversion} {args args' : List Arg} {f : Field}
    (h : c.resolve args = some (f, args')) (fmt : List UInt8) (st : FmtState) :
    ∃ precision : ℤ, f.precision = given precision ∧
      fmtDirective t (c.bytes.tail ++ fmt) args st =
        (fmtConvert t st f.conv.byte (lenOf f.length) (flagsOf f.flags) f.width precision
          (f.arg :: args')).map fun (st, args) => (st, fmt, args) := by
  rw [Conversion.resolve] at h
  cases hwidth : c.width.resolve args with
  | none => simp [hwidth] at h
  | some r =>
    obtain ⟨minus, width, args₁⟩ := r
    rw [hwidth] at h
    dsimp only at h
    split at h
    · rename_i p arg args₂ hprec
      simp only [Option.some.injEq, Prod.mk.injEq] at h
      obtain ⟨rfl, rfl⟩ := h
      obtain ⟨hends, hdot, hflags⟩ := ends_length c.length c.conv fmt
      obtain ⟨hends', hflags'⟩ := ends_precision c.precision hends hflags
      obtain ⟨v, hv, rfl⟩ := fmtPrecision_eq t hprec hends hdot
      refine ⟨v, rfl, ?_⟩
      have hfmt : c.bytes.tail ++ fmt = c.flags.map Flag.byte ++ (c.width.bytes ++
          (c.precision.bytes ++ (c.length.bytes ++ c.conv.byte :: fmt))) := by
        simp [Conversion.bytes]
      have hparse : fmtFlags _ (flagsOf []) = _ := fmtFlags_eq (head_width c.width hflags') c.flags
      have hempty : (⟨false, false, false, false, false, false⟩ : FmtFlags) = flagsOf [] := rfl
      rw [List.append_nil] at hparse
      rw [hfmt, fmtDirective, hempty, hparse]
      dsimp only
      rw [fmtWidth_eq t hwidth hends']
      dsimp only
      rw [hv]
      dsimp only
      rw [fmtLength_eq]
    · cases h

end Parts

/-! ### Formats -/

section Formats

variable {t : Target} {pieces : List Piece} {args : List Arg} {text : List UInt8}

lemma format_text (char : UInt8) (h₀ : char ≠ 0) (h : char ≠ byte '%') (pieces : List Piece) :
    format (.text char h₀ h :: pieces) = char :: format pieces := rfl

/-- The conversion of a percent sign has no parts. -/
lemma fmtDirective_percent (t : Target) (fmt : List UInt8) (args : List Arg) (st : FmtState) :
    fmtDirective t (byte '%' :: fmt) args st = some (fmtPutc st (byte '%'), fmt, args) := by
  have hflags : fmtFlags (byte '%' :: fmt) ⟨false, false, false, false, false, false⟩ =
      (⟨false, false, false, false, false, false⟩, byte '%' :: fmt) := rfl
  have hdecimal : fmtDecimal (byte '%' :: fmt) ((0 : ℕ) : ℤ) = (0, byte '%' :: fmt) := rfl
  have hhead : (byte '%' :: fmt).head? ≠ some (byte '*') := by
    exact fun h => absurd (Option.some.inj h) (by decide)
  have hdot : (byte '%' :: fmt).head? ≠ some (byte '.') := by
    exact fun h => absurd (Option.some.inj h) (by decide)
  have hlength : fmtLength (byte '%' :: fmt) = (.int, byte '%' :: fmt) := rfl
  rw [fmtDirective, hflags]
  dsimp only
  rw [fmtWidth_of_ne t hhead, hdecimal]
  dsimp only
  rw [fmtPrecision, if_neg hdot]
  dsimp only
  rw [hlength]
  rfl

/-- What is written for a format is near what C prescribes. -/
lemma vprintfLoop_eq (h : printf t pieces args = some text) {fuel : ℕ}
    (hfuel : (format pieces).length < fuel) (st : FmtState) :
    ∃ st' out, vprintfLoop t fuel (format pieces) args st = some st' ∧
      written st' = written st ++ out ∧ Near out text (∃ f ∈ fields pieces args, Slips t f) := by
  induction pieces generalizing args text fuel st with
  | nil =>
    obtain ⟨fuel, rfl⟩ : ∃ n, fuel = n + 1 := Nat.exists_eq_succ_of_ne_zero (by omega)
    cases h
    exact ⟨st, [], rfl, (List.append_nil _).symm, .rfl_of_not (by simp [fields])⟩
  | cons piece pieces ih =>
    obtain ⟨fuel, rfl⟩ : ∃ n, fuel = n + 1 := Nat.exists_eq_succ_of_ne_zero (by omega)
    cases piece with
    | text char h₀ hne =>
      obtain ⟨rest, hrest, rfl⟩ := Option.map_eq_some_iff.mp h
      obtain ⟨st', out, hloop, hout, hnear⟩ := ih hrest
        (show (format pieces).length < fuel from Nat.lt_of_succ_lt_succ hfuel) (fmtPutc st char)
      refine ⟨st', char :: out, ?_, ?_, ?_⟩
      · rw [format_text, vprintfLoop, if_pos hne, hloop]
      · rw [hout, written_fmtPutc, List.append_assoc, List.singleton_append]
      · have hnone : Near [char] [char] False := .rfl_of_not id
        have := hnone.append hnear
        rwa [false_or] at this
    | percent =>
      obtain ⟨rest, hrest, rfl⟩ := Option.map_eq_some_iff.mp h
      have hlen : (format pieces).length < fuel := by
        have hformat : (format (.percent :: pieces)).length = (format pieces).length + 2 := rfl
        omega
      obtain ⟨st', out, hloop, hout, hnear⟩ := ih hrest hlen (fmtPutc st (byte '%'))
      refine ⟨st', byte '%' :: out, ?_, ?_, ?_⟩
      · change vprintfLoop t (fuel + 1) (byte '%' :: byte '%' :: format pieces) args st = _
        rw [vprintfLoop, if_neg (not_not.mpr rfl), fmtDirective_percent]
        exact hloop
      · rw [hout, written_fmtPutc, List.append_assoc, List.singleton_append]
      · have hnone : Near [byte '%'] [byte '%'] False := .rfl_of_not id
        have := hnone.append hnear
        rwa [false_or] at this
    | conversion c =>
      rw [printf] at h
      cases hresolve : c.resolve args with
      | none => simp [hresolve] at h
      | some r =>
        obtain ⟨f, args'⟩ := r
        rw [hresolve] at h
        dsimp only at h
        split at h
        · rename_i first rest hfirst hrest
          cases h
          obtain ⟨precision, hprec, hdirective⟩ := fmtDirective_eq t hresolve (format pieces) st
          obtain ⟨st₁, out₁, hconvert, hout₁, hnear₁⟩ := converts_of_text st args' hprec hfirst
          have hformat : format (.conversion c :: pieces) =
              byte '%' :: (c.bytes.tail ++ format pieces) := rfl
          have hlen : (format pieces).length < fuel := by
            rw [hformat, List.length_cons, List.length_append] at hfuel
            omega
          obtain ⟨st', out, hloop, hout, hnear⟩ := ih hrest hlen st₁
          refine ⟨st', out₁ ++ out, ?_, ?_, ?_⟩
          · rw [hformat, vprintfLoop, if_neg (not_not.mpr rfl), hdirective, hconvert]
            exact hloop
          · rw [hout, hout₁, List.append_assoc]
          · have hfields : fields (.conversion c :: pieces) args = f :: fields pieces args' := by
              rw [fields, hresolve]
            rw [hfields, List.exists_mem_cons_iff]
            exact hnear₁.append hnear
        · cases h

/-- **Where the log formatter agrees with C.** It writes what C prescribes, wherever C does, but where
an octal number with a forced zero loses the zeros of its field, and where a wide string is cut. -/
theorem vprintf_iff (t : Target) (pieces : List Piece) (args : List Arg) {text : List UInt8}
    (h : printf t pieces args = some text) :
    (∃ chunks, oneromRttVprintf t (format pieces) args = some chunks ∧ chunks.flatten = text) ↔
      ∀ f ∈ fields pieces args, ¬Slips t f := by
  obtain ⟨st', out, hloop, hout, hnear⟩ :=
    vprintfLoop_eq h (Nat.lt_succ_self (format pieces).length) .empty
  have hcode : oneromRttVprintf t (format pieces) args = some (fmtFlush st').chunks := by
    rw [oneromRttVprintf, hloop, Option.map_some]
  have hbytes : (fmtFlush st').chunks.flatten = out := by
    rw [flatten_fmtFlush, hout]
    rfl
  constructor
  · rintro ⟨chunks, hchunks, heq⟩
    obtain rfl := Option.some.inj (hcode.symm.trans hchunks)
    have hno := hnear.eq_iff.mp (hbytes.symm.trans heq)
    exact fun f hf hslip => hno ⟨f, hf, hslip⟩
  · intro hno
    have heq : out = text := hnear.eq_iff.mpr fun ⟨f, hf, hslip⟩ => hno f hf hslip
    exact ⟨_, hcode, hbytes.trans heq⟩

/-- The firmware's target. -/
def ilp32 : Target := ⟨32, 32, by decide, by decide, by decide, by decide⟩

lemma eight_lt : 8 < 10 := by decide

lemma eight_ne : (⟨8, eight_lt⟩ : Fin 10) ≠ 0 := by decide

/-- `%#08o`. -/
def octalZeros : List Piece :=
  [.conversion ⟨[.alt, .zero], .number ⟨8, eight_lt⟩ [] eight_ne, .omitted, .none, .o⟩]

theorem vprintf_octal : format octalZeros = bytes "%#08o" ∧
    printf ilp32 octalZeros [.integer .int 8] = some (bytes "00000010") ∧
    oneromRttVprintf ilp32 (format octalZeros) [.integer .int 8] = some [bytes "     010"] ∧
    ¬∃ chunks, oneromRttVprintf ilp32 (format octalZeros) [.integer .int 8] = some chunks ∧
      chunks.flatten = bytes "00000010" := by
  have hcode : oneromRttVprintf ilp32 (format octalZeros) [.integer .int 8] =
      some [bytes "     010"] := by decide +kernel
  refine ⟨by decide +kernel, by decide +kernel, hcode, ?_⟩
  rintro ⟨chunks, hchunks, heq⟩
  obtain rfl := Option.some.inj (hcode.symm.trans hchunks)
  revert heq
  decide +kernel

/-- `%-*.3hhd|%#08x`, with a width of six. -/
theorem vprintf_plain :
    ∃ chunks, oneromRttVprintf ilp32
        (format [.conversion ⟨[.minus], .star, .number [3], .hh, .d⟩,
          .text (byte '|') (by decide) (by decide),
          .conversion ⟨[.alt, .zero], .number 8 [] (by decide), .omitted, .none, .x⟩])
        [.integer .int 6, .integer .int 0xFFFFFFFE, .integer .int 0xBEEF] = some chunks ∧
      chunks.flatten = bytes "-002  |0x00beef" := by
  refine (vprintf_iff ilp32 _ _ (by decide +kernel)).mpr fun f hf => ?_
  have hconv : f.conv = .d ∨ f.conv = .x := by
    revert f
    decide +kernel
  rintro (⟨ho, -⟩ | ⟨hs, -⟩)
  · rcases hconv with h | h <;> simp [h] at ho
  · rcases hconv with h | h <;> simp [h] at hs

end Formats

/-! ### The ring -/

section Ring

open OneRom.Rtt OneRom.RttFifo

/-- The writes of some chunks, each of which has found room in the ring. -/
def Writes (channel : UInt32) (chunks : List (List UInt8)) (ms : List (Made (List UInt8))) : Prop :=
  List.Forall₂ (fun chunk m =>
    m.call = .write channel (fun i => chunk.getD i 0) (UInt32.ofNat chunk.length) ∧
      m.answer = .wrote (UInt32.ofNat chunk.length)) chunks ms

lemma length_of_vprintf {t : Target} {fmt : List UInt8} {args : List Arg}
    {chunks : List (List UInt8)} (h : oneromRttVprintf t fmt args = some chunks) :
    ∀ chunk ∈ chunks, chunk.length ≤ ONEROM_RTT_PRINTF_BUFFER_SIZE := by
  obtain ⟨f, -, rfl⟩ := Option.map_eq_some_iff.mp h
  exact (fmtFlush f).chunks_le

lemma recordOf_chunk {chunk : List UInt8} (h : chunk.length ≤ ONEROM_RTT_PRINTF_BUFFER_SIZE) :
    recordOf (fun i => chunk.getD i 0) (UInt32.ofNat chunk.length) = chunk := by
  have hlen : (UInt32.ofNat chunk.length).toNat = chunk.length := by
    rw [UInt32.toNat_ofNat', Nat.mod_eq_of_lt]
    unfold ONEROM_RTT_PRINTF_BUFFER_SIZE at h
    omega
  rw [recordOf, hlen]
  refine List.ext_getElem (by simp) fun i hi hi' => ?_
  simp [List.getElem?_eq_getElem hi']

/-- Whatever the host does meanwhile, the bytes of the chunks are in the ring, or have been taken out
of it, after those that were there. -/
theorem ring_of_vprintf {t : Target} {fmt : List UInt8} {args : List Arg}
    {chunks : List (List UInt8)} {c : Channel} {channel : UInt32} {went : List UInt8}
    {s u : RttFifo.State} {ms : List (Made (List UInt8))}
    (h : oneromRttVprintf t fmt args = some chunks) (hc : ringOf channel = some c)
    (hs : Holds c went s) (hcalls : Calls (within c) (HostStep c) (note c) s ms u)
    (hwrites : Writes channel chunks ms) :
    u.2 ++ pendingBytes c u.1 = went ++ chunks.flatten := by
  have hlen := length_of_vprintf h
  have haccepted : ms.flatMap (accepted c) = chunks.flatten := by
    clear hcalls h
    induction hwrites with
    | nil => rfl
    | @cons chunk m chunks ms hm _ ih =>
      obtain ⟨call, trace, answer⟩ := m
      obtain ⟨rfl, rfl⟩ := hm
      have hchunk : accepted c ⟨.write channel (fun i => chunk.getD i 0) (UInt32.ofNat chunk.length),
          trace, .wrote (UInt32.ofNat chunk.length)⟩ = chunk := by
        rw [accepted, if_pos ⟨hc, rfl⟩, recordOf_chunk (hlen chunk List.mem_cons_self)]
      rw [List.flatMap_cons, hchunk, ih fun chunk h => hlen chunk (List.mem_cons_of_mem _ h),
        List.flatten_cons]
  rw [← haccepted]
  exact (calls_hold hcalls hs).1.kept

end Ring

end OneRom.FmtFormat
