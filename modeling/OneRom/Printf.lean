import Mathlib

/-!
What C prescribes for `printf`, for conversions of integers, characters, strings and pointers.

A format is a list of pieces. `printf` gives the bytes of a format and its arguments where C defines
them, in the locale "C"; a pointer, whose form C leaves open, is `0x` and lower-case hex.
-/

namespace OneRom.Printf

/-- The byte of a character. -/
def byte (c : Char) : UInt8 := UInt8.ofNat c.toNat

def bytes (s : String) : List UInt8 := s.toList.map byte

/-! ### Formats -/

inductive Flag
  | minus | zero | alt | plus | space
  deriving DecidableEq, Repr

inductive Length
  | none | hh | h | l | ll | z
  deriving DecidableEq, Repr

inductive Conv
  | d | i | u | o | x | X | c | s | p
  deriving DecidableEq, Repr

/-- A width in the format doesn't begin with a zero, which is a flag. -/
inductive Width
  | omitted
  | star
  | number (first : Fin 10) (digits : List (Fin 10)) (ne : first ≠ 0)

/-- A precision in the format may be a period only. -/
inductive Precision
  | omitted
  | star
  | number (digits : List (Fin 10))

structure Conversion where
  flags : List Flag
  width : Width
  precision : Precision
  length : Length
  conv : Conv

inductive Piece
  | text (char : UInt8) (ne_nul : char ≠ 0) (ne_percent : char ≠ byte '%')
  | percent
  | conversion (c : Conversion)

def Flag.byte : Flag → UInt8
  | .minus => Printf.byte '-'
  | .zero => Printf.byte '0'
  | .alt => Printf.byte '#'
  | .plus => Printf.byte '+'
  | .space => Printf.byte ' '

def Length.bytes : Length → List UInt8
  | .none => []
  | .hh => Printf.bytes "hh"
  | .h => Printf.bytes "h"
  | .l => Printf.bytes "l"
  | .ll => Printf.bytes "ll"
  | .z => Printf.bytes "z"

def Conv.byte : Conv → UInt8
  | .d => Printf.byte 'd'
  | .i => Printf.byte 'i'
  | .u => Printf.byte 'u'
  | .o => Printf.byte 'o'
  | .x => Printf.byte 'x'
  | .X => Printf.byte 'X'
  | .c => Printf.byte 'c'
  | .s => Printf.byte 's'
  | .p => Printf.byte 'p'

def decimalByte (d : Fin 10) : UInt8 := UInt8.ofNat (48 + d)

def Width.bytes : Width → List UInt8
  | .omitted => []
  | .star => Printf.bytes "*"
  | .number first digits _ => (first :: digits).map decimalByte

def Precision.bytes : Precision → List UInt8
  | .omitted => []
  | .star => Printf.bytes ".*"
  | .number digits => byte '.' :: digits.map decimalByte

def Conversion.bytes (c : Conversion) : List UInt8 :=
  byte '%' :: (c.flags.map Flag.byte ++ (c.width.bytes ++ (c.precision.bytes ++
    (c.length.bytes ++ [c.conv.byte]))))

def Piece.bytes : Piece → List UInt8
  | .text char _ _ => [char]
  | .percent => Printf.bytes "%%"
  | .conversion c => c.bytes

/-- The format string, without the null that ends it. -/
def format (pieces : List Piece) : List UInt8 := pieces.flatMap Piece.bytes

/-! ### Arguments -/

inductive IntType
  | int | long | longLong | size
  deriving DecidableEq, Repr

/-- The sizes that differ between targets. An `int` has 32 bits, and a `long long` 64. -/
structure Target where
  longBits : ℕ
  sizeBits : ℕ
  longBits_pos : 0 < longBits
  longBits_le : longBits ≤ 64
  sizeBits_pos : 0 < sizeBits
  sizeBits_le : sizeBits ≤ 64

def Target.bits (t : Target) : IntType → ℕ
  | .int => 32
  | .long => t.longBits
  | .longLong => 64
  | .size => t.sizeBits

/-- An argument. An integer is its bits, as the signed and the unsigned type share them; a string is
what its array holds up to a null that follows. No conversion here takes a double. -/
inductive Arg
  | integer (type : IntType) (bits : ℕ)
  | double
  | pointer (address : UInt64)
  | string (chars : Option (List UInt8))
  | wide (chars : List ℕ)

/-- Bits read as a signed type's. -/
def signed (width bits : ℕ) : ℤ := (bits : ℤ).bmod (2 ^ width)

def unsigned (width bits : ℕ) : ℕ := bits % 2 ^ width

/-- The type of an integer conversion's argument. -/
def Length.type : Length → IntType
  | .none | .hh | .h => .int
  | .l => .long
  | .ll => .longLong
  | .z => .size

/-- The bits of a converted value: those of its argument, or of the narrower type. -/
def Length.bits (t : Target) : Length → ℕ
  | .hh => 8
  | .h => 16
  | length => t.bits length.type

/-! ### Fields -/

/-- A conversion with its argument, and with the width and the precision that are given. -/
structure Field where
  flags : List Flag
  width : ℕ
  precision : Option ℕ
  length : Length
  conv : Conv
  arg : Arg

/-- What an asterisk takes. -/
def starArg : List Arg → Option (ℤ × List Arg)
  | .integer .int bits :: args => some (signed 32 bits, args)
  | _ => none

def decimal (digits : List (Fin 10)) : ℕ :=
  digits.foldl (fun (n : ℕ) (d : Fin 10) => n * 10 + d) 0

/-- The width, with a minus flag where the argument is negative. -/
def Width.resolve (args : List Arg) : Width → Option (List Flag × ℕ × List Arg)
  | .omitted => some ([], 0, args)
  | .star => (starArg args).map fun (n, args) =>
    (if n < 0 then [.minus] else [], n.natAbs, args)
  | .number first digits _ => some ([], decimal (first :: digits), args)

/-- The precision. A negative argument is as if it were omitted. -/
def Precision.resolve (args : List Arg) : Precision → Option (Option ℕ × List Arg)
  | .omitted => some (none, args)
  | .star => (starArg args).map fun (n, args) => (if n < 0 then none else some n.toNat, args)
  | .number digits => some (some (decimal digits), args)

def Conversion.resolve (c : Conversion) (args : List Arg) : Option (Field × List Arg) :=
  match c.width.resolve args with
  | none => none
  | some (minus, width, args) =>
    match c.precision.resolve args with
    | some (precision, arg :: args) =>
      some (⟨minus ++ c.flags, width, precision, c.length, c.conv, arg⟩, args)
    | _ => none

def Conv.IsInteger (conv : Conv) : Prop :=
  conv = .d ∨ conv = .i ∨ conv = .u ∨ conv = .o ∨ conv = .x ∨ conv = .X

instance (conv : Conv) : Decidable conv.IsInteger := by
  unfold Conv.IsInteger
  infer_instance

def Conv.base : Conv → ℕ
  | .o => 8
  | .x | .X => 16
  | _ => 10

def digit (upper : Bool) (d : ℕ) : UInt8 :=
  UInt8.ofNat (if d < 10 then 48 + d else if upper then 55 + d else 87 + d)

/-- The digits of a number, none for zero. -/
def numeral (base : ℕ) (upper : Bool) (n : ℕ) : List UInt8 :=
  (Nat.digits base n).reverse.map (digit upper)

/-- Digits, with as many zeros before them as a precision asks for. -/
def atLeast (precision : ℕ) (digits : List UInt8) : List UInt8 :=
  List.replicate (precision - digits.length) (byte '0') ++ digits

/-- An alternative octal form has one digit more where its first isn't a zero. -/
def forceZero (digits : List UInt8) : List UInt8 :=
  if digits.head? = some (byte '0') then digits else byte '0' :: digits

namespace Field

variable (f : Field)

/-- The flags, precisions and lengths that C defines for a conversion. -/
def Defined : Prop :=
  (.alt ∈ f.flags → f.conv = .o ∨ f.conv = .x ∨ f.conv = .X) ∧
  (.zero ∈ f.flags → f.conv.IsInteger) ∧
  (f.precision ≠ none → f.conv.IsInteger ∨ f.conv = .s) ∧
  (f.length = .none ∨ f.conv.IsInteger ∨ f.length = .l ∧ (f.conv = .c ∨ f.conv = .s))

instance : Decidable f.Defined := by
  unfold Defined
  infer_instance

/-- A sign or a base, and the rest, in a field of the width. The zeros of a zero flag come between
them, and none come where there is a precision. -/
def padded (lead body : List UInt8) : List UInt8 :=
  let n := f.width - (lead ++ body).length
  if .minus ∈ f.flags then lead ++ body ++ List.replicate n (byte ' ')
  else if .zero ∈ f.flags ∧ f.precision = none then lead ++ List.replicate n (byte '0') ++ body
  else List.replicate n (byte ' ') ++ lead ++ body

/-- The value of an integer conversion. -/
def value (t : Target) (bits : ℕ) : ℤ :=
  match f.conv with
  | .d | .i => signed (f.length.bits t) bits
  | _ => unsigned (f.length.bits t) bits

/-- What comes before an integer's digits. -/
def lead (value : ℤ) : List UInt8 :=
  match f.conv with
  | .d | .i =>
    if value < 0 then bytes "-"
    else if .plus ∈ f.flags then bytes "+"
    else if .space ∈ f.flags then bytes " "
    else []
  | .x => if .alt ∈ f.flags ∧ value ≠ 0 then bytes "0x" else []
  | .X => if .alt ∈ f.flags ∧ value ≠ 0 then bytes "0X" else []
  | _ => []

/-- An integer's digits. The precision is one where it isn't given. -/
def body (value : ℤ) : List UInt8 :=
  let digits := atLeast (f.precision.getD 1) (numeral f.conv.base (f.conv = .X) value.natAbs)
  if f.conv = .o ∧ .alt ∈ f.flags then forceZero digits else digits

/-- The characters of an array up to its null, or as many as a precision allows. -/
def chars {α : Type} [DecidableEq α] [Zero α] (array : List α) : List α :=
  let string := array.takeWhile (· ≠ 0)
  match f.precision with
  | none => string
  | some n => string.take n

/-- The bytes of a field, where C defines them. -/
def text (t : Target) : Option (List UInt8) :=
  if ¬f.Defined then none
  else
    match f.conv, f.arg with
    | .c, .integer .int bits =>
      if f.length = .l ∧ 128 ≤ unsigned 32 bits then none
      else some (f.padded [] [UInt8.ofNat bits])
    | .s, .string (some array) =>
      if f.length = .l then none else some (f.padded [] (f.chars array))
    | .s, .wide array =>
      if f.length = .l ∧ ∀ c ∈ f.chars array, c < 128 then
        some (f.padded [] ((f.chars array).map UInt8.ofNat))
      else none
    | .p, .pointer address => some (f.padded (bytes "0x") (atLeast 1 (numeral 16 false address.toNat)))
    | conv, .integer type bits =>
      if conv.IsInteger ∧ type = f.length.type then
        some (f.padded (f.lead (f.value t bits)) (f.body (f.value t bits)))
      else none
    | _, _ => none

end Field

/-- The bytes of a format with its arguments, where C defines them. Arguments may be left over. -/
def printf (t : Target) : List Piece → List Arg → Option (List UInt8)
  | [], _ => some []
  | .text char _ _ :: pieces, args => (printf t pieces args).map (char :: ·)
  | .percent :: pieces, args => (printf t pieces args).map (byte '%' :: ·)
  | .conversion c :: pieces, args =>
    match c.resolve args with
    | none => none
    | some (f, args) =>
      match f.text t, printf t pieces args with
      | some text, some rest => some (text ++ rest)
      | _, _ => none

/-- The fields of a format with its arguments. -/
def fields : List Piece → List Arg → List Field
  | [], _ => []
  | .text _ _ _ :: pieces, args => fields pieces args
  | .percent :: pieces, args => fields pieces args
  | .conversion c :: pieces, args =>
    match c.resolve args with
    | none => []
    | some (f, args) => f :: fields pieces args

end OneRom.Printf
