import OneRom.FmtDigits

/-!
The log's formatter.

What it writes is kept as the chunks that are handed to the ring. `written` is what they come to with
the bytes that haven't been flushed, and each function's lemma says what it adds to that.
-/

namespace OneRom.Fmt

open OneRom.FmtDigits
open OneRom.Printf (Arg IntType Target byte bytes signed unsigned)

/-! ### The buffer -/

def ONEROM_RTT_PRINTF_BUFFER_SIZE : ℕ := 64

/-- The chunks handed to `onerom_rtt_write`, and what is left in the buffer. -/
structure FmtState where
  buf : List UInt8
  chunks : List (List UInt8)
  buf_le : buf.length ≤ ONEROM_RTT_PRINTF_BUFFER_SIZE
  chunks_le : ∀ chunk ∈ chunks, chunk.length ≤ ONEROM_RTT_PRINTF_BUFFER_SIZE

def FmtState.empty : FmtState where
  buf := []
  chunks := []
  buf_le := Nat.zero_le _
  chunks_le := by simp

def fmtFlush (f : FmtState) : FmtState :=
  if f.buf.length ≠ 0 then
    { buf := []
      chunks := f.chunks ++ [f.buf]
      buf_le := Nat.zero_le _
      chunks_le := by
        intro chunk hchunk
        rcases List.mem_append.mp hchunk with h | h
        · exact f.chunks_le chunk h
        · exact List.mem_singleton.mp h ▸ f.buf_le }
  else f

lemma fmtFlush_room {f : FmtState} (h : ONEROM_RTT_PRINTF_BUFFER_SIZE ≤ f.buf.length) :
    (fmtFlush f).buf.length < ONEROM_RTT_PRINTF_BUFFER_SIZE := by
  have hpos : f.buf.length ≠ 0 := by
    unfold ONEROM_RTT_PRINTF_BUFFER_SIZE at h
    omega
  rw [fmtFlush, if_pos hpos]
  exact Nat.zero_lt_succ _

/-- A byte is put in the buffer where there is room for it. -/
def FmtState.push (f : FmtState) (c : UInt8)
    (h : f.buf.length < ONEROM_RTT_PRINTF_BUFFER_SIZE) : FmtState :=
  { f with
    buf := f.buf ++ [c]
    buf_le := by
      rw [List.length_append]
      exact h }

def fmtPutc (f : FmtState) (c : UInt8) : FmtState :=
  if h : ONEROM_RTT_PRINTF_BUFFER_SIZE ≤ f.buf.length then (fmtFlush f).push c (fmtFlush_room h)
  else f.push c (Nat.lt_of_not_le h)

/-- Bytes put one after the other. -/
def fmtPuts (f : FmtState) (s : List UInt8) : FmtState := s.foldl fmtPutc f

def fmtPad (f : FmtState) (c : UInt8) (count : ℤ) : FmtState :=
  fmtPuts f (List.replicate count.toNat c)

/-! ### The fields -/

structure FmtFlags where
  left : Bool
  zero : Bool
  alt : Bool
  plus : Bool
  space : Bool
  /-- The field is a pointer's, which has its base whatever its value. -/
  ptr : Bool

def fmtUnsignedFlags (flags : FmtFlags) : FmtFlags := { flags with plus := false, space := false }

/-- The digits of a number, none for a zero with no precision. -/
def numberDigits (value base : UInt64) (upper : Bool) (precision : ℤ) : List UInt8 :=
  if precision = 0 ∧ value = 0 then [] else fmtDigits value base upper

def leadSign (negative : Bool) (flags : FmtFlags) : List UInt8 :=
  if negative then bytes "-"
  else if flags.plus then bytes "+"
  else if flags.space then bytes " "
  else []

/-- The base, where the flags ask for it. -/
def leadBase (value base : UInt64) (upper : Bool) (flags : FmtFlags) : List UInt8 :=
  if flags.alt then
    if base = 16 ∧ (value ≠ 0 ∨ flags.ptr) then bytes (if upper then "0X" else "0x")
    else if base = 2 ∧ value ≠ 0 then bytes (if upper then "0B" else "0b")
    else []
  else []

/-- The precision, which a forced zero of an octal number raises. -/
def raised (digits : List UInt8) (base : UInt64) (flags : FmtFlags) (precision : ℤ) : ℤ :=
  if flags.alt ∧ base = 8 then
    if digits = [] then 1
    else if digits.getLast? ≠ some (byte '0') ∧ precision ≤ digits.length then digits.length + 1
    else precision
  else precision

def fmtNumber (f : FmtState) (value base : UInt64) (upper negative : Bool) (flags : FmtFlags)
    (width precision : ℤ) : FmtState :=
  let digits := numberDigits value base upper precision
  let ndigits : ℤ := digits.length
  let lead := leadSign negative flags ++ leadBase value base upper flags
  let precision := raised digits base flags precision
  let zeros := if 0 ≤ precision ∧ ndigits < precision then precision - ndigits else 0
  let pad := width - lead.length - zeros - ndigits
  let fill := 0 < pad ∧ flags.zero ∧ flags.left = false ∧ precision < 0
  let zeros := if fill then zeros + pad else zeros
  let pad := if fill then 0 else pad
  let f := if flags.left = false then fmtPad f (byte ' ') pad else f
  let f := fmtPuts f lead
  let f := fmtPad f (byte '0') zeros
  let f := fmtPuts f digits.reverse
  if flags.left then fmtPad f (byte ' ') pad else f

/-- The length of what is printed of a string: up to its null, or what a precision allows. -/
def stringLength (precision : ℤ) : List UInt8 → ℕ → ℕ
  | c :: rest, len =>
    if c ≠ 0 ∧ (precision < 0 ∨ (len : ℤ) < precision) then stringLength precision rest (len + 1)
    else len
  | [], len => len

/-- A field that isn't a number's. -/
def fmtText (f : FmtState) (s : List UInt8) (flags : FmtFlags) (width : ℤ) : FmtState :=
  let pad := width - s.length
  let f := if flags.left = false then fmtPad f (byte ' ') pad else f
  let f := fmtPuts f s
  if flags.left then fmtPad f (byte ' ') pad else f

def fmtString (f : FmtState) (s : Option (List UInt8)) (flags : FmtFlags) (width precision : ℤ) :
    FmtState :=
  let s := s.getD (bytes "(null)")
  fmtText f (s.take (stringLength precision s 0)) flags width

/-! ### The arguments -/

inductive FmtLen
  | int | char | short | long | llong | size
  deriving DecidableEq

/-- The bits of an argument of a type. -/
def vaInteger (type : IntType) : List Arg → Option (ℕ × List Arg)
  | .integer type' bits :: args => if type' = type then some (bits, args) else none
  | _ => none

def vaInt (t : Target) (args : List Arg) : Option (ℤ × List Arg) :=
  (vaInteger .int args).map fun (bits, args) => (signed (t.bits .int) bits, args)

/-- The bytes of a string in memory. A wide character has four, the least significant first. -/
def vaString : List Arg → Option (Option (List UInt8) × List Arg)
  | .string chars :: args => some (chars, args)
  | .wide chars :: args =>
    some (some (chars.flatMap fun c => (List.range 4).map fun n => UInt8.ofNat (c >>> (8 * n))), args)
  | _ => none

def vaPointer : List Arg → Option (UInt64 × List Arg)
  | .pointer address :: args => some (address, args)
  | _ => none

def vaDouble : List Arg → Option (List Arg)
  | .double :: args => some args
  | _ => none

def FmtLen.type : FmtLen → IntType
  | .long => .long
  | .llong => .longLong
  | .size => .size
  | _ => .int

/-- The bits that are kept of an argument. -/
def FmtLen.bits (t : Target) : FmtLen → ℕ
  | .char => 8
  | .short => 16
  | len => t.bits len.type

def fmtUarg (t : Target) (len : FmtLen) (args : List Arg) : Option (UInt64 × List Arg) :=
  (vaInteger len.type args).map fun (bits, args) =>
    (UInt64.ofNat (unsigned (len.bits t) bits), args)

def fmtSarg (t : Target) (len : FmtLen) (args : List Arg) : Option (ℤ × List Arg) :=
  (vaInteger len.type args).map fun (bits, args) => (signed (len.bits t) bits, args)

/-! ### The format -/

def fmtFlags : List UInt8 → FmtFlags → FmtFlags × List UInt8
  | c :: rest, flags =>
    if c = byte '-' then fmtFlags rest { flags with left := true }
    else if c = byte '0' then fmtFlags rest { flags with zero := true }
    else if c = byte '#' then fmtFlags rest { flags with alt := true }
    else if c = byte '+' then fmtFlags rest { flags with plus := true }
    else if c = byte ' ' then fmtFlags rest { flags with space := true }
    else (flags, c :: rest)
  | [], flags => (flags, [])

/-- A decimal number. The code's is an `int`. -/
def fmtDecimal : List UInt8 → ℤ → ℤ × List UInt8
  | c :: rest, n =>
    if byte '0' ≤ c ∧ c ≤ byte '9' then fmtDecimal rest (n * 10 + (c.toNat - (byte '0').toNat))
    else (n, c :: rest)
  | [], n => (n, [])

/-- The width, with the flags and what is left of the format and the arguments. -/
def fmtWidth (t : Target) (fmt : List UInt8) (args : List Arg) (flags : FmtFlags) :
    Option (FmtFlags × ℤ × List UInt8 × List Arg) :=
  if fmt.head? = some (byte '*') then
    (vaInt t args).map fun (width, args) =>
      if width < 0 then ({ flags with left := true }, -width, fmt.tail, args)
      else (flags, width, fmt.tail, args)
  else
    let (width, rest) := fmtDecimal fmt 0
    some (flags, width, rest, args)

def fmtPrecision (t : Target) (fmt : List UInt8) (args : List Arg) :
    Option (ℤ × List UInt8 × List Arg) :=
  if fmt.head? = some (byte '.') then
    let fmt := fmt.tail
    if fmt.head? = some (byte '*') then
      (vaInt t args).map fun (precision, args) => (precision, fmt.tail, args)
    else
      let (precision, rest) := fmtDecimal fmt 0
      some (precision, rest, args)
  else some (-1, fmt, args)

def fmtLength (fmt : List UInt8) : FmtLen × List UInt8 :=
  if fmt.head? = some (byte 'h') then
    if fmt.tail.head? = some (byte 'h') then (.char, fmt.tail.tail) else (.short, fmt.tail)
  else if fmt.head? = some (byte 'l') then
    if fmt.tail.head? = some (byte 'l') then (.llong, fmt.tail.tail) else (.long, fmt.tail)
  else if fmt.head? = some (byte 'z') then (.size, fmt.tail)
  else (.int, fmt)

/-- What isn't supported is shown. -/
def fmtRefused (f : FmtState) (conv : UInt8) : FmtState := fmtPuts f [byte '%', byte '!', conv]

def fmtUnsigned (t : Target) (f : FmtState) (args : List Arg) (len : FmtLen) (base : UInt64)
    (upper : Bool) (flags : FmtFlags) (width precision : ℤ) : Option (FmtState × List Arg) :=
  (fmtUarg t len args).map fun (value, args) =>
    (fmtNumber f value base upper false (fmtUnsignedFlags flags) width precision, args)

/-- The conversion of an argument. -/
def fmtConvert (t : Target) (f : FmtState) (conv : UInt8) (len : FmtLen) (flags : FmtFlags)
    (width precision : ℤ) (args : List Arg) : Option (FmtState × List Arg) :=
  if conv = byte 'd' ∨ conv = byte 'i' then
    (fmtSarg t len args).map fun (sv, args) =>
      let uv : UInt64 := if sv < 0 then -(UInt64.ofInt sv) else UInt64.ofInt sv
      (fmtNumber f uv 10 false (sv < 0) flags width precision, args)
  else if conv = byte 'u' then fmtUnsigned t f args len 10 false flags width precision
  else if conv = byte 'o' then fmtUnsigned t f args len 8 false flags width precision
  else if conv = byte 'x' then fmtUnsigned t f args len 16 false flags width precision
  else if conv = byte 'X' then fmtUnsigned t f args len 16 true flags width precision
  else if conv = byte 'b' then fmtUnsigned t f args len 2 false flags width precision
  else if conv = byte 'B' then fmtUnsigned t f args len 2 true flags width precision
  else if conv = byte 'c' then
    (vaInt t args).map fun (c, args) => (fmtText f [UInt8.ofInt c] flags width, args)
  else if conv = byte 's' then
    (vaString args).map fun (s, args) => (fmtString f s flags width precision, args)
  else if conv = byte 'p' then
    (vaPointer args).map fun (p, args) =>
      (fmtNumber f p 16 false false
        { fmtUnsignedFlags flags with alt := true, ptr := true } width precision, args)
  else if conv = byte '%' then some (fmtPutc f (byte '%'), args)
  else if conv ∈ bytes "fFeEgGaA" then (vaDouble args).map fun args => (fmtRefused f conv, args)
  else if conv = byte 'n' then (vaPointer args).map fun (_, args) => (fmtRefused f conv, args)
  else some (fmtRefused f conv, args)

/-- A directive, with what is left of the format. The format may end in it. -/
def fmtDirective (t : Target) (fmt : List UInt8) (args : List Arg) (f : FmtState) :
    Option (FmtState × List UInt8 × List Arg) :=
  let (flags, fmt) := fmtFlags fmt ⟨false, false, false, false, false, false⟩
  match fmtWidth t fmt args flags with
  | none => none
  | some (flags, width, fmt, args) =>
    match fmtPrecision t fmt args with
    | none => none
    | some (precision, fmt, args) =>
      match fmtLength fmt with
      | (_, []) => some (f, [], args)
      | (len, conv :: fmt) =>
        (fmtConvert t f conv len flags width precision args).map fun (f, args) => (f, fmt, args)

def vprintfLoop (t : Target) : ℕ → List UInt8 → List Arg → FmtState → Option FmtState
  | 0, _, _, _ => none
  | _ + 1, [], _, f => some f
  | fuel + 1, c :: fmt, args, f =>
    if c ≠ byte '%' then vprintfLoop t fuel fmt args (fmtPutc f c)
    else
      match fmtDirective t fmt args f with
      | none => none
      | some (f, fmt, args) => vprintfLoop t fuel fmt args f

/-- The chunks written for a format and its arguments. There are none where an argument isn't the one
that the format asks for. -/
def oneromRttVprintf (t : Target) (fmt : List UInt8) (args : List Arg) :
    Option (List (List UInt8)) :=
  (vprintfLoop t (fmt.length + 1) fmt args .empty).map fun f => (fmtFlush f).chunks

end OneRom.Fmt
