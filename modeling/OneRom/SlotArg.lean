import OneRom.Checks
import OneRom.CsConfig
import OneRom.Signers

/-!
The values of a `--slot` argument's settings, each read from the text after its key.

A text is a list of characters. What a value is refused with is an error that names the argument
and quotes the whole of it.
-/

namespace OneRom.SlotArg

open OneRom.Checks OneRom.ChipTypes OneRom.CsConfig OneRom.Signers

abbrev Text : Type := List Char

inductive Error
  | invalidArgument (arg message : String)
  | unsupportedChipType (name supported : String)
  deriving DecidableEq, Repr

/-- An error about the argument `slot`, which is quoted after the message. -/
def slotError (slot : Text) (message : String) (hint : String := "") : Error :=
  .invalidArgument "--slot" (message ++ "\n    --slot '" ++ String.ofList slot ++ "'" ++ hint)

/-- A value, or the error where there is none. -/
def okOr {ε α : Type} (o : Option α) (e : ε) : Except ε α :=
  match o with
  | some v => .ok v
  | none => .error e

/-! ### Texts -/

/-- The text before the first `sep`, and the text after it. -/
def splitOnce (sep : Char) (text : Text) : Option (Text × Text) :=
  if sep ∈ text then
    some (text.takeWhile (· != sep), (text.dropWhile (· != sep)).tail)
  else none

def trim (text : Text) : Text :=
  ((text.dropWhile isWhitespace).reverse.dropWhile isWhitespace).reverse

/-- The text after `start`, where it starts so. -/
def stripPrefix (start text : Text) : Option Text :=
  if start <+: text then some (text.drop start.length) else none

/-- Letters outside ASCII are left as they are: none of them has a lower case that is in it. -/
def toLowercase (text : Text) : Text := text.map Char.toLower

/-- The value of a digit of a number to that base. -/
def digitValue (radix : ℕ) (c : Char) : Option ℕ :=
  let v := if c.isDigit then some (c.toNat - 48)
    else if 'a' ≤ c.toLower ∧ c.toLower ≤ 'z' then some (c.toLower.toNat - 87)
    else none
  v.filter (· < radix)

/-- A number of at least one digit, to that base, which may have a plus sign before it. -/
def fromStrRadix (radix max : ℕ) (text : Text) : Option ℕ := do
  let digits ← ((stripPrefix ['+'] text).getD text).mapM (digitValue radix)
  let n := digits.foldl (fun n d => n * radix + d) 0
  if digits ≠ [] ∧ n ≤ max then some n else none

def usizeMax : ℕ := 2 ^ 64 - 1

/-! ### Values -/

/-- The chip select logics, by the names they go by. -/
def csLogicNames : List (CsLogic × List String) :=
  [(.activeLow, ["active-low", "active_low", "0"]),
    (.activeHigh, ["active-high", "active_high", "1"]), (.ignore, ["ignore"])]

inductive SizeHandling
  | none
  | duplicate
  | truncate
  | pad
  deriving DecidableEq, Repr

def sizeHandlingNames : List (SizeHandling × List String) :=
  [(.none, ["none"]), (.duplicate, ["duplicate", "dup"]), (.truncate, ["truncate", "trunc"]),
    (.pad, ["pad"])]

inductive FileFormat
  | binary
  | intelHex
  | srec
  deriving DecidableEq, Repr

def fileFormatNames : List (FileFormat × List String) :=
  [(.binary, ["binary", "bin", "raw"]),
    (.intelHex, ["ihex", "intel_hex", "intel-hex", "intelhex", "hex"]),
    (.srec, ["srec", "s_record", "s-record", "srecord", "motorola", "s19"])]

def boolNames : List (Bool × List String) :=
  [(true, ["true", "on", "1"]), (false, ["false", "off", "0"])]

/-- What goes by the name `text`. -/
def named {α : Type} (names : List (α × List String)) (text : Text) : Option α :=
  (names.find? fun e => e.2.contains (String.ofList text)).map (·.1)

/-- The first name of each. -/
def supported {α : Type} (names : List (α × List String)) : List String :=
  names.filterMap (·.2.head?)

/-- The levels of the voltage regulator, by their codes. -/
def vregLevels : List String :=
  ["0.55V", "0.60V", "0.65V", "0.70V", "0.75V", "0.80V", "0.85V", "0.90V", "0.95V", "1.00V",
    "1.05V", "1.10V", "1.15V", "1.20V", "1.25V", "1.30V", "1.35V", "1.40V", "1.50V", "1.60V",
    "1.65V", "1.70V", "1.80V", "1.90V", "2.00V", "2.35V", "2.50V", "2.65V", "2.80V", "3.00V",
    "3.15V", "3.30V"]

/-- A voltage regulator setting is the code of its level. -/
abbrev FireVreg : Type := ℕ

def vregFromStr (text : Text) : Option FireVreg :=
  if String.ofList text = "Stock" then some 0xFF
  else vregLevels.findIdx? (· == String.ofList text)

def FireCpuFreq.MIN_MHZ : ℕ := 16
def FireCpuFreq.MAX_MHZ : ℕ := 800

inductive Transform
  | swapBytes
  | deinterleave (offset stride bytes : ℕ)
  deriving DecidableEq, Repr

/-- The other names each chip type goes by. -/
def aliases : ChipType → List String
  | .chip2316 => ["9316", "9316A"]
  | .chip2332 => ["9332", "4732"]
  | .chip2364 =>
    ["4764", "MCM68764", "MCM68A764", "MCM68364", "MCM68A364", "MM52164", "MK36000"]
  | .chip23128 => ["HN613128P"]
  | .chip231024 => ["TC531000", "23C1000", "23C1000A", "MX23C1000"]
  | .chip2732 => ["27C32"]
  | .chip2764 => ["27C64", "27LC64"]
  | .chip27128 => ["27C128", "27LC128"]
  | .chip27256 => ["27C256", "27LC256", "27SF256"]
  | .chip27512 => ["27C512", "27LC512", "27SF512"]
  | .chip27C301 => ["27C1000", "27C100"]
  | .chip23C1001 => ["D23C1001"]
  | .chip27C010 => ["27C1001", "27C1000A", "29F010", "39SF010", "SST39SF010"]
  | .chip27C020 => ["27C2001", "39SF020", "29F020", "SST39SF020"]
  | .chip27C040 => ["27C4001"]
  | .chipSST39SF040 => ["39SF040", "29F040"]
  | .chip27C080 => ["27C801"]
  | .chip27C200 => ["HN62402"]
  | .chip27C400 =>
    ["AT27C400", "M27C400", "23C4100", "MX23C4100", "TCS534200", "27C4100", "MX27C4100",
      "HN62404", "HN62424", "MB834200"]
  | .chip6116 => ["2016"]
  | _ => []

/-- The chip types, in the order their names are tried in. -/
def sortedChipTypes : List ChipType :=
  [.pioPlugin, .systemPlugin, .userPlugin, .chip2704, .chipHM7641, .chip2708, .chip2316,
    .chip2716, .chip28C16, .chip6116, .chip2332, .chip2732, .chip2364, .chip2764, .chip28C64,
    .chip23128, .chip27128, .chip23256, .chip27256, .chip28C256, .chip62256, .chip23QL384,
    .chip23512, .chip23QL512, .chip27512, .chip231024, .chip28C512, .chip23C1001, .chip23C1010,
    .chip27C010, .chip27C301, .chip27C020, .chip27C040, .chipSST39SF040, .chip27C080, .chip27C200,
    .chip27C200Pin31NC, .chip27C400, .chip27C400Pin31A17]

/-- The chip type of that name, or alias, in whichever case. -/
def chipTypeFromStr (text : Text) : Option ChipType :=
  sortedChipTypes.find? fun t =>
    (t.name :: aliases t).any fun name => toLowercase name.toList == toLowercase text

section

-- the argument, which errors quote
variable (slot : Text)

def parseCsLogic (key : String) (value : Text) : Except Error CsLogic :=
  okOr (named csLogicNames (toLowercase value))
    (.invalidArgument "--slot" ("Invalid CS logic '" ++ String.ofList value ++
      "': expected " ++ key ++ "=" ++ "|".intercalate (supported csLogicNames) ++
      "|0|1\n   --slot '" ++ String.ofList slot ++ "'"))

/-- `unquote` is what a text stands for between the quotes of a JSON string. -/
def parseSizeHandling (unquote : Text → Option Text) (value : Text) : Except Error SizeHandling :=
  okOr ((unquote value).bind (named sizeHandlingNames))
    (slotError slot ("Invalid size-handling '" ++ String.ofList value ++ "'")
      ("\n  Supported values: " ++ ", ".intercalate (supported sizeHandlingNames)))

def parseFormat (value : Text) : Except Error FileFormat :=
  okOr (named fileFormatNames (toLowercase value))
    (slotError slot ("Invalid format '" ++ String.ofList value ++ "'")
      ("\n  Supported values: " ++ ", ".intercalate (supported fileFormatNames)))

/-- Decimal, or hexadecimal after `$` or `0x`. -/
def loadAddressFromStr (text : Text) : Option ℕ :=
  match stripPrefix ['$'] text, (stripPrefix ['0', 'x'] text).or (stripPrefix ['0', 'X'] text) with
  | some digits, _ => fromStrRadix 16 usizeMax digits
  | none, some digits => fromStrRadix 16 usizeMax digits
  | none, none => fromStrRadix 10 usizeMax text

def parseLoadAddress (value : Text) : Except Error ℕ :=
  okOr (loadAddressFromStr (trim value))
    (slotError slot ("invalid load address '" ++ String.ofList (trim value) ++
      "': expected a decimal value or hexadecimal prefixed with 0x or $"))

def parseBool (key : String) (value : Text) : Except Error Bool :=
  okOr (named boolNames (toLowercase value))
    (slotError slot ("Invalid boolean '" ++ String.ofList (toLowercase value) ++
      "': expected " ++ key ++ "=true|false|on|off|1|0"))

/-- A whole number of MHz, with or without the unit after it. -/
def parseCpuFreq (key : String) (value : Text) : Except Error ℕ :=
  let digits :=
    if ['m', 'h', 'z'] <:+ toLowercase value then value.take (value.length - 3) else value
  match fromStrRadix 10 (2 ^ 16 - 1) digits with
  | none => .error (slotError slot ("Invalid CPU frequency '" ++ String.ofList value ++
      "': expected formats " ++ key ++ "=150|150MHz"))
  | some mhz =>
    if FireCpuFreq.MIN_MHZ ≤ mhz ∧ mhz ≤ FireCpuFreq.MAX_MHZ then .ok mhz
    else .error (slotError slot ("CPU frequency " ++ toString mhz ++ "MHz out of range (" ++
      toString FireCpuFreq.MIN_MHZ ++ "-" ++ toString FireCpuFreq.MAX_MHZ ++ "MHz)"))

/-- Volts to two decimal places, of which one may be left out, with or without the unit. -/
def parseVreg (unquote : Text → Option Text) (key : String) (value : Text) :
    Except Error FireVreg :=
  let stripped :=
    if value.getLast? = some 'v' ∨ value.getLast? = some 'V' then value.dropLast else value
  match splitOnce '.' stripped with
  | none => .error (slotError slot ("Invalid VReg '" ++ String.ofList value ++
      "': expected format " ++ key ++ "=1.1|1.10|1.10V"))
  | some (int, frac) =>
    let padded := frac ++ List.replicate (2 - frac.length) '0'
    if 2 < (String.ofList padded).utf8ByteSize then
      .error (slotError slot ("Invalid VReg '" ++ String.ofList value ++
        "': too many decimal places, max 2"))
    else
      okOr ((unquote (int ++ '.' :: padded ++ ['V'])).bind vregFromStr)
        (slotError slot ("Unsupported VReg '" ++ String.ofList value ++ "'")
          ("\n  Supported levels: " ++ ", ".intercalate vregLevels))

/-! ### Transforms -/

def badParameters (params : Text) (reason : String) : String :=
  "invalid transform parameters '" ++ String.ofList params ++ "': " ++ reason

def deinterleaveNumber (params value : Text) (what : String) : Except String ℕ :=
  okOr (fromStrRadix 10 usizeMax (trim value)) (badParameters params
    (what ++ " '" ++ String.ofList (trim value) ++ "' is not a number"))

def validateDeinterleave (offset stride bytes : ℕ) : Except String Unit := do
  refuse (bytes = 0)
    ("deinterleave lane width must be at least 1 byte, got " ++ toString bytes)
  refuse (stride < 2) ("deinterleave stride must be at least 2, got " ++ toString stride)
  refuse (stride ≤ offset) ("deinterleave offset must be less than the stride, got offset " ++
    toString offset ++ " with stride " ++ toString stride)
  refuse (usizeMax < bytes * stride) ("deinterleave lane width " ++ toString bytes ++
    " multiplied by stride " ++ toString stride ++ " overflows")

def deinterleaveOf (params offset stride : Text) (bytes : Option Text) :
    Except String Transform := do
  let offset ← deinterleaveNumber params (trim offset) "offset"
  let stride ← deinterleaveNumber params stride "stride"
  let bytes ← match bytes with
    | some bytes => deinterleaveNumber params bytes "bytes"
    | none => pure 1
  validateDeinterleave offset stride bytes
  pure (.deinterleave offset stride bytes)

/-- `<offset>/<stride>`, or `<offset>/<stride>/<bytes>` -/
def parseDeinterleave (params : Text) : Except String Transform :=
  match params.splitOn '/' with
  | [offset, stride] => deinterleaveOf params offset stride none
  | [offset, stride, bytes] => deinterleaveOf params offset stride (some bytes)
  | _ :: _ :: _ :: _ :: _ => .error (badParameters params
      "too many values, expected <offset>/<stride>[/<bytes>]")
  | _ => .error (badParameters params "expected <offset>/<stride>")

def swapBytesNames : List String := ["swap_bytes", "swap-bytes", "swapbytes"]
def deinterleaveNames : List String := ["deinterleave", "de_interleave", "de-interleave", "deint"]

/-- A transform's name, and its parameters after a colon. -/
def transformFromStr (text : Text) : Except String Transform :=
  let (name, params) := match splitOnce ':' text with
    | some (name, params) => (String.ofList (trim name), some (trim params))
    | none => (String.ofList (trim text), none)
  if name ∈ swapBytesNames then
    match params with
    | none => .ok .swapBytes
    | some _ => .error ("transform '" ++ name ++ "' does not take parameters")
  else if name ∈ deinterleaveNames then
    match params with
    | some params => parseDeinterleave params
    | none => .error
        ("transform '" ++ name ++ "' requires parameters, e.g. 'deinterleave:1/2'")
  else .error ("unknown transform '" ++ name ++
    "'\n  Supported: swap_bytes, deinterleave:<offset>/<stride>[/<bytes>]")

/-- Transforms with a plus sign between them. -/
def parseTransformList (text : Text) : Except String (List Transform) :=
  if trim text = [] then .ok [] else (text.splitOn '+').mapM transformFromStr

def parseTransform (value : Text) : Except Error (List Transform) :=
  (parseTransformList value).mapError (slotError slot ·)

end

/-! ### Results that the quoted argument has no part in -/

section

variable {α β : Type}

/-- The argument is only quoted: what `f` gives does not depend on it. -/
def QuotesOnly (f : Text → Except Error α) : Prop :=
  ∀ slot slot' v, f slot = .ok v → f slot' = .ok v

namespace QuotesOnly

lemma const (r : Except Error α) : QuotesOnly fun _ => r := fun _ _ _ h => h

lemma error (e : Text → Error) : QuotesOnly fun slot => (.error (e slot) : Except Error α) :=
  fun _ _ _ h => nomatch h

lemma bind {f : Text → Except Error α} {g : α → Text → Except Error β} (hf : QuotesOnly f)
    (hg : ∀ a, QuotesOnly (g a)) : QuotesOnly fun slot => f slot >>= fun a => g a slot := by
  intro slot slot' v h
  obtain ⟨a, ha, hv⟩ := bind_eq_ok.mp h
  exact bind_eq_ok.mpr ⟨a, hf slot slot' a ha, hg a slot slot' v hv⟩

lemma map {f : Text → Except Error α} (g : α → β) (hf : QuotesOnly f) :
    QuotesOnly fun slot => g <$> f slot := by
  intro slot slot' v h
  obtain ⟨a, ha, hv⟩ := map_eq_ok.mp h
  exact map_eq_ok.mpr ⟨a, hf slot slot' a ha, hv⟩

lemma refused (c : Prop) [Decidable c] (e : Text → Error) :
    QuotesOnly fun slot => Checks.refuse c (e slot) :=
  fun _ _ _ h => refuse_eq_ok.mpr (refuse_eq_ok.mp h)

lemma forM {f : Text → α → Except Error Unit} (hf : ∀ a, QuotesOnly fun slot => f slot a)
    (l : List α) : QuotesOnly fun slot => l.forM (f slot) :=
  fun slot slot' _ h => forM_eq_ok.mpr fun a ha => hf a slot slot' () (forM_eq_ok.mp h a ha)

lemma ite {c : Prop} [Decidable c] {f g : Text → Except Error α} (hf : QuotesOnly f)
    (hg : QuotesOnly g) : QuotesOnly fun slot => if c then f slot else g slot := by
  by_cases hc : c
  · simpa only [hc, if_true] using hf
  · simpa only [hc, if_false] using hg

/-- A value that may be missing, which is an error. -/
lemma option (o : Option α) (e : Text → Error) :
    QuotesOnly fun slot => okOr o (e slot) := by
  cases o
  · exact error e
  · exact const _

end QuotesOnly

open QuotesOnly

lemma quotesOnly_parseCsLogic (key : String) (value : Text) :
    QuotesOnly fun slot => parseCsLogic slot key value := option _ _

lemma quotesOnly_parseSizeHandling (unquote : Text → Option Text) (value : Text) :
    QuotesOnly fun slot => parseSizeHandling slot unquote value := option _ _

lemma quotesOnly_parseFormat (value : Text) : QuotesOnly fun slot => parseFormat slot value :=
  option _ _

lemma quotesOnly_parseLoadAddress (value : Text) :
    QuotesOnly fun slot => parseLoadAddress slot value := option _ _

lemma quotesOnly_parseBool (key : String) (value : Text) :
    QuotesOnly fun slot => parseBool slot key value := option _ _

lemma quotesOnly_parseCpuFreq (key : String) (value : Text) :
    QuotesOnly fun slot => parseCpuFreq slot key value := by
  unfold parseCpuFreq
  dsimp only
  split
  · exact error _
  · exact (const _).ite (error _)

lemma quotesOnly_parseVreg (unquote : Text → Option Text) (key : String) (value : Text) :
    QuotesOnly fun slot => parseVreg slot unquote key value := by
  unfold parseVreg
  dsimp only
  split
  · exact error _
  · exact (error _).ite (option _ _)

lemma quotesOnly_parseTransform (value : Text) :
    QuotesOnly fun slot => parseTransform slot value :=
  fun _ _ _ h => mapError_eq_ok.mpr (mapError_eq_ok.mp h)

end

end OneRom.SlotArg
