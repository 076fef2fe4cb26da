import OneRom.Signers

/-!
The signing server's records. The public record has a line for each signature, which is its hash,
and the private record one for each request that was signed, which is a JSON object. A line is added
at the end of its key's file, on a line of its own.
-/

namespace OneRom.RecordFile

open OneRom.Signers

/-! ### Lines -/

inductive RequestType
  | live
  | dryRun
  deriving DecidableEq

/-- A line of the private record. -/
structure PrivateLine where
  request : RequestType
  chipId : Vector UInt16 4
  /-- The board's canonical name. -/
  board : String
  manufacturer : String
  date : String
  signature : Vector UInt8 64
  deriving DecidableEq

/-- A line of the public record. -/
structure RecordLine where
  hash : Vector UInt8 32
  deriving DecidableEq

def RecordLine.new (sha256 : List UInt8 → Vector UInt8 32) (signature : Vector UInt8 64) :
    RecordLine := ⟨sha256 signature.toList⟩

def RecordLine.text (line : RecordLine) : List Char := hex line.hash.toList

/-! ### JSON -/

def quote : Char := Char.ofNat 34
def backslash : Char := Char.ofNat 92

/-- The escapes that have a letter. -/
def escapes : List (Char × Char) :=
  [(quote, quote), (backslash, backslash), (Char.ofNat 8, 'b'), (Char.ofNat 9, 't'),
    (Char.ofNat 10, 'n'), (Char.ofNat 12, 'f'), (Char.ofNat 13, 'r')]

def jsonChar (c : Char) : List Char :=
  match escapes.find? (·.1 == c) with
  | some (_, letter) => [backslash, letter]
  | none =>
    if c.toNat < 32 then
      [backslash, 'u', '0', '0', digitOf (c.toNat / 16), digitOf (c.toNat % 16)]
    else [c]

def jsonString (cs : List Char) : List Char := quote :: cs.flatMap jsonChar ++ [quote]

/-- A digit of an upper case hexadecimal number. -/
def upperDigit (n : ℕ) : Char := Char.ofNat (if n < 10 then 48 + n else 55 + n)

/-- The hexadecimal digits of a row. -/
def rowDigits (row : UInt16) : List ℕ :=
  [row.toNat / 4096, row.toNat / 256 % 16, row.toNat / 16 % 16, row.toNat % 16]

/-- A CHIPID, the last row first. -/
def formatChipId (chipId : Vector UInt16 4) : List Char :=
  (chipId.toList.reverse.flatMap rowDigits).map upperDigit

def RequestType.text : RequestType → List Char
  | .live => "live".toList
  | .dryRun => "dry-run".toList

/-- The fields of a line, in order. -/
def PrivateLine.fields (line : PrivateLine) : List (List Char × List Char) :=
  [("request".toList, line.request.text), ("chip_id".toList, formatChipId line.chipId),
    ("board".toList, line.board.toList), ("manufacturer".toList, line.manufacturer.toList),
    ("date".toList, line.date.toList), ("signature".toList, hex line.signature.toList)]

def jsonField (field : List Char × List Char) : List Char :=
  jsonString field.1 ++ ':' :: jsonString field.2

def jsonFields : List (List Char × List Char) → List Char
  | [] => []
  | [field] => jsonField field
  | field :: fields => jsonField field ++ ',' :: jsonFields fields

def jsonObject (fields : List (List Char × List Char)) : List Char :=
  Char.ofNat 123 :: (jsonFields fields ++ [Char.ofNat 125])

def PrivateLine.text (line : PrivateLine) : List Char := jsonObject line.fields

/-! ### Files -/

/-- The lines of a file, without their newlines. The last need not end in one. -/
def fileLines : List Char → List (List Char) :=
  go []
where
  /-- From within a line, of which `line` has been read, last character first. -/
  go (line : List Char) : List Char → List (List Char)
    | [] => if line = [] then [] else [line.reverse]
    | c :: cs => if c = '\n' then line.reverse :: go [] cs else go (c :: line) cs

/-- A file with a line added, on a line of its own. -/
def appended (text line : List Char) : List Char :=
  (if text ≠ [] ∧ text.getLast? ≠ some '\n' then text ++ ['\n'] else text) ++ (line ++ ['\n'])

/-- What a record's lines are written and read as. -/
structure Format (α : Type) where
  text : α → List Char
  parse : List Char → Option α
  parse_text : ∀ line, parse (text line) = some line
  newline : ∀ line, '\n' ∉ text line

section Files

variable {α : Type}

/-- The lines of a file, or the number of the first that isn't one. Blank lines are skipped. -/
def Format.parseFile (format : Format α) (text : List Char) : Except ℕ (List α) :=
  ((lines text).zipIdx.filter fun (line, _) => !line.all isWhitespace).mapM fun (line, i) =>
    match format.parse line with
    | some line => .ok line
    | none => .error (i + 1)

/-- A line of the file reads as `line`, with or without a carriage return before its newline. -/
def Format.Holds (format : Format α) (text : List Char) (line : α) : Prop :=
  ∃ raw ∈ fileLines text, format.parse raw = some line ∨ format.parse (stripCr raw) = some line

end Files

/-! ### Adding a line -/

lemma go_newline (cs : List Char) : ∀ (text line : List Char),
    fileLines.go line (text ++ '\n' :: cs) = fileLines.go line (text ++ ['\n']) ++ fileLines cs
  | [], line => by simp [fileLines.go, fileLines]
  | c :: text, line => by
    rw [List.cons_append, List.cons_append, fileLines.go, fileLines.go]
    split_ifs
    · rw [go_newline cs text, List.cons_append]
    · exact go_newline cs text _

lemma go_unfinished : ∀ (text line : List Char), text.getLast? ≠ some '\n' →
    (text = [] → line ≠ []) → fileLines.go line (text ++ ['\n']) = fileLines.go line text
  | [], line, _, hne => by simp [fileLines.go, hne rfl]
  | c :: text, line, hlast, _ => by
    rw [List.cons_append, fileLines.go, fileLines.go]
    by_cases htext : text = []
    · subst htext
      have hc : c ≠ '\n' := by simpa using hlast
      simp [hc, fileLines.go]
    · have hlast' : text.getLast? ≠ some '\n' := by
        rwa [List.getLast?_cons_of_ne_nil htext] at hlast
      split_ifs
      · rw [go_unfinished text [] hlast' fun h => absurd h htext]
      · exact go_unfinished text _ hlast' fun h => absurd h htext

lemma go_line : ∀ (text line : List Char), '\n' ∉ text →
    fileLines.go line (text ++ ['\n']) = [line.reverse ++ text]
  | [], line, _ => by simp [fileLines.go]
  | c :: text, line, h => by
    rw [List.mem_cons, not_or] at h
    rw [List.cons_append, fileLines.go, if_neg (Ne.symm h.1), go_line text _ h.2]
    simp

/-- The line added is the file's last, and the others are as they were. -/
theorem fileLines_appended {text line : List Char} (h : '\n' ∉ line) :
    fileLines (appended text line) = fileLines text ++ [line] := by
  have hline : fileLines (line ++ ['\n']) = [line] := go_line line [] h
  unfold appended
  split_ifs with hopen
  · rw [List.append_assoc, List.singleton_append]
    exact (go_newline _ text []).trans
      (congrArg₂ _ (go_unfinished text [] hopen.2 fun h => absurd h hopen.1) hline)
  · rw [← hline]
    rcases List.eq_nil_or_concat text with rfl | ⟨text, c, rfl⟩
    · rfl
    · obtain rfl : c = '\n' := by simpa using hopen
      rw [List.concat_eq_append, List.append_assoc, List.singleton_append]
      exact go_newline _ text []

/-! ### Reading lines -/

lemma raw_of_line {line : List Char} : ∀ (text read : List Char), line ∈ lines.go read text →
    ∃ raw ∈ fileLines.go read text, line = raw ∨ line = stripCr raw
  | [], read, h => by
    rw [lines.go] at h
    rw [fileLines.go]
    exact ⟨line, h, .inl rfl⟩
  | c :: text, read, h => by
    rw [lines.go] at h
    rw [fileLines.go]
    split_ifs at h ⊢
    · rcases List.mem_cons.mp h with rfl | h
      · exact ⟨_, List.mem_cons_self, .inr rfl⟩
      · obtain ⟨raw, hraw, hline⟩ := raw_of_line text [] h
        exact ⟨raw, List.mem_cons_of_mem _ hraw, hline⟩
    · exact raw_of_line text _ h

/-- A line that is read is one that the file holds. -/
lemma Format.holds_of_parseFile {α : Type} {format : Format α} {text : List Char} {ls : List α}
    (h : format.parseFile text = .ok ls) {line : α} (hmem : line ∈ ls) :
    format.Holds text line := by
  have hall := Checks.mapM_eq_ok h
  obtain ⟨i, hi, rfl⟩ := List.mem_iff_getElem.mp hmem
  have hline := hall.get (by rw [hall.length_eq]; exact hi) hi
  generalize hentry : List.get _ _ = entry at hline
  obtain ⟨raw, number⟩ := entry
  dsimp only at hline
  split at hline
  · next line' hparse =>
    obtain rfl := Except.ok.inj hline
    have hin := List.fst_mem_of_mem_zipIdx (List.mem_of_mem_filter (hentry ▸ List.get_mem _ _))
    obtain ⟨raw', hraw', heq | heq⟩ := raw_of_line text [] hin
    · exact ⟨raw', hraw', .inl (heq ▸ hparse)⟩
    · exact ⟨raw', hraw', .inr (heq ▸ hparse)⟩
  · cases hline

lemma Format.Holds.mono {α : Type} {format : Format α} {text text' : List Char} {line : α}
    (h : format.Holds text line) (hlines : (fileLines text).Sublist (fileLines text')) :
    format.Holds text' line := by
  obtain ⟨raw, hraw, hparse⟩ := h
  exact ⟨raw, hlines.subset hraw, hparse⟩

/-! ### The formats -/

lemma digitVal_digitOf : ∀ n < 16, digitVal (digitOf n) = some n := by decide

lemma unhex_hex : ∀ bs : List UInt8, unhex (hex bs) = some bs
  | [] => rfl
  | b :: bs => by
    have hb := b.toNat_lt
    have ih := unhex_hex bs
    have hval : UInt8.ofNat (16 * (b.toNat / 16) + b.toNat % 16) = b := by
      rw [Nat.div_add_mod, UInt8.ofNat_toNat]
    rw [hex, List.flatMap_cons, List.cons_append, List.cons_append, unhex,
      digitVal_digitOf _ (by omega), digitVal_digitOf _ (by omega), List.nil_append]
    change (unhex (hex bs)).bind _ = _
    rw [ih]
    exact congrArg some (congrArg (· :: bs) hval)

lemma newline_hex (bs : List UInt8) : '\n' ∉ hex bs := by
  have hdigit : ∀ n < 16, digitOf n ≠ '\n' := by decide
  intro h
  obtain ⟨b, -, hb⟩ := List.mem_flatMap.mp h
  have := b.toNat_lt
  rcases List.mem_cons.mp hb with heq | hb
  · exact hdigit _ (by omega) heq.symm
  · exact hdigit _ (by omega) (List.mem_singleton.mp hb).symm

def recordFormat : Format RecordLine where
  text := RecordLine.text
  parse line := (parseRecordLine line).map RecordLine.mk
  parse_text line := by
    rw [RecordLine.text, parseRecordLine, unhex_hex]
    simp [Vector.toList]
  newline line := newline_hex _

lemma newline_jsonChar (c : Char) : '\n' ∉ jsonChar c := by
  have hletter : ∀ e ∈ escapes, '\n' ∉ [backslash, e.2] := by decide
  have hdigit : ∀ n < 32,
      '\n' ∉ [backslash, 'u', '0', '0', digitOf (n / 16), digitOf (n % 16)] := by
    decide
  unfold jsonChar
  split
  · next letter hfind => exact hletter _ (List.mem_of_find?_eq_some hfind)
  · split_ifs with hcontrol
    · exact hdigit _ hcontrol
    · rw [List.mem_singleton]
      rintro rfl
      exact hcontrol (by decide)

lemma newline_jsonString (cs : List Char) : '\n' ∉ jsonString cs := by
  intro h
  rcases List.mem_cons.mp h with heq | h
  · exact absurd heq (by decide)
  rcases List.mem_append.mp h with h | h
  · obtain ⟨c, -, hc⟩ := List.mem_flatMap.mp h
    exact newline_jsonChar c hc
  · exact absurd (List.mem_singleton.mp h) (by decide)

lemma newline_jsonField (field : List Char × List Char) : '\n' ∉ jsonField field := by
  intro h
  rcases List.mem_append.mp h with h | h
  · exact newline_jsonString _ h
  rcases List.mem_cons.mp h with heq | h
  · exact absurd heq (by decide)
  · exact newline_jsonString _ h

lemma newline_jsonFields (fields : List (List Char × List Char)) : '\n' ∉ jsonFields fields := by
  induction fields using jsonFields.induct with
  | case1 => simp [jsonFields]
  | case2 field => exact newline_jsonField field
  | case3 field fields hne ih =>
    rw [jsonFields.eq_3 _ _ hne]
    intro h
    rcases List.mem_append.mp h with h | h
    · exact newline_jsonField _ h
    rcases List.mem_cons.mp h with heq | h
    · exact absurd heq (by decide)
    · exact ih h

lemma PrivateLine.newline (line : PrivateLine) : '\n' ∉ line.text := by
  intro h
  rcases List.mem_cons.mp h with heq | h
  · exact absurd heq (by decide)
  rcases List.mem_append.mp h with h | h
  · exact newline_jsonFields _ h
  · exact absurd (List.mem_singleton.mp h) (by decide)

/-- The private record's format, for a reader that takes back what was written. -/
def privateFormat (fromStr : List Char → Option PrivateLine)
    (h : ∀ line, fromStr line.text = some line) : Format PrivateLine :=
  ⟨PrivateLine.text, fromStr, h, PrivateLine.newline⟩

/-! ### Reading JSON -/

/-- Where a scan for an object's strings is: outside of one, or in one with what was read of it,
last character first. -/
inductive Scan
  | outside
  | inside (read : List Char)
  | escape (read : List Char)
  | unicode (read : List Char) (digits value : ℕ)
  deriving DecidableEq

/-- What an escape's letter stands for. -/
def unescape (letter : Char) : Char :=
  match escapes.find? (·.2 == letter) with
  | some (c, _) => c
  | none => letter

/-- The strings scanned, the last one first. -/
def scanChar (s : Scan × List (List Char)) (c : Char) : Scan × List (List Char) :=
  match s.1 with
  | .outside => if c = quote then (.inside [], s.2) else s
  | .inside read =>
    if c = quote then (.outside, read.reverse :: s.2)
    else if c = backslash then (.escape read, s.2)
    else (.inside (c :: read), s.2)
  | .escape read =>
    if c = 'u' then (.unicode read 0 0, s.2) else (.inside (unescape c :: read), s.2)
  | .unicode read digits value =>
    let value := 16 * value + (digitVal c).getD 0
    if digits = 3 then (.inside (Char.ofNat value :: read), s.2)
    else (.unicode read (digits + 1) value, s.2)

def scan (s : Scan × List (List Char)) (cs : List Char) : Scan × List (List Char) :=
  cs.foldl scanChar s

lemma scan_append (s : Scan × List (List Char)) (cs ds : List Char) :
    scan s (cs ++ ds) = scan (scan s cs) ds := List.foldl_append

lemma scan_jsonChar (c : Char) (read : List Char) (out : List (List Char)) :
    scan (.inside read, out) (jsonChar c) = (.inside (c :: read), out) := by
  unfold jsonChar
  split
  · next c' letter hfind =>
    obtain rfl : c' = c := by simpa using List.find?_some hfind
    have hmem := List.mem_of_find?_eq_some hfind
    simp only [escapes, List.mem_cons, Prod.mk.injEq, List.not_mem_nil, or_false] at hmem
    rcases hmem with ⟨rfl, rfl⟩ | ⟨rfl, rfl⟩ | ⟨rfl, rfl⟩ | ⟨rfl, rfl⟩ | ⟨rfl, rfl⟩ | ⟨rfl, rfl⟩ |
      ⟨rfl, rfl⟩ <;> rfl
  · next hfind =>
    split_ifs with hcontrol
    · have hdigits : ∀ n < 32, scan (.inside read, out)
          [backslash, 'u', '0', '0', digitOf (n / 16), digitOf (n % 16)] =
          (.inside (Char.ofNat n :: read), out) := by
        intro n hn
        interval_cases n <;> rfl
      rw [hdigits _ hcontrol, Char.ofNat_toNat]
    · have hne := List.find?_eq_none.mp hfind
      have hquote : c ≠ quote := fun h => hne (quote, quote) (by decide) (by simp [h])
      have hbackslash : c ≠ backslash := fun h =>
        hne (backslash, backslash) (by decide) (by simp [h])
      simp [scan, scanChar, hquote, hbackslash]

lemma scan_jsonChars (cs read : List Char) (out : List (List Char)) :
    scan (.inside read, out) (cs.flatMap jsonChar) = (.inside (cs.reverse ++ read), out) := by
  induction cs generalizing read with
  | nil => rfl
  | cons c cs ih => rw [List.flatMap_cons, scan_append, scan_jsonChar, ih]; simp

lemma scan_jsonString (cs : List Char) (out : List (List Char)) :
    scan (.outside, out) (jsonString cs) = (.outside, cs :: out) := by
  change scan (.inside [], out) (cs.flatMap jsonChar ++ [quote]) = _
  rw [scan_append, scan_jsonChars, List.append_nil]
  simp [scan, scanChar]

lemma scan_jsonField (field : List Char × List Char) (out : List (List Char)) :
    scan (.outside, out) (jsonField field) = (.outside, field.2 :: field.1 :: out) := by
  rw [jsonField, scan_append, scan_jsonString]
  exact scan_jsonString field.2 _

lemma scan_jsonFields (fields : List (List Char × List Char)) (out : List (List Char)) :
    scan (.outside, out) (jsonFields fields) =
      (.outside, (fields.flatMap fun field => [field.1, field.2]).reverse ++ out) := by
  induction fields using jsonFields.induct generalizing out with
  | case1 => rfl
  | case2 field => rw [jsonFields, scan_jsonField]; rfl
  | case3 field fields hne ih =>
    rw [jsonFields.eq_3 _ _ hne, scan_append, scan_jsonField]
    refine (ih _).trans ?_
    simp

/-- The strings of an object, in order. -/
def strings (cs : List Char) : List (List Char) := (scan (.outside, []) cs).2.reverse

lemma strings_jsonObject (fields : List (List Char × List Char)) :
    strings (jsonObject fields) = fields.flatMap fun field => [field.1, field.2] := by
  have hscan : scan (.outside, []) (jsonObject fields) =
      (.outside, (fields.flatMap fun field => [field.1, field.2]).reverse) := by
    change scan (.outside, []) (jsonFields fields ++ [Char.ofNat 125]) = _
    rw [scan_append, scan_jsonFields, List.append_nil]
    rfl
  rw [strings, hscan, List.reverse_reverse]

/-! ### Reading a private line -/

def upperVal (c : Char) : Option ℕ :=
  if 48 ≤ c.toNat ∧ c.toNat ≤ 57 then some (c.toNat - 48)
  else if 65 ≤ c.toNat ∧ c.toNat ≤ 70 then some (c.toNat - 55)
  else none

/-- The row that four digits are. -/
def rowOf (digits : List ℕ) : UInt16 :=
  UInt16.ofNat (digits.foldl (fun n digit => 16 * n + digit) 0)

def parseChipId (text : List Char) : Option (Vector UInt16 4) := do
  let digits ← text.mapM upperVal
  if digits.length = 16 then
    pure #v[rowOf (digits.drop 12), rowOf ((digits.drop 8).take 4), rowOf ((digits.drop 4).take 4),
      rowOf (digits.take 4)]
  else none

lemma rowOf_rowDigits (row : UInt16) : rowOf (rowDigits row) = row := by
  have := row.toNat_lt
  refine UInt16.toNat_inj.mp ?_
  simp only [rowOf, rowDigits, List.foldl_cons, List.foldl_nil, UInt16.toNat_ofNat']
  omega

lemma mapM_upperVal {digits : List ℕ} (h : ∀ digit ∈ digits, digit < 16) :
    (digits.map upperDigit).mapM upperVal = some digits := by
  have hdigit : ∀ n < 16, upperVal (upperDigit n) = some n := by decide
  induction digits with
  | nil => rfl
  | cons digit digits ih =>
    rw [List.forall_mem_cons] at h
    rw [List.map_cons, List.mapM_cons, hdigit _ h.1, ih h.2]
    rfl

lemma parseChipId_formatChipId (chipId : Vector UInt16 4) :
    parseChipId (formatChipId chipId) = some chipId := by
  have hdigits : ∀ digit ∈ chipId.toList.reverse.flatMap rowDigits, digit < 16 := by
    intro digit hdigit
    obtain ⟨row, -, hrow⟩ := List.mem_flatMap.mp hdigit
    have := row.toNat_lt
    simp only [rowDigits, List.mem_cons, List.not_mem_nil, or_false] at hrow
    omega
  rw [parseChipId, formatChipId, mapM_upperVal hdigits]
  obtain ⟨⟨rows⟩, hsize⟩ := chipId
  match rows, hsize with
  | [a, b, c, d], _ =>
    change some #v[rowOf (rowDigits a), rowOf (rowDigits b), rowOf (rowDigits c),
      rowOf (rowDigits d)] = _
    simp only [rowOf_rowDigits]

def parseRequest (text : List Char) : Option RequestType :=
  if text = RequestType.text .live then some .live
  else if text = RequestType.text .dryRun then some .dryRun
  else none

def parseSignature (text : List Char) : Option (Vector UInt8 64) :=
  (unhex text).bind fun bs => if h : bs.toArray.size = 64 then some ⟨bs.toArray, h⟩ else none

/-- A reader of the lines that are exactly as they are written. -/
def compact (line : List Char) : Option PrivateLine :=
  match strings line with
  | [_, request, _, chipId, _, board, _, manufacturer, _, date, _, signature] => do
    let request ← parseRequest request
    let chipId ← parseChipId chipId
    let signature ← parseSignature signature
    let read := PrivateLine.mk request chipId (String.ofList board) (String.ofList manufacturer)
      (String.ofList date) signature
    if read.text = line then some read else none
  | _ => none

lemma compact_text (line : PrivateLine) : compact line.text = some line := by
  have hstrings : strings line.text = ["request".toList, line.request.text, "chip_id".toList,
      formatChipId line.chipId, "board".toList, line.board.toList, "manufacturer".toList,
      line.manufacturer.toList, "date".toList, line.date.toList, "signature".toList,
      hex line.signature.toList] := strings_jsonObject _
  have hrequest : parseRequest line.request.text = some line.request := by
    cases line.request <;> decide
  have hsignature : parseSignature (hex line.signature.toList) = some line.signature := by
    rw [parseSignature, unhex_hex]
    simp [Vector.toList]
  rw [compact, hstrings]
  dsimp only
  rw [hrequest, parseChipId_formatChipId, hsignature]
  simp

end OneRom.RecordFile
