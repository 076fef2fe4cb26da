import OneRom.Checks
import OneRom.SignedRows

/-!
The table of signing keys and the check of a commissioning instance's signature against it. A
current key's signature is accepted as it is, a retired key's where the record file the table names
lists it.
-/

namespace OneRom.Signers

open OneRom.LittleEndian OneRom.OtpEntry OneRom.OtpStore OneRom.SignedRows

/-- A retired key's record file, and its hash when the key was retired. -/
structure Record where
  url : String
  sha256 : Vector UInt8 32
  deriving DecidableEq

inductive Status
  | current
  | retired (record : Option Record)
  deriving DecidableEq

inductive Manufacturers
  | any
  | listed (names : List String)
  deriving DecidableEq

structure Signer where
  id : UInt16
  name : String
  publicKey : Vector UInt8 32
  status : Status
  manufacturers : Manufacturers
  deriving DecidableEq

structure SignerTable where
  signers : List Signer

/-- The signer whose ID is `id`. -/
def SignerTable.get (table : SignerTable) (id : UInt16) : Option Signer :=
  table.signers.find? fun signer => signer.id == id

/-- Whether the key may sign `manufacturer`. -/
def Signer.allows (signer : Signer) (manufacturer : String) : Bool :=
  match signer.manufacturers with
  | .any => true
  | .listed names => names.any fun name => name == manufacturer

inductive Verdict
  | verified
  | recorded
  | notRecorded
  | recordChanged
  | manufacturerNotAllowed
  | badSignature
  | unknownSigner
  | incomplete
  | invalid
  deriving DecidableEq

def Verdict.isAccepted : Verdict → Bool
  | .verified | .recorded => true
  | _ => false

/-! ### Record files -/

/-- A line without the carriage return before its newline. -/
def stripCr (line : List Char) : List Char :=
  if line.getLast? = some '\r' then line.dropLast else line

/-- The lines of a text. The last need not end in a newline, and then keeps a carriage return. -/
def lines : List Char → List (List Char) :=
  go []
where
  /-- From within a line, of which `line` has been read, last character first. -/
  go (line : List Char) : List Char → List (List Char)
    | [] => if line = [] then [] else [line.reverse]
    | c :: cs => if c = '\n' then stripCr line.reverse :: go [] cs else go (c :: line) cs

def isWhitespace (c : Char) : Bool :=
  (9 ≤ c.toNat && c.toNat ≤ 13) || c.toNat == 0x20 || c.toNat == 0x85 || c.toNat == 0xa0 ||
    c.toNat == 0x1680 || (0x2000 ≤ c.toNat && c.toNat ≤ 0x200a) || c.toNat == 0x2028 ||
    c.toNat == 0x2029 || c.toNat == 0x202f || c.toNat == 0x205f || c.toNat == 0x3000

/-- A digit of a lower case hexadecimal number. -/
def digitOf (n : ℕ) : Char := Char.ofNat (if n < 10 then 48 + n else 87 + n)

/-- The lower case hexadecimal of bytes, two digits to a byte. -/
def hex (bs : List UInt8) : List Char :=
  bs.flatMap fun b => [digitOf (b.toNat / 16), digitOf (b.toNat % 16)]

/-- The value of a lower case hexadecimal digit. -/
def digitVal (c : Char) : Option ℕ :=
  if 48 ≤ c.toNat ∧ c.toNat ≤ 57 then some (c.toNat - 48)
  else if 97 ≤ c.toNat ∧ c.toNat ≤ 102 then some (c.toNat - 87)
  else none

/-- The bytes of a hexadecimal number, two digits to a byte. -/
def unhex : List Char → Option (List UInt8)
  | [] => some []
  | [_] => none
  | hi :: lo :: cs => do
    let hi ← digitVal hi
    let lo ← digitVal lo
    let bs ← unhex cs
    pure (UInt8.ofNat (16 * hi + lo) :: bs)

/-- A line that is exactly the hexadecimal of a hash. -/
def parseRecordLine (line : List Char) : Option (Vector UInt8 32) := do
  let bs ← unhex line
  if h : bs.toArray.size = 32 then pure ⟨bs.toArray, h⟩ else none

/-- The hashes a record file lists, or the number of the first line that isn't one. -/
def parseRecord (text : List Char) : Except ℕ (List (Vector UInt8 32)) :=
  ((lines text).zipIdx.filter fun (line, _) => !line.all isWhitespace).mapM fun (line, i) =>
    match parseRecordLine line with
    | some hash => .ok hash
    | none => .error (i + 1)

/-- The number of bytes at the start of a file that are UTF-8. -/
def validUpTo (file : List UInt8) : ℕ :=
  ((List.range (file.length + 1)).reverse.find? fun n => (fromUtf8 (file.take n)).isSome).getD 0

/-- The number of the line that holds a byte of a file. -/
def lineOf (file : List UInt8) (offset : ℕ) : ℕ := (file.take offset).count 10 + 1

/-! ### The check -/

inductive VerifyError (ε : Type*)
  | fetch (url : String) (error : ε)
  | badRecord (id : UInt16) (line : ℕ)

section Verify

variable {ε : Type*} (verify : Vector UInt8 32 → List UInt8 → Vector UInt8 64 → Bool)
  (sha256 : List UInt8 → Vector UInt8 32) (fetch : String → Except ε (List UInt8))

/-- A retired key's verdict on a signature it verifies. -/
def verdictOfRecord (id : UInt16) (record : Record) (signature : Vector UInt8 64) :
    Except (VerifyError ε) Verdict :=
  match fetch record.url with
  | .error e => .error (.fetch record.url e)
  | .ok file =>
    if sha256 file ≠ record.sha256 then .ok .recordChanged
    else match fromUtf8 file with
    | none => .error (.badRecord id (lineOf file (validUpTo file)))
    | some text => match parseRecord text.toList with
      | .error line => .error (.badRecord id line)
      | .ok hashes =>
        if sha256 signature.toList ∈ hashes then .ok .recorded else .ok .notRecorded

def verifyInstance (inst : CommissioningInstance) (chipId : Vector UInt16 4)
    (table : SignerTable) : Except (VerifyError ε) Verdict :=
  if inst.isComplete = false then .ok .incomplete
  else match inst.isValid, inst.manufacturer, inst.signer, inst.signature, inst.message chipId with
  | true, some manufacturer, some id, some signature, some message =>
    match table.get id with
    | none => .ok .unknownSigner
    | some signer =>
      if verify signer.publicKey message signature = false then .ok .badSignature
      else if signer.allows manufacturer = false then .ok .manufacturerNotAllowed
      else match signer.status with
      | .current => .ok .verified
      | .retired none => .ok .notRecorded
      | .retired (some record) => verdictOfRecord sha256 fetch id record signature
  | _, _, _, _, _ => .ok .invalid

end Verify

/-! ### What a record file lists -/

lemma digitVal_some {c : Char} {n : ℕ} (h : digitVal c = some n) : n < 16 ∧ c = digitOf n := by
  unfold digitVal at h
  split_ifs at h with hdigit hletter
  · obtain rfl := Option.some.inj h
    refine ⟨by omega, ?_⟩
    rw [digitOf, if_pos (by omega), show 48 + (c.toNat - 48) = c.toNat by omega, Char.ofNat_toNat]
  · obtain rfl := Option.some.inj h
    refine ⟨by omega, ?_⟩
    rw [digitOf, if_neg (by omega), show 87 + (c.toNat - 87) = c.toNat by omega, Char.ofNat_toNat]

/-- What reads as bytes is their hexadecimal. -/
lemma hex_of_unhex {cs : List Char} {bs : List UInt8} (h : unhex cs = some bs) : cs = hex bs := by
  induction cs using unhex.induct generalizing bs with
  | case1 =>
    obtain rfl := Option.some.inj h
    rfl
  | case2 => cases h
  | case3 hi lo cs ih =>
    unfold unhex at h
    obtain ⟨hi', hhi, h⟩ := Option.bind_eq_some_iff.mp h
    obtain ⟨lo', hlo, h⟩ := Option.bind_eq_some_iff.mp h
    obtain ⟨bs', hbs, h⟩ := Option.bind_eq_some_iff.mp h
    obtain rfl := Option.some.inj h
    obtain ⟨hhilt, rfl⟩ := digitVal_some hhi
    obtain ⟨hlolt, rfl⟩ := digitVal_some hlo
    have hval : (UInt8.ofNat (16 * hi' + lo')).toNat = 16 * hi' + lo' := by
      rw [UInt8.toNat_ofNat']
      omega
    rw [ih hbs]
    unfold hex
    rw [List.flatMap_cons, hval, show (16 * hi' + lo') / 16 = hi' by omega,
      show (16 * hi' + lo') % 16 = lo' by omega]
    rfl

lemma parseRecordLine_some {line : List Char} {hash : Vector UInt8 32}
    (h : parseRecordLine line = some hash) : line = hex hash.toList := by
  unfold parseRecordLine at h
  obtain ⟨bs, hbs, h⟩ := Option.bind_eq_some_iff.mp h
  split_ifs at h
  obtain rfl := Option.some.inj h
  rw [hex_of_unhex hbs]
  rfl

/-- A file lists a hash on a line that is its hexadecimal. -/
lemma line_of_parseRecord {text : List Char} {hashes : List (Vector UInt8 32)}
    (h : parseRecord text = .ok hashes) {hash : Vector UInt8 32} (hmem : hash ∈ hashes) :
    hex hash.toList ∈ lines text := by
  have hall := Checks.mapM_eq_ok h
  obtain ⟨i, hi, rfl⟩ := List.mem_iff_getElem.mp hmem
  have hline := hall.get (by rw [hall.length_eq]; exact hi) hi
  generalize hentry : List.get _ _ = entry at hline
  obtain ⟨line, number⟩ := entry
  dsimp only at hline
  split at hline
  · next hash' hparse =>
    obtain rfl := Except.ok.inj hline
    have hin := List.mem_of_mem_filter (hentry ▸ List.get_mem _ _)
    rw [List.get_eq_getElem] at hparse
    rw [← parseRecordLine_some hparse]
    exact List.fst_mem_of_mem_zipIdx hin
  · cases hline

/-! ### What an accepted signature says -/

section Accepted

variable {ε : Type} {verify : Vector UInt8 32 → List UInt8 → Vector UInt8 64 → Bool}
  {sha256 : List UInt8 → Vector UInt8 32} {fetch : String → Except ε (List UInt8)}

/-- The key is current, or the file its record names, unchanged, lists the signature. -/
def Standing (sha256 : List UInt8 → Vector UInt8 32) (fetch : String → Except ε (List UInt8))
    (signer : Signer) (signature : Vector UInt8 64) : Prop :=
  signer.status = .current ∨ ∃ record file text, signer.status = .retired (some record) ∧
    fetch record.url = .ok file ∧ sha256 file = record.sha256 ∧ fromUtf8 file = some text ∧
    hex (sha256 signature.toList).toList ∈ lines text.toList

/-- What stands behind an accepted verdict: a signer of the instance's ID, a signature over the
instance's message that its key verifies, a manufacturer it may sign, and its standing. -/
def Vouched (verify : Vector UInt8 32 → List UInt8 → Vector UInt8 64 → Bool)
    (sha256 : List UInt8 → Vector UInt8 32) (fetch : String → Except ε (List UInt8))
    (inst : CommissioningInstance) (chipId : Vector UInt16 4) (table : SignerTable) : Prop :=
  ∃ signer ∈ table.signers, ∃ signature message manufacturer,
    inst.signer = some signer.id ∧ inst.signature = some signature ∧
    inst.message chipId = some message ∧ verify signer.publicKey message signature = true ∧
    inst.manufacturer = some manufacturer ∧ signer.allows manufacturer = true ∧
    Standing sha256 fetch signer signature

lemma standing_of_record {id : UInt16} {signer : Signer} {record : Record}
    (hstatus : signer.status = .retired (some record)) {signature : Vector UInt8 64}
    {verdict : Verdict} (h : verdictOfRecord sha256 fetch id record signature = .ok verdict)
    (haccepted : verdict.isAccepted = true) : Standing sha256 fetch signer signature := by
  unfold verdictOfRecord at h
  cases hfile : fetch record.url with
  | error e =>
    rw [hfile] at h
    cases h
  | ok file =>
    rw [hfile] at h
    dsimp only at h
    split_ifs at h with hhash
    · obtain rfl := Except.ok.inj h
      exact Bool.noConfusion haccepted
    · cases htext : fromUtf8 file with
      | none =>
        rw [htext] at h
        cases h
      | some text =>
        rw [htext] at h
        dsimp only at h
        cases hlines : parseRecord text.toList with
        | error line =>
          rw [hlines] at h
          cases h
        | ok hashes =>
          rw [hlines] at h
          dsimp only at h
          split_ifs at h with hlisted
          · exact Or.inr ⟨record, file, text, hstatus, hfile, not_not.mp hhash, htext,
              line_of_parseRecord hlines hlisted⟩
          · obtain rfl := Except.ok.inj h
            exact Bool.noConfusion haccepted

lemma vouched_of_accepted {inst : CommissioningInstance} {chipId : Vector UInt16 4}
    {table : SignerTable} {verdict : Verdict}
    (h : verifyInstance verify sha256 fetch inst chipId table = .ok verdict)
    (haccepted : verdict.isAccepted = true) :
    Vouched verify sha256 fetch inst chipId table := by
  have hrefused : ∀ {v : Verdict}, v.isAccepted = false →
      (.ok v : Except (VerifyError ε) Verdict) ≠ .ok verdict := by
    rintro v hv heq
    obtain rfl := Except.ok.inj heq
    exact absurd haccepted (by rw [hv]; decide)
  unfold verifyInstance at h
  split_ifs at h with hcomplete
  · exact absurd h (hrefused rfl)
  split at h
  · next manufacturer id signature message _ hmanufacturer hid hsignature hmessage =>
    cases hget : table.get id with
    | none =>
      rw [hget] at h
      exact absurd h (hrefused rfl)
    | some signer =>
      rw [hget] at h
      dsimp only at h
      split_ifs at h with hverify hallows
      · exact absurd h (hrefused rfl)
      · exact absurd h (hrefused rfl)
      have hsigner : signer.id = id := by
        have hfound := List.find?_some hget
        simpa using hfound
      rw [Bool.not_eq_false] at hverify hallows
      refine ⟨signer, List.mem_of_find?_eq_some hget, signature, message, manufacturer,
        hsigner ▸ hid, hsignature, hmessage, hverify, hmanufacturer, hallows, ?_⟩
      split at h
      · next hstatus => exact Or.inl hstatus
      · exact absurd h (hrefused rfl)
      · next record hstatus => exact standing_of_record hstatus h haccepted
  · exact absurd h (hrefused rfl)

end Accepted

/-- Two complete instances, wherever they stand in whatever OTP holds, share a message only if they
are one chip's and have the same values. No message is a signer's proof. And an accepted signature
is one that a signer of the table stands behind. -/
theorem signature_vouches {ε : Type} (verify : Vector UInt8 32 → List UInt8 → Vector UInt8 64 → Bool)
    (sha256 : List UInt8 → Vector UInt8 32) (fetch : String → Except ε (List UInt8)) :
    (∀ rows rows' inst inst' chipId chipId' message,
      inst ∈ (CommissioningArea.parse rows).instances →
      inst' ∈ (CommissioningArea.parse rows').instances →
      inst.message chipId = some message → inst'.message chipId' = some message →
      chipId = chipId' ∧ inst.board = inst'.board ∧ inst.manufacturer = inst'.manufacturer ∧
        inst.date = inst'.date ∧ inst.signer = inst'.signer) ∧
    (∀ (inst : CommissioningInstance) chipId message name, inst.message chipId = some message →
      message ≠ PROOF_PREFIX ++ strBytes name) ∧
    ∀ inst chipId table verdict, verifyInstance verify sha256 fetch inst chipId table = .ok verdict →
      verdict.isAccepted = true → Vouched verify sha256 fetch inst chipId table := by
  refine ⟨?_, ?_, fun inst chipId table verdict h hacc => vouched_of_accepted h hacc⟩
  · intro rows rows' inst inst' chipId chipId' message hinst hinst' hmessage hmessage'
    obtain ⟨signed, hsigned, rfl⟩ := Option.map_eq_some_iff.mp hmessage
    obtain ⟨signed', hsigned', heq⟩ := Option.map_eq_some_iff.mp hmessage'
    obtain ⟨rfl, rfl⟩ := message_inj heq
    have hused : ∀ key, key ≠ .commissioningSig → inst.used key = inst'.used key := fun key hkey =>
      (used_of_complete hinst hsigned hkey).trans (used_of_complete hinst' hsigned' hkey).symm
    unfold CommissioningInstance.board CommissioningInstance.manufacturer CommissioningInstance.date
      CommissioningInstance.signer
    rw [hused .commissioningBoard (by decide), hused .commissioningManufacturer (by decide),
      hused .commissioningDate (by decide), hused .commissioningSigner (by decide)]
    exact ⟨rfl, rfl, rfl, rfl, rfl⟩
  · intro inst chipId message name hmessage
    obtain ⟨signed, -, rfl⟩ := Option.map_eq_some_iff.mp hmessage
    exact message_ne_proof chipId signed (strBytes name)

/-! ### An instance on two chips' rows -/

/-- An instance whose values are a letter each, signed with a run of ones. -/
def shortRows : List UInt16 :=
  [0x524f, 1, 1, 1, 97, 3, 1, 98, 4, 1, 99, 5, 2, 7, 2, 64] ++ List.replicate 32 0x0101

/-- The same instance a page later, after one that was not finished. -/
def laterRows : List UInt16 := [0x524f, 1, 1, 1, 120] ++ List.replicate 59 0 ++ shortRows

def shortInst (firstRow : ℕ) : CommissioningInstance where
  firstRow := firstRow
  entries := [.entry (firstRow + 2) (.commissioningBoard "a"),
    .entry (firstRow + 5) (.commissioningManufacturer "b"),
    .entry (firstRow + 8) (.commissioningDate "c"), .entry (firstRow + 11) (.commissioningSigner 7),
    .entry (firstRow + 14) (.commissioningSig (Vector.replicate 64 1))]
  signedRows := some (shortRows.take 14)

def shortSigner : Signer := ⟨7, "s", Vector.replicate 32 0, .current, .listed ["b"]⟩

theorem signature_vouches_short :
    (shortInst 0x0c0).board = (shortInst 0x100).board ∧
    Vouched (fun _ _ _ => true) (fun _ => Vector.replicate 32 0)
      (fun _ => (.error () : Except Unit (List UInt8))) (shortInst 0x100) (Vector.replicate 4 7)
      ⟨[shortSigner]⟩ := by
  have h := signature_vouches (fun _ _ _ => true) (fun _ => Vector.replicate 32 0)
    (fun _ => (.error () : Except Unit (List UInt8)))
  refine ⟨(h.1 shortRows laterRows (shortInst 0x0c0) (shortInst 0x100) (Vector.replicate 4 7)
    (Vector.replicate 4 7) _ (by decide +kernel) (by decide +kernel) rfl rfl).2.1, ?_⟩
  exact h.2.2 (shortInst 0x100) (Vector.replicate 4 7) ⟨[shortSigner]⟩ .verified rfl rfl

end OneRom.Signers
