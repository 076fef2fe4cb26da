import OneRom.Git
import OneRom.OtpWriter
import OneRom.RecordFile

/-!
The signing server, which records a signature before it gives it out. A request waits for its turn,
in which it is signed and its lines are added to the records' remotes, through the server's clones.
Others push to the remotes meanwhile, and a step may fail, run out of time, or be dropped with the
request when its client goes away.

A command that is dropped is killed. Two things outlast it: a push that has reached the remote, and
the write of a file, which runs on a thread that nothing stops.
-/

namespace OneRom.SigningServer

open OneRom.Git OneRom.RecordFile OneRom.OtpWriter

/-! ### Requests and records -/

inductive Record
  | publicRecord
  | privateRecord
  deriving DecidableEq

/-- What the server has from elsewhere. A key signs for its PIN, and what is written of a private
line reads back as it. -/
structure Host where
  sign : UInt16 → String → List UInt8 → Option (Vector UInt8 64)
  sha256 : List UInt8 → Vector UInt8 32
  fromStr : List Char → Option PrivateLine
  fromStr_text : ∀ line : PrivateLine, fromStr line.text = some line

/-- A request, its body read. -/
structure SignRequest where
  id : UInt16
  pin : String
  chipId : Vector UInt16 4
  board : Hw.Board
  manufacturer : String
  date : String
  dryRun : Bool

def SignRequest.values (request : SignRequest) : Except BuildError CommissioningValues :=
  CommissioningValues.new request.board request.manufacturer request.date request.id

def SignRequest.privateLine (request : SignRequest) (signature : Vector UInt8 64) :
    PrivateLine where
  request := if request.dryRun then .dryRun else .live
  chipId := request.chipId
  board := request.board.name
  manufacturer := request.manufacturer
  date := request.date
  signature := signature

/-- A line of a record. -/
def Line : Record → Type
  | .publicRecord => RecordLine
  | .privateRecord => PrivateLine

instance : ∀ record, DecidableEq (Line record)
  | .publicRecord => inferInstanceAs (DecidableEq RecordLine)
  | .privateRecord => inferInstanceAs (DecidableEq PrivateLine)

/-- A line to add to a key's file. -/
structure Add where
  record : Record
  id : UInt16
  line : Line record

variable (host : Host)

def Host.format : (record : Record) → Format (Line record)
  | .publicRecord => recordFormat
  | .privateRecord => privateFormat host.fromStr host.fromStr_text

variable (request : SignRequest) (signature : Vector UInt8 64)

/-- What a request adds to a record. -/
def SignRequest.add : Record → Add
  | .publicRecord => ⟨.publicRecord, request.id, RecordLine.new host.sha256 signature⟩
  | .privateRecord => ⟨.privateRecord, request.id, request.privateLine signature⟩

@[simp] lemma add_record (record : Record) :
    (request.add host signature record).record = record := by
  cases record <;> rfl

def recordFile (record : Record) (id : UInt16) : String :=
  "signatures/" ++ toString id.toNat ++ match record with
    | .publicRecord => ".txt"
    | .privateRecord => ".jsonl"

def Add.file (add : Add) : String := recordFile add.record add.id

def Add.text (add : Add) : List Char := (host.format add.record).text add.line

lemma Add.newline (add : Add) : '\n' ∉ add.text host := (host.format add.record).newline _

/-- The commit's message, which names the chip in the private record only. -/
def Add.message (add : Add) : String :=
  "Key " ++ toString add.id.toNat ++ match add with
    | ⟨.publicRecord, _, _⟩ => ""
    | ⟨.privateRecord, _, line⟩ => ": " ++ String.ofList (formatChipId line.chipId)

/-! ### The server's state -/

abbrev Text : Type := List Char

/-- What is next of adding a line. Its file's text with the line is made when the file is read. -/
inductive AddStep
  | fetch
  | reset
  | clean
  | read
  | createDir (text : Text)
  | write (text : Text)
  | stage
  | commit
  | push
  deriving DecidableEq

/-- The request whose turn it is. -/
inductive Turn
  | signing (request : SignRequest)
  | adding (request : SignRequest) (signature : Vector UInt8 64) (record : Record) (step : AddStep)

/-- A write that goes on although its request was dropped. -/
structure LateWrite where
  file : String
  text : Text

/-- A push that may still reach the remote. -/
structure LatePush where
  add : Add
  history : History Text

structure State where
  remote : Record → History Text
  clone : Record → Clone Text
  writes : Record → List LateWrite
  pushes : Record → List LatePush
  turn : Option Turn
  /-- The requests answered with a signature. -/
  answers : List (SignRequest × Vector UInt8 64)

/-- How a step ends that doesn't succeed. -/
inductive Stop
  | failed
  | timedOut
  | cutOff
  deriving DecidableEq

/-- What happens next. `ok` has what tells a commit from others, and `stop` what the step leaves of
the clone and whether it reached the remote. -/
inductive Event
  | turn (request : SignRequest)
  | ok (stamp : ℕ)
  | stop (how : Stop) (left : Clone Text) (landed : Bool)
  | lateWrite (record : Record) (n count : ℕ)
  | latePush (record : Record) (n : ℕ)
  | other (record : Record) (history : History Text)

/-! ### What a step does -/

variable (record : Record) (s : State)

def State.setClone (clone : Clone Text) : State :=
  { s with clone := Function.update s.clone record clone }

def State.setRemote (history : History Text) : State :=
  { s with remote := Function.update s.remote record history }

section Set

variable {record s} {r : Record}

@[simp] lemma remote_setRemote (history : History Text) :
    (s.setRemote record history).remote record = history := Function.update_self ..

lemma remote_setRemote_of_ne (h : r ≠ record) (history : History Text) :
    (s.setRemote record history).remote r = s.remote r := Function.update_of_ne h ..

@[simp] lemma clone_setClone (clone : Clone Text) :
    (s.setClone record clone).clone record = clone := Function.update_self ..

lemma clone_setClone_of_ne (h : r ≠ record) (clone : Clone Text) :
    (s.setClone record clone).clone r = s.clone r := Function.update_of_ne h ..

end Set

/-- A line is in its record: a live request's second line is next, or the answer. -/
def recorded : State :=
  if record = .privateRecord ∧ request.dryRun = false then
    { s with turn := some (.adding request signature .publicRecord .fetch) }
  else { s with turn := none, answers := s.answers ++ [(request, signature)] }

/-- Goes on with a step, the clone as it is now. -/
def goto (clone : Clone Text) (step : AddStep) : State :=
  { s.setClone record clone with turn := some (.adding request signature record step) }

/-- What reading the file comes to: an error, a line that is there already, or one to add. -/
def readFile (add : Add) : State :=
  let clone := s.clone record
  let text := (clone.work add.file).getD []
  match (host.format add.record).parseFile text with
  | .error _ => { s with turn := none }
  | .ok lines =>
    if add.line ∈ lines then recorded request signature record s
    else goto request signature record s clone (.createDir (appended text (add.text host)))

/-- Adds a line to its file, commits it and pushes it, a step at a time. -/
def addStep (stamp : ℕ) (step : AddStep) : Option State :=
  let add := request.add host signature record
  let clone := s.clone record
  let goto := goto request signature record s
  match step with
  | .fetch => some (goto (clone.fetch (s.remote record)) .reset)
  | .reset => some (goto clone.reset .clean)
  | .clean => some (goto clone.clean .read)
  | .read => some (readFile host request signature record s add)
  | .createDir text => some (goto clone (.write text))
  | .write text => some (goto (clone.write add.file text) .stage)
  | .stage => (clone.stage add.file).map (goto · .commit)
  | .commit => (clone.commit add.message stamp).map (goto · .push)
  | .push => (push (s.remote record) clone.head).map fun history =>
    recorded request signature record
      ((s.setRemote record history).setClone record { clone with upstream := history })

/-- Signs a request, whose first line is then the private one. -/
def signStep : State :=
  match request.values with
  | .error _ => { s with turn := none }
  | .ok values =>
    match host.sign request.id request.pin (values.message request.chipId) with
    | none => { s with turn := none }
    | some signature => { s with turn := some (.adding request signature .privateRecord .fetch) }

def okStep (stamp : ℕ) : Option State :=
  match s.turn with
  | none => none
  | some (.signing request) => some (signStep host request s)
  | some (.adding request signature record step) =>
    addStep host request signature record s stamp step

/-! ### What a step that doesn't succeed leaves -/

/-- The remote after a push that may have reached it. -/
def landedRemote (step : AddStep) (landed : Bool) : History Text :=
  if step = .push ∧ landed then
    (push (s.remote record) (s.clone record).head).getD (s.remote record)
  else s.remote record

/-- What is left of a clone is anything, but for the branch it tracks: that is as it was, or as a
fetch or a push has it. -/
def LeftOf (step : AddStep) (left : Clone Text) (landed : Bool) : Prop :=
  left.upstream = (s.clone record).upstream ∨ (step = .fetch ∧ left.upstream = s.remote record) ∨
    (step = .push ∧ left.upstream = landedRemote record s step landed)

instance (step : AddStep) (left : Clone Text) (landed : Bool) :
    Decidable (LeftOf record s step left landed) := inferInstanceAs (Decidable (_ ∨ _ ∨ _))

def lateWrites (how : Stop) (add : Add) (step : AddStep) : List LateWrite :=
  match how, step with
  | .cutOff, .write text => s.writes record ++ [⟨add.file, text⟩]
  | _, _ => s.writes record

def latePushes (how : Stop) (add : Add) (step : AddStep) : List LatePush :=
  if how ≠ .failed ∧ step = .push then s.pushes record ++ [⟨add, (s.clone record).head⟩]
  else s.pushes record

/-- The turn ends without an answer. -/
def stopAdd (how : Stop) (step : AddStep) (left : Clone Text) (landed : Bool) : Option State :=
  let add := request.add host signature record
  if LeftOf record s step left landed then
    some { (s.setRemote record (landedRemote record s step landed)).setClone record left with
      writes := Function.update s.writes record (lateWrites record s how add step)
      pushes := Function.update s.pushes record (latePushes record s how add step)
      turn := none }
  else none

def stopStep (how : Stop) (left : Clone Text) (landed : Bool) : Option State :=
  match s.turn with
  | none => none
  | some (.signing _) => some { s with turn := none }
  | some (.adding request signature record step) =>
    stopAdd host request signature record s how step left landed

/-! ### What goes on besides -/

/-- The text of a file at the end of a history. -/
def fileText (history : History Text) (file : String) : Text := (history.tree.lookup file).getD []

/-- A history that goes on from another, whose files keep their lines in order. -/
def Grown (old new : History Text) : Prop :=
  old <:+ new ∧ ∀ file ∈ old.tree.keys,
    (fileLines (fileText old file)).Sublist (fileLines (fileText new file))

instance (old new : History Text) : Decidable (Grown old new) :=
  inferInstanceAs (Decidable (_ ∧ _))

section Grow

variable {old mid new : History Text}

lemma Grown.fileLines (h : Grown old new) (file : String) :
    (RecordFile.fileLines (fileText old file)).Sublist
      (RecordFile.fileLines (fileText new file)) := by
  by_cases hfile : file ∈ old.tree.keys
  · exact h.2 file hfile
  · rw [Finmap.mem_keys] at hfile
    rw [fileText, Finmap.lookup_eq_none.mpr hfile]
    exact List.nil_sublist _

lemma Grown.refl (history : History Text) : Grown history history :=
  ⟨List.suffix_rfl, fun _ _ => List.Sublist.refl _⟩

lemma Grown.trans (h : Grown old mid) (h' : Grown mid new) : Grown old new :=
  ⟨h.1.trans h'.1, fun file _ => (h.fileLines file).trans (h'.fileLines file)⟩

lemma Grown.setRemote {s : State} {record : Record} (h : Grown (s.remote record) new) (r : Record) :
    Grown (s.remote r) ((s.setRemote record new).remote r) := by
  by_cases hr : r = record
  · rw [hr, remote_setRemote]
    exact h
  · rw [remote_setRemote_of_ne hr]
    exact .refl _

end Grow

/-- A write gets as far as `count` characters, and is done where that is all. -/
def writeLate (n count : ℕ) : Option State :=
  (s.writes record)[n]?.map fun write =>
    { s.setClone record ((s.clone record).write write.file (write.text.take count)) with
      writes := if write.text.length ≤ count then
          Function.update s.writes record ((s.writes record).eraseIdx n)
        else s.writes }

def pushLate (n : ℕ) : Option State :=
  (s.pushes record)[n]?.map fun late =>
    { s.setRemote record ((push (s.remote record) late.history).getD (s.remote record)) with
      pushes := Function.update s.pushes record ((s.pushes record).eraseIdx n) }

def step : Event → Option State
  | .turn request =>
    if s.turn.isNone ∧ request.values.isOk then some { s with turn := some (.signing request) }
    else none
  | .ok stamp => okStep host s stamp
  | .stop how left landed => stopStep host s how left landed
  | .lateWrite record n count => writeLate record s n count
  | .latePush record n => pushLate record s n
  | .other record history =>
    if Grown (s.remote record) history then some (s.setRemote record history) else none

end OneRom.SigningServer
