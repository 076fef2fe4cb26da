import OneRom.SigningServer

/-!
What the signing server records. A push goes on from the remote, and an add's commit goes on from
the branch its clone tracks, which the remote has grown from: so the remote it is pushed to is that
branch, and the file it adds to is the one it read.

The file a commit is made of has to be the one the add wrote. A write that is still going on for a
request that was dropped can change it after the clone is reset: the reset doesn't wait for it, and
the next request's turn has begun.
-/

namespace OneRom.SigningSafe

open OneRom.Git OneRom.RecordFile OneRom.SigningServer

variable {host : Host} {s s' : State}

/-! ### What is promised -/

/-- A line is in its key's file at the remote. -/
def InRecord (host : Host) (remote : Record → History Text) (add : Add) : Prop :=
  (host.format add.record).Holds (fileText (remote add.record) add.file) add.line

/-- A request answered with a signature is recorded: privately, and publicly unless it is a dry
run. -/
structure Recorded (host : Host) (remote : Record → History Text) (request : SignRequest)
    (signature : Vector UInt8 64) : Prop where
  privateLine : InRecord host remote (request.add host signature .privateRecord)
  publicLine : request.dryRun = false →
    InRecord host remote (request.add host signature .publicRecord)

/-- One commit that adds an add's line to its key's file, which had no such line, and changes no
other. -/
structure OwnLine (host : Host) (add : Add) (old new : History Text) : Prop where
  commit : ∃ commit, new = commit :: old
  line : fileLines (fileText new add.file) = fileLines (fileText old add.file) ++ [add.text host]
  others : ∀ file, file ≠ add.file → new.tree.lookup file = old.tree.lookup file
  fresh : ∃ lines, (host.format add.record).parseFile (fileText old add.file) = .ok lines ∧
    add.line ∉ lines

/-- An add whose push is under way, or outlasted its request. -/
def Pushes (host : Host) (s : State) (add : Add) : Prop :=
  (∃ request signature record, s.turn = some (.adding request signature record .push) ∧
    add = request.add host signature record) ∨
  ∃ late ∈ s.pushes add.record, late.add = add

/-- What a step does to the remotes: lines stay, and what the server adds is a line of its own. -/
structure Keeps (host : Host) (s : State) (e : Event) (s' : State) : Prop where
  kept : ∀ record file, (fileLines (fileText (s.remote record) file)).Sublist
    (fileLines (fileText (s'.remote record) file))
  own : ∀ record, s'.remote record = s.remote record ∨ (∃ history, e = .other record history) ∨
    ∃ add : Add, add.record = record ∧ Pushes host s add ∧
      OwnLine host add (s.remote record) (s'.remote record)

/-- An add is between its reset and its read of a file, or between its write of the file and staging
it. A file that isn't tracked is cleaned away before it is read. -/
def UsesFile (clone : Clone Text) (file : String) : AddStep → Prop
  | .clean => file ∈ clone.index
  | .read | .stage => True
  | _ => False

/-- A file is in use by the add of the turn. -/
def Exposed (host : Host) (s : State) (record : Record) (file : String) : Prop :=
  ∃ request signature step, s.turn = some (.adding request signature record step) ∧
    (request.add host signature record).file = file ∧ UsesFile (s.clone record) file step

/-- A write that outlasted its request doesn't change the file under another's add. -/
def Apart (host : Host) (s : State) : Event → Prop
  | .lateWrite record n count => ∀ write ∈ (s.writes record)[n]?,
    Exposed host s record write.file →
      (s.clone record).work write.file = some (write.text.take count)
  | _ => True

/-- A step of a run, in which no write that outlasted its request comes between. -/
def ApartStep (host : Host) (s s' : State) : Prop := ∃ e, Apart host s e ∧ step host s e = some s'

def Runs (host : Host) : State → State → Prop := Relation.ReflTransGen (ApartStep host)

/-- The server as it starts, with clones of its remotes. -/
structure Start (s : State) : Prop where
  clones : ∀ record, Grown (s.clone record).upstream (s.remote record)
  pushes : ∀ record, s.pushes record = []
  turn : s.turn = none
  answers : s.answers = []

/-! ### Growing -/

section Grow

variable {old mid new history : History Text} {add : Add} {file : String}

lemma OwnLine.grown (h : OwnLine host add old new) : Grown old new := by
  refine ⟨?_, fun file _ => ?_⟩
  · obtain ⟨commit, rfl⟩ := h.commit
    exact List.suffix_cons _ _
  · by_cases hfile : file = add.file
    · rw [hfile, h.line]
      exact List.sublist_append_left _ _
    · rw [fileText, fileText, h.others file hfile]

lemma OwnLine.holds (h : OwnLine host add old new) :
    (host.format add.record).Holds (fileText new add.file) add.line := by
  refine ⟨add.text host, ?_, .inl ((host.format add.record).parse_text _)⟩
  rw [h.line]
  exact List.mem_append_right _ (List.mem_singleton_self _)

lemma InRecord.mono {remote remote' : Record → History Text} (h : InRecord host remote add)
    (hgrown : ∀ record, Grown (remote record) (remote' record)) : InRecord host remote' add :=
  Format.Holds.mono h ((hgrown _).fileLines _)

lemma Recorded.mono {remote remote' : Record → History Text} {request : SignRequest}
    {signature : Vector UInt8 64} (h : Recorded host remote request signature)
    (hgrown : ∀ record, Grown (remote record) (remote' record)) :
    Recorded host remote' request signature :=
  ⟨h.privateLine.mono hgrown, fun hlive => (h.publicLine hlive).mono hgrown⟩

/-- A push of one commit on a branch the remote has grown from either changes nothing or adds the
commit. -/
lemma push_own {remote : History Text} (h : OwnLine host add old history)
    (hold : old <:+ remote) {pushed : History Text} (hpush : push remote history = some pushed) :
    pushed = history ∧ (remote = history ∨ OwnLine host add remote history) := by
  unfold push at hpush
  split_ifs at hpush with hsuffix
  obtain rfl := Option.some.inj hpush
  refine ⟨rfl, ?_⟩
  obtain ⟨commit, rfl⟩ := h.commit
  rcases eq_or_eq_of_suffix hold hsuffix with rfl | rfl
  · exact .inr h
  · exact .inl rfl

end Grow

/-! ### What holds between steps -/

/-- The text made for a file is the tracked branch's with the line added, which it didn't have. -/
structure Fresh (host : Host) (add : Add) (clone : Clone Text) (text : Text) : Prop where
  text : text = appended (fileText clone.upstream add.file) (add.text host)
  fresh : ∃ lines, (host.format add.record).parseFile (fileText clone.upstream add.file) =
    .ok lines ∧ add.line ∉ lines

/-- A clone's branch and index are the branch it tracks. -/
structure Synced (clone : Clone Text) : Prop where
  head : clone.head = clone.upstream
  index : clone.index = clone.upstream.tree

/-- What an add has made of its clone. -/
def AddInv (host : Host) (add : Add) (clone : Clone Text) : AddStep → Prop
  | .fetch | .reset => True
  | .clean => Synced clone ∧
    (add.file ∈ clone.index → clone.work add.file = clone.upstream.tree.lookup add.file)
  | .read => Synced clone ∧ clone.work add.file = clone.upstream.tree.lookup add.file
  | .createDir text | .write text => Synced clone ∧ Fresh host add clone text
  | .stage => Synced clone ∧ ∃ text, Fresh host add clone text ∧ clone.work add.file = some text
  | .commit => clone.head = clone.upstream ∧
    ∃ text, Fresh host add clone text ∧ clone.index = clone.upstream.tree.insert add.file text
  | .push => OwnLine host add clone.upstream clone.head

/-- What the remotes, the clones' tracked branches, the pushes still under way and the answers
have. -/
structure Sound (host : Host) (s : State) : Prop where
  clones : ∀ record, Grown (s.clone record).upstream (s.remote record)
  pushes : ∀ record, ∀ late ∈ s.pushes record, late.add.record = record ∧
    ∃ base, OwnLine host late.add base late.history ∧ base <:+ s.remote record
  answers : ∀ answer ∈ s.answers, Recorded host s.remote answer.1 answer.2

/-- A request's public line comes after its private one, and only for a live request. -/
def Second (host : Host) (remote : Record → History Text) (request : SignRequest)
    (signature : Vector UInt8 64) (record : Record) : Prop :=
  record = .publicRecord → request.dryRun = false ∧
    InRecord host remote (request.add host signature .privateRecord)

structure Inv (host : Host) (s : State) : Prop extends Sound host s where
  turn : ∀ request signature record step, s.turn = some (.adding request signature record step) →
    AddInv host (request.add host signature record) (s.clone record) step ∧
      Second host s.remote request signature record

lemma Sound.grow {history : History Text} {record : Record} (h : Sound host s)
    (hgrown : Grown (s.remote record) history) : Sound host (s.setRemote record history) := by
  refine ⟨fun r => (h.clones r).trans (hgrown.setRemote r), fun r late hlate => ?_,
    fun answer hanswer => (h.answers answer hanswer).mono hgrown.setRemote⟩
  obtain ⟨hrecord, base, hown, hbase⟩ := h.pushes r late hlate
  exact ⟨hrecord, base, hown, hbase.trans (hgrown.setRemote r).1⟩

lemma Inv.grow {history : History Text} {record : Record} (h : Inv host s)
    (hgrown : Grown (s.remote record) history) : Inv host (s.setRemote record history) := by
  refine ⟨h.toSound.grow hgrown, fun request signature r step hturn => ?_⟩
  obtain ⟨hadd, hsecond⟩ := h.turn request signature r step hturn
  exact ⟨hadd, fun hr => ⟨(hsecond hr).1, (hsecond hr).2.mono hgrown.setRemote⟩⟩

lemma Sound.setClone (h : Sound host s) (record : Record) (clone : Clone Text)
    (hclone : Grown clone.upstream (s.remote record)) : Sound host (s.setClone record clone) := by
  refine ⟨fun r => ?_, h.pushes, h.answers⟩
  by_cases hr : r = record
  · rw [hr, clone_setClone]
    exact hclone
  · rw [clone_setClone_of_ne hr]
    exact h.clones r

/-- The end of a turn. -/
lemma Sound.idle (h : Sound host s) : Inv host { s with turn := none } :=
  ⟨⟨h.clones, h.pushes, h.answers⟩, fun _ _ _ _ hturn => nomatch hturn⟩

section Add

variable {request : SignRequest} {signature : Vector UInt8 64} {record : Record}

lemma Sound.goto (h : Sound host s) (clone : Clone Text) (step : AddStep)
    (hclone : Grown clone.upstream (s.remote record))
    (hadd : AddInv host (request.add host signature record) clone step)
    (hsecond : Second host s.remote request signature record) :
    Inv host (goto request signature record s clone step) := by
  have hsound := h.setClone record clone hclone
  refine ⟨⟨hsound.clones, hsound.pushes, hsound.answers⟩,
    fun request' signature' r step' hturn => ?_⟩
  obtain ⟨rfl, rfl, rfl, rfl⟩ := Turn.adding.inj (Option.some.inj hturn)
  exact ⟨(clone_setClone clone).symm ▸ hadd, hsecond⟩

lemma Sound.recorded (h : Sound host s) (hsecond : Second host s.remote request signature record)
    (hin : InRecord host s.remote (request.add host signature record)) :
    Inv host (recorded request signature record s) := by
  unfold SigningServer.recorded
  split_ifs with hlive
  · obtain ⟨rfl, hdry⟩ := hlive
    refine ⟨⟨h.clones, h.pushes, h.answers⟩, fun request' signature' r step hturn => ?_⟩
    obtain ⟨rfl, rfl, rfl, rfl⟩ := Turn.adding.inj (Option.some.inj hturn)
    exact ⟨trivial, fun _ => ⟨hdry, hin⟩⟩
  · refine ⟨⟨h.clones, h.pushes, fun answer hanswer => ?_⟩, fun _ _ _ _ hturn => nomatch hturn⟩
    rcases List.mem_append.mp hanswer with hanswer | hanswer
    · exact h.answers answer hanswer
    · obtain rfl := List.mem_singleton.mp hanswer
      cases record with
      | privateRecord =>
        exact ⟨hin, fun hdry => absurd ⟨rfl, hdry⟩ hlive⟩
      | publicRecord => exact ⟨(hsecond rfl).2, fun _ => hin⟩

/-- Reading the file: what is found there is at the remote, which has grown from it. -/
lemma Inv.readFile (h : Inv host s)
    (hturn : s.turn = some (.adding request signature record .read)) :
    Inv host (readFile host request signature record s (request.add host signature record)) := by
  obtain ⟨⟨hsynced, hwork⟩, hsecond⟩ := h.turn _ _ _ _ hturn
  have hgrown := h.clones record
  have htext : ((s.clone record).work (request.add host signature record).file).getD [] =
      fileText (s.clone record).upstream (request.add host signature record).file := by
    rw [hwork, fileText]
  unfold SigningServer.readFile
  dsimp only
  rw [htext]
  split
  · exact h.toSound.idle
  · next lines hlines =>
    split_ifs with hfound
    · refine h.toSound.recorded hsecond ((Format.holds_of_parseFile hlines hfound).mono ?_)
      rw [add_record]
      exact hgrown.fileLines _
    · exact h.toSound.goto _ _ hgrown ⟨hsynced, rfl, lines, hlines, hfound⟩ hsecond

lemma Fresh.ownLine {add : Add} {clone : Clone Text} {text : Text} (h : Fresh host add clone text)
    (commit : Commit Text) (htree : commit.tree = clone.upstream.tree.insert add.file text) :
    OwnLine host add clone.upstream (commit :: clone.upstream) := by
  refine ⟨⟨commit, rfl⟩, ?_, fun file hfile => ?_, h.fresh⟩
  · have hfile : fileText (commit :: clone.upstream) add.file = text := by
      change (commit.tree.lookup add.file).getD [] = text
      rw [htree, Finmap.lookup_insert, Option.getD_some]
    rw [hfile, h.text, fileLines_appended (add.newline host)]
  · change commit.tree.lookup file = _
    rw [htree, Finmap.lookup_insert_of_ne _ hfile]

/-- A push leaves the remote as it was, or adds the line. -/
lemma Inv.push (h : Inv host s) (hturn : s.turn = some (.adding request signature record .push))
    {history : History Text}
    (hpush : Git.push (s.remote record) (s.clone record).head = some history) :
    history = (s.clone record).head ∧ (s.remote record = history ∨
      OwnLine host (request.add host signature record) (s.remote record) history) := by
  obtain ⟨hown, -⟩ := h.turn _ _ _ _ hturn
  obtain ⟨rfl, hremote⟩ := push_own hown (h.clones record).1 hpush
  exact ⟨rfl, hremote⟩

lemma grown_of_own {old new : History Text} {add : Add} (h : old = new ∨ OwnLine host add old new) :
    Grown old new := by
  rcases h with rfl | h
  · exact .refl _
  · exact h.grown

/-- **A step of an add** keeps what holds between steps. -/
lemma Inv.addStep (h : Inv host s) {stamp : ℕ} {step : AddStep}
    (hturn : s.turn = some (.adding request signature record step))
    (hstep : addStep host request signature record s stamp step = some s') : Inv host s' := by
  obtain ⟨hadd, hsecond⟩ := h.turn _ _ _ _ hturn
  have hgrown := h.clones record
  have hgoto := fun clone step' (hclone : clone.upstream = (s.clone record).upstream) hadd =>
    h.toSound.goto clone step' (hclone ▸ hgrown) hadd hsecond
  cases step with
  | fetch =>
    obtain rfl := Option.some.inj hstep
    exact h.toSound.goto _ _ (.refl _) trivial hsecond
  | reset =>
    obtain rfl := Option.some.inj hstep
    exact hgoto _ _ rfl ⟨⟨rfl, rfl⟩, reset_work⟩
  | clean =>
    obtain rfl := Option.some.inj hstep
    exact hgoto _ _ rfl ⟨⟨hadd.1.head, hadd.1.index⟩, clean_work hadd.1.index hadd.2⟩
  | read =>
    obtain rfl := Option.some.inj hstep
    exact h.readFile hturn
  | createDir text =>
    obtain rfl := Option.some.inj hstep
    exact hgoto _ _ rfl hadd
  | write text =>
    obtain rfl := Option.some.inj hstep
    exact hgoto _ _ rfl ⟨⟨hadd.1.head, hadd.1.index⟩, text, ⟨hadd.2.text, hadd.2.fresh⟩,
      Function.update_self ..⟩
  | stage =>
    obtain ⟨hsynced, text, hfresh, hwork⟩ := hadd
    obtain ⟨clone, hstage, rfl⟩ := Option.map_eq_some_iff.mp hstep
    rw [Clone.stage, hwork] at hstage
    obtain rfl := Option.some.inj hstage
    refine hgoto _ _ rfl ⟨hsynced.head, text, ⟨hfresh.text, hfresh.fresh⟩, ?_⟩
    rw [hsynced.index]
  | commit =>
    obtain ⟨hhead, text, hfresh, hindex⟩ := hadd
    obtain ⟨clone, hcommit, rfl⟩ := Option.map_eq_some_iff.mp hstep
    unfold Clone.commit at hcommit
    split_ifs at hcommit
    obtain rfl := Option.some.inj hcommit
    refine hgoto _ _ rfl ?_
    have hown := hfresh.ownLine
      ⟨(s.clone record).index, (request.add host signature record).message, stamp⟩ hindex
    rwa [← congrArg (_ :: ·) hhead] at hown
  | push =>
    obtain ⟨history, hpush, rfl⟩ := Option.map_eq_some_iff.mp hstep
    obtain ⟨rfl, hremote⟩ := h.push hturn hpush
    have hgrow := grown_of_own hremote
    have hsound := (h.toSound.grow hgrow).setClone record
      { s.clone record with upstream := (s.clone record).head } (by
        rw [remote_setRemote]
        exact .refl _)
    refine hsound.recorded (fun hr => ⟨(hsecond hr).1, (hsecond hr).2.mono hgrow.setRemote⟩) ?_
    have hown : OwnLine host (request.add host signature record) _ (s.clone record).head := hadd
    have hremote : (s.setRemote record (s.clone record).head).remote
        (request.add host signature record).record = (s.clone record).head := by
      rw [add_record, remote_setRemote]
    exact (congrArg (fun history => (host.format _).Holds (fileText history _) _) hremote).mpr
      hown.holds

end Add

/-! ### Each step -/

lemma Sound.signStep (h : Sound host s) (request : SignRequest) :
    Inv host (signStep host request s) := by
  unfold SigningServer.signStep
  split
  · exact h.idle
  · split
    · exact h.idle
    · refine ⟨⟨h.clones, h.pushes, h.answers⟩, fun request' signature' r step hturn => ?_⟩
      obtain ⟨rfl, rfl, rfl, rfl⟩ := Turn.adding.inj (Option.some.inj hturn)
      exact ⟨trivial, fun hr => nomatch hr⟩

section Stop

variable {request : SignRequest} {signature : Vector UInt8 64} {record : Record} {how : Stop}
  {step : AddStep} {left : Clone Text} {landed : Bool}

lemma Inv.landing (h : Inv host s)
    (hturn : s.turn = some (.adding request signature record step)) :
    s.remote record = landedRemote record s step landed ∨ (step = .push ∧
      OwnLine host (request.add host signature record) (s.remote record)
        (landedRemote record s step landed)) := by
  unfold landedRemote
  split_ifs with hpush
  · obtain ⟨rfl, -⟩ := hpush
    cases hpushed : Git.push (s.remote record) (s.clone record).head with
    | none => exact .inl rfl
    | some history => exact (h.push hturn hpushed).2.imp_right fun hown => ⟨rfl, hown⟩
  · exact .inl rfl

lemma Inv.stopAdd (h : Inv host s)
    (hturn : s.turn = some (.adding request signature record step))
    (hstep : stopAdd host request signature record s how step left landed = some s') :
    Inv host s' := by
  unfold SigningServer.stopAdd at hstep
  dsimp only at hstep
  split_ifs at hstep with hleft
  obtain rfl := Option.some.inj hstep
  have hgrow : Grown (s.remote record) (landedRemote record s step landed) :=
    grown_of_own ((h.landing hturn).imp_right (·.2))
  have hclone : Grown left.upstream (landedRemote record s step landed) := by
    rcases hleft with heq | ⟨-, heq⟩ | ⟨-, heq⟩
    · exact heq ▸ (h.clones record).trans hgrow
    · exact heq ▸ hgrow
    · exact heq ▸ .refl _
  have hsound := (h.toSound.grow hgrow).setClone record left (by rwa [remote_setRemote])
  refine ⟨⟨hsound.clones, fun r late hlate => ?_, hsound.answers⟩, fun _ _ _ _ ht => nomatch ht⟩
  change late ∈ Function.update s.pushes record _ r at hlate
  by_cases hr : r = record
  · subst hr
    rw [Function.update_self] at hlate
    unfold latePushes at hlate
    split_ifs at hlate with hlast
    · rcases List.mem_append.mp hlate with hlate | hlate
      · exact hsound.pushes r late hlate
      · obtain rfl := List.mem_singleton.mp hlate
        obtain ⟨-, rfl⟩ := hlast
        have hown : OwnLine host (request.add host signature r) _ (s.clone r).head :=
          (h.turn _ _ _ _ hturn).1
        refine ⟨add_record .., _, hown, (h.clones r).1.trans ?_⟩
        exact (hgrow.setRemote r).1
    · exact hsound.pushes r late hlate
  · rw [Function.update_of_ne hr] at hlate
    exact hsound.pushes r late hlate

end Stop

/-- A write to a file an add isn't about to use leaves what it has made of its clone. -/
lemma AddInv.write {add : Add} {clone : Clone Text} {step : AddStep}
    (h : AddInv host add clone step) {file : String} {text : Text}
    (huses : UsesFile clone add.file step → file = add.file → clone.work file = some text) :
    AddInv host add (clone.write file text) step := by
  have hwork : (file = add.file → clone.work file = some text) →
      (clone.write file text).work add.file = clone.work add.file := by
    intro hsame
    by_cases hfile : file = add.file
    · rw [← hfile, hsame hfile]
      exact Function.update_self ..
    · exact Function.update_of_ne (Ne.symm hfile) ..
  cases step with
  | fetch | reset => trivial
  | clean =>
    exact ⟨⟨h.1.head, h.1.index⟩, fun hfile => (hwork (huses hfile)).trans (h.2 hfile)⟩
  | read => exact ⟨⟨h.1.head, h.1.index⟩, (hwork (huses trivial)).trans h.2⟩
  | createDir | write => exact ⟨⟨h.1.head, h.1.index⟩, ⟨h.2.text, h.2.fresh⟩⟩
  | stage =>
    obtain ⟨hsynced, text, hfresh, htext⟩ := h
    exact ⟨⟨hsynced.head, hsynced.index⟩, text, ⟨hfresh.text, hfresh.fresh⟩,
      (hwork (huses trivial)).trans htext⟩
  | commit =>
    obtain ⟨hhead, text, hfresh, hindex⟩ := h
    exact ⟨hhead, text, ⟨hfresh.text, hfresh.fresh⟩, hindex⟩
  | push => exact h

lemma Inv.writeLate (h : Inv host s) {record : Record} {n count : ℕ}
    (hapart : Apart host s (.lateWrite record n count))
    (hstep : writeLate record s n count = some s') : Inv host s' := by
  obtain ⟨write, hwrite, rfl⟩ := Option.map_eq_some_iff.mp hstep
  have hsound := h.toSound.setClone record
    ((s.clone record).write write.file (write.text.take count)) (h.clones record)
  refine ⟨⟨hsound.clones, hsound.pushes, hsound.answers⟩,
    fun request signature r step hturn => ?_⟩
  obtain ⟨hadd, hsecond⟩ := h.turn request signature r step hturn
  refine ⟨?_, hsecond⟩
  by_cases hr : r = record
  · subst hr
    change AddInv host _ ((s.setClone r _).clone r) step
    rw [clone_setClone]
    refine hadd.write fun huses hfile => hapart write hwrite ?_
    exact ⟨request, signature, step, hturn, hfile.symm, hfile ▸ huses⟩
  · change AddInv host _ ((s.setClone record _).clone r) step
    rwa [clone_setClone_of_ne hr]

lemma Sound.pushLate (h : Sound host s) {record : Record} {late : LatePush}
    (hlate : late ∈ s.pushes record) :
    s.remote record = (Git.push (s.remote record) late.history).getD (s.remote record) ∨
      OwnLine host late.add (s.remote record)
        ((Git.push (s.remote record) late.history).getD (s.remote record)) := by
  obtain ⟨-, base, hown, hbase⟩ := h.pushes record late hlate
  cases hpushed : Git.push (s.remote record) late.history with
  | none => exact .inl rfl
  | some history =>
    obtain ⟨rfl, hremote⟩ := push_own hown hbase hpushed
    exact hremote

lemma Inv.pushLate (h : Inv host s) {record : Record} {n : ℕ}
    (hstep : pushLate record s n = some s') : Inv host s' := by
  obtain ⟨late, hlate, rfl⟩ := Option.map_eq_some_iff.mp hstep
  have hinv := h.grow (grown_of_own (h.toSound.pushLate (List.mem_of_getElem? hlate)))
  refine ⟨⟨hinv.clones, fun r late' hlate' => hinv.pushes r late' ?_, hinv.answers⟩, hinv.turn⟩
  change late' ∈ Function.update s.pushes record _ r at hlate'
  by_cases hr : r = record
  · subst hr
    rw [Function.update_self] at hlate'
    exact List.mem_of_mem_eraseIdx hlate'
  · rwa [Function.update_of_ne hr] at hlate'

/-- **Each step** keeps what holds between steps, where no write that outlasted its request comes
between. -/
lemma Inv.step (h : Inv host s) {e : Event} (hapart : Apart host s e)
    (hstep : step host s e = some s') : Inv host s' := by
  cases e with
  | turn request =>
    unfold SigningServer.step at hstep
    dsimp only at hstep
    split_ifs at hstep
    obtain rfl := Option.some.inj hstep
    exact ⟨⟨h.clones, h.pushes, h.answers⟩, fun _ _ _ _ hturn => nomatch hturn⟩
  | ok stamp =>
    change okStep host s stamp = some s' at hstep
    unfold okStep at hstep
    split at hstep
    · cases hstep
    · obtain rfl := Option.some.inj hstep
      exact h.toSound.signStep _
    · next request signature record step hturn => exact h.addStep hturn hstep
  | stop how left landed =>
    change stopStep host s how left landed = some s' at hstep
    unfold stopStep at hstep
    split at hstep
    · cases hstep
    · obtain rfl := Option.some.inj hstep
      exact h.toSound.idle
    · next request signature record step hturn => exact h.stopAdd hturn hstep
  | lateWrite record n count => exact h.writeLate hapart hstep
  | latePush record n => exact h.pushLate hstep
  | other record history =>
    unfold SigningServer.step at hstep
    dsimp only at hstep
    split_ifs at hstep with hgrown
    obtain rfl := Option.some.inj hstep
    exact h.grow hgrown

/-! ### What each step does to the remotes -/

lemma Keeps.same {e : Event} (h : s'.remote = s.remote) : Keeps host s e s' :=
  ⟨fun _ _ => h ▸ List.Sublist.refl _, fun _ => .inl (congrFun h _)⟩

lemma Keeps.changed {e : Event} {record : Record} {history : History Text}
    (h : s'.remote = (s.setRemote record history).remote)
    (hown : s.remote record = history ∨ ∃ add : SigningServer.Add, add.record = record ∧
      Pushes host s add ∧ OwnLine host add (s.remote record) history) : Keeps host s e s' := by
  have hgrow : Grown (s.remote record) history := by
    rcases hown with heq | ⟨add, -, -, hown⟩
    · exact heq ▸ .refl _
    · exact hown.grown
  refine ⟨fun r file => ?_, fun r => ?_⟩
  · rw [h]
    exact (hgrow.setRemote r).fileLines file
  · rw [h]
    by_cases hr : r = record
    · subst hr
      rw [remote_setRemote]
      exact hown.imp Eq.symm .inr
    · exact .inl (remote_setRemote_of_ne hr history)

section Add

variable {request : SignRequest} {signature : Vector UInt8 64} {record : Record}

lemma remote_recorded : (recorded request signature record s).remote = s.remote := by
  unfold SigningServer.recorded
  split_ifs <;> rfl

lemma remote_readFile {add : SigningServer.Add} :
    (readFile host request signature record s add).remote = s.remote := by
  unfold SigningServer.readFile
  dsimp only
  split
  · rfl
  · split_ifs
    · exact remote_recorded
    · rfl

lemma Inv.keeps_addStep (h : Inv host s) {stamp : ℕ} {step : AddStep} {e : Event}
    (hturn : s.turn = some (.adding request signature record step))
    (hstep : SigningServer.addStep host request signature record s stamp step = some s') :
    Keeps host s e s' := by
  cases step with
  | read =>
    obtain rfl := Option.some.inj hstep
    exact .same remote_readFile
  | fetch | reset | clean | createDir | write =>
    obtain rfl := Option.some.inj hstep
    exact .same rfl
  | stage | commit =>
    obtain ⟨clone, -, rfl⟩ := Option.map_eq_some_iff.mp hstep
    exact .same rfl
  | push =>
    obtain ⟨history, hpush, rfl⟩ := Option.map_eq_some_iff.mp hstep
    have hremote : (recorded request signature record ((s.setRemote record history).setClone record
        { s.clone record with upstream := history })).remote =
        (s.setRemote record history).remote := remote_recorded
    refine .changed hremote ?_
    exact (h.push hturn hpush).2.imp_right fun hown =>
      ⟨_, add_record .., .inl ⟨_, _, _, hturn, rfl⟩, hown⟩

lemma Inv.keeps_stopAdd (h : Inv host s) {how : Stop} {step : AddStep} {left : Clone Text}
    {landed : Bool} {e : Event} (hturn : s.turn = some (.adding request signature record step))
    (hstep : SigningServer.stopAdd host request signature record s how step left landed = some s') :
    Keeps host s e s' := by
  unfold SigningServer.stopAdd at hstep
  dsimp only at hstep
  split_ifs at hstep
  obtain rfl := Option.some.inj hstep
  refine .changed rfl ((h.landing hturn).imp_right ?_)
  rintro ⟨rfl, hown⟩
  exact ⟨_, add_record .., .inl ⟨_, _, _, hturn, rfl⟩, hown⟩

end Add

lemma Inv.keeps (h : Inv host s) {e : Event} (hstep : SigningServer.step host s e = some s') :
    Keeps host s e s' := by
  cases e with
  | turn request =>
    unfold SigningServer.step at hstep
    dsimp only at hstep
    split_ifs at hstep
    obtain rfl := Option.some.inj hstep
    exact .same rfl
  | ok stamp =>
    change okStep host s stamp = some s' at hstep
    unfold okStep at hstep
    split at hstep
    · cases hstep
    · obtain rfl := Option.some.inj hstep
      refine .same ?_
      unfold SigningServer.signStep
      split <;> try split
      all_goals rfl
    · next request signature record step hturn => exact h.keeps_addStep hturn hstep
  | stop how left landed =>
    change stopStep host s how left landed = some s' at hstep
    unfold stopStep at hstep
    split at hstep
    · cases hstep
    · obtain rfl := Option.some.inj hstep
      exact .same rfl
    · next request signature record step hturn => exact h.keeps_stopAdd hturn hstep
  | lateWrite record n count =>
    obtain ⟨write, -, rfl⟩ := Option.map_eq_some_iff.mp hstep
    exact .same rfl
  | latePush record n =>
    obtain ⟨late, hlate, rfl⟩ := Option.map_eq_some_iff.mp hstep
    have hmem := List.mem_of_getElem? hlate
    refine .changed rfl ((h.toSound.pushLate hmem).imp_right fun hown => ?_)
    have hrecord := (h.pushes record late hmem).1
    exact ⟨late.add, hrecord, .inr ⟨late, hrecord ▸ hmem, rfl⟩, hown⟩
  | other record history =>
    unfold SigningServer.step at hstep
    dsimp only at hstep
    split_ifs at hstep with hgrown
    obtain rfl := Option.some.inj hstep
    refine ⟨fun r file => (hgrown.setRemote r).fileLines file, fun r => ?_⟩
    by_cases hr : r = record
    · exact .inr (.inl ⟨history, by rw [hr]⟩)
    · exact .inl (remote_setRemote_of_ne hr history)

/-! ### Runs -/

lemma Start.inv (h : Start s) : Inv host s where
  clones := h.clones
  pushes record _ hlate := absurd (h.pushes record ▸ hlate) List.not_mem_nil
  answers _ hanswer := absurd (h.answers ▸ hanswer) List.not_mem_nil
  turn _ _ _ _ hturn := nomatch h.turn.symm.trans hturn

lemma Inv.runs (h : Inv host s) (hrun : Runs host s s') : Inv host s' := by
  induction hrun with
  | refl => exact h
  | tail _ hstep ih =>
    obtain ⟨e, hapart, hstep⟩ := hstep
    exact ih.step hapart hstep

/-- What is promised of a state: its answers are recorded, what a step does to the remotes, and that
their lines stay. -/
structure Safe (host : Host) (s : State) : Prop where
  answers : ∀ answer ∈ s.answers, Recorded host s.remote answer.1 answer.2
  steps : ∀ e s', step host s e = some s' → Keeps host s e s'
  lines : ∀ s', Runs host s s' → ∀ record file,
    (fileLines (fileText (s.remote record) file)).Sublist (fileLines (fileText (s'.remote record) file))

/-- **The signing server records every signature it gives out and loses no line**, in every run in
which no write that outlasted its request comes between. -/
theorem signing_safe {host : Host} {s₀ s : State} (hstart : Start s₀) (hrun : Runs host s₀ s) :
    Safe host s := by
  have hinv : Inv host s := hstart.inv.runs hrun
  refine ⟨hinv.answers, fun e s' hstep => hinv.keeps hstep, fun s' hrun' record file => ?_⟩
  induction hrun' with
  | refl => exact List.Sublist.refl _
  | tail hrun' hstep ih =>
    obtain ⟨e, -, hstep⟩ := hstep
    exact ih.trans (((hinv.runs hrun').keeps hstep).kept record file)

/-! ### Two runs -/

/-- What comes of events, one after another. -/
def run (host : Host) (s : State) (events : List Event) : Option State :=
  events.foldlM (step host) s

/-- An event that is no write that outlasted its request. -/
def Event.onTime : Event → Bool
  | .lateWrite .. => false
  | _ => true

lemma runs_of_run {events : List Event} (honTime : events.all Event.onTime)
    (h : run host s events = some s') : Runs host s s' := by
  induction events generalizing s with
  | nil =>
    obtain rfl := Option.some.inj h
    exact .refl
  | cons e events ih =>
    rw [List.all_cons, Bool.and_eq_true] at honTime
    obtain ⟨mid, hstep, hrest⟩ := Option.bind_eq_some_iff.mp h
    refine .head ⟨e, ?_, hstep⟩ (ih honTime.2 hrest)
    cases e with
    | lateWrite => exact absurd honTime.1 Bool.false_ne_true
    | _ => trivial

/-- A host whose keys sign everything alike. -/
def sampleHost : Host where
  sign _ _ _ := some (Vector.replicate 64 7)
  sha256 _ := Vector.replicate 32 9
  fromStr := compact
  fromStr_text := compact_text

def sampleRequest (serial : UInt16) (dryRun : Bool) : SignRequest where
  id := 1
  pin := "123456"
  chipId := #v[serial, 0, 0, 0x8000]
  board := Hw.fire24D
  manufacturer := "Example"
  date := "20260102"
  dryRun := dryRun

/-- What a dry run with a serial number adds to the private record. -/
def sampleLine (serial : UInt16) : PrivateLine :=
  (sampleRequest serial true).privateLine (Vector.replicate 64 7)

def sampleHistory : History Text :=
  [⟨(∅ : Git.Tree Text).insert "README.md" "Signatures\n".toList, "Start", 0⟩]

def sampleClone : Clone Text where
  upstream := sampleHistory
  head := sampleHistory
  index := sampleHistory.tree
  work := sampleHistory.tree.lookup

/-- Records with nothing signed. -/
def sampleState : State where
  remote _ := sampleHistory
  clone _ := sampleClone
  writes _ := []
  pushes _ := []
  turn := none
  answers := []

lemma start_sampleState : Start sampleState := ⟨fun _ => .refl _, fun _ => rfl, rfl, rfl⟩

/-- A request's turn, as far as the write of its first line. -/
def turnToWrite (request : SignRequest) : List Event := .turn request :: List.replicate 6 (.ok 0)

/-- A live request's push runs out of time and gets there. It is made again. -/
def pushedLate : List Event :=
  turnToWrite (sampleRequest 1 false) ++ List.replicate 3 (.ok 1) ++
    [.stop .timedOut sampleClone true] ++ .turn (sampleRequest 1 false) :: List.replicate 14 (.ok 2)

/-- A request is cut off as it writes its line. Its write is done as the next request, for another
chip, is about to stage its own. -/
def writtenLate : List Event :=
  turnToWrite (sampleRequest 1 true) ++ [.stop .cutOff sampleClone false] ++
    turnToWrite (sampleRequest 2 true) ++ [.ok 1, .lateWrite .privateRecord 0 1000] ++
      List.replicate 3 (.ok 2)

/-- The request made again finds its private line, adds the public one and is answered. -/
theorem signing_safe_pushedLate : ∃ s, run sampleHost sampleState pushedLate = some s ∧
    s.answers.length = 1 ∧ Safe sampleHost s := by
  obtain ⟨s, hrun, hanswers⟩ : ∃ s, run sampleHost sampleState pushedLate = some s ∧
      s.answers.length = 1 := Option.map_eq_some_iff.mp
    (by decide +kernel : (run sampleHost sampleState pushedLate).map (·.answers.length) = some 1)
  exact ⟨s, hrun, hanswers, signing_safe start_sampleState (runs_of_run (by decide) hrun)⟩

/-- The line that is committed is the first request's, and the second is answered. -/
theorem signing_unrecorded : ∃ s, run sampleHost sampleState writtenLate = some s ∧
    ∃ answer ∈ s.answers, ¬ Recorded sampleHost s.remote answer.1 answer.2 := by
  have hrun : (run sampleHost sampleState writtenLate).map (fun s =>
      (s.answers.map fun answer => (answer.1.id, answer.1.privateLine answer.2),
        fileLines (fileText (s.remote .privateRecord) (recordFile .privateRecord 1)))) =
      some ([(1, sampleLine 2)], [(sampleLine 1).text]) := by
    decide +kernel
  obtain ⟨s, hs, hpair⟩ := Option.map_eq_some_iff.mp hrun
  obtain ⟨hanswers, hlines⟩ := Prod.mk.inj hpair
  obtain ⟨answer, hmem, hanswer⟩ : ∃ answer ∈ s.answers,
      (answer.1.id, answer.1.privateLine answer.2) = (1, sampleLine 2) := by
    rw [← List.mem_map, hanswers]
    exact List.mem_singleton_self _
  obtain ⟨hid, hline⟩ := Prod.mk.inj hanswer
  refine ⟨s, hs, answer, hmem, fun hrecorded => ?_⟩
  obtain ⟨raw, hraw, hparse⟩ := hrecorded.privateLine
  change raw ∈ fileLines
    (fileText (s.remote .privateRecord) (recordFile .privateRecord answer.1.id)) at hraw
  change compact raw = some (answer.1.privateLine answer.2) ∨
    compact (Signers.stripCr raw) = some (answer.1.privateLine answer.2) at hparse
  rw [hid, hlines, List.mem_singleton] at hraw
  have hstrip : Signers.stripCr (sampleLine 1).text = (sampleLine 1).text := by decide +kernel
  rw [hraw, hstrip, compact_text, hline, or_self] at hparse
  exact absurd (Option.some.inj hparse) (by decide)

end OneRom.SigningSafe
