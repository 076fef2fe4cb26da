import OneRom.RbcpRun

/-!
The frames of a session. Where one command ends and the next begins depends on the bytes alone: a
command hears as many arguments in either mode, whatever they are and whatever comes of it. So the
commands of a stream are its frames, performed one after the other.
-/

namespace OneRom.Rbcp

open OneRom.Fallible OneRom.Fallible.Prog OneRom.Listener

variable [Firmware]

/-- The arguments a command has. -/
def Cmd.args : Cmd → ℕ
  | .enterCmdResp => 9
  | .switchAndExit => 1
  | .loadAndExit => 2
  | .exitCmdRespRestore => 9
  | .slotPoke => 5
  | .switchSlot => 1
  | .loadSlot => 2
  | .slotPokeAllByte => 2
  | c => c.argCount

/-- The bytes that follow a group and a command. -/
def argBytes (group cmd : UInt8) : ℕ := ((Cmd.ofCode group cmd).map Cmd.args).getD 0

structure Frame where
  group : UInt8
  cmd : UInt8
  args : List UInt8

/-- The first frame of a stream, and what follows it. -/
def nextFrame : List UInt8 → Option (Frame × List UInt8)
  | group :: cmd :: rest =>
    if rest.length < argBytes group cmd then none
    else some (⟨group, cmd, rest.take (argBytes group cmd)⟩, rest.drop (argBytes group cmd))
  | _ => none

/-- The first `n` frames of a stream, and what follows them. -/
def frames : ℕ → List UInt8 → Option (List Frame × List UInt8)
  | 0, input => some ([], input)
  | n + 1, input => do
    let (frame, rest) ← nextFrame input
    let (more, rest) ← frames n rest
    return (frame :: more, rest)

/-- The command of a frame, with its arguments at hand. -/
def perform (p : Plugin) (frame : Frame) : Plugin :=
  (runCommand frame.group frame.cmd ⟨frame.args, p⟩).2.state

/-! ### Arguments -/

lemma Cmd.exec_hears (c : Cmd) : Hears c.args c.exec := by
  cases c <;> unfold Cmd.exec <;> first
    | exact Hears.pure _
    | repeat' refine Hears.hear_bind fun _ => ?_
      exact Hears.act _

omit [Firmware] in
/-- What is refused in command mode has as many arguments as what is let through. -/
lemma Cmd.argCount_eq {c : Cmd} (h : c.inSession = true) : c.argCount = c.args := by
  cases c <;> first | rfl | exact absurd h (by decide)

lemma dispatch_hears (group cmd : UInt8) : Hears (argBytes group cmd) (dispatch group cmd) := by
  unfold dispatch argBytes
  cases Cmd.ofCode group cmd with
  | none => exact Hears.pure _
  | some c =>
    refine Hears.act_bind fun active => ?_
    dsimp only [Option.map_some, Option.getD_some]
    split_ifs with h
    · rw [← Cmd.argCount_eq h.1]
      exact (Hears.skip _).bind_act fun _ => Hears.pure _
    · exact c.exec_hears

lemma runCommand_hears (group cmd : UInt8) : Hears (argBytes group cmd) (runCommand group cmd) := by
  unfold runCommand
  refine Hears.act_bind fun wasActive => Hears.act_bind fun _ => ?_
  exact (dispatch_hears group cmd).bind_act fun _ => Hears.act _

/-! ### Frames -/

lemma command_cons (group cmd : UInt8) (rest : List UInt8) (p : Plugin) :
    command ⟨group :: cmd :: rest, p⟩ = runCommand group cmd ⟨rest, p⟩ := rfl

lemma command_eq (input : List UInt8) (p : Plugin) :
    (∃ t, command ⟨input, p⟩ = (.error (), ⟨[], t⟩)) ∧ nextFrame input = none ∨
      ∃ frame rest, nextFrame input = some (frame, rest) ∧
        command ⟨input, p⟩ = (.ok (), ⟨rest, perform p frame⟩) := by
  match input with
  | [] => exact Or.inl ⟨⟨p, rfl⟩, rfl⟩
  | [_] => exact Or.inl ⟨⟨p, rfl⟩, rfl⟩
  | group :: cmd :: rest =>
    rw [command_cons, nextFrame]
    split_ifs with hlen
    · exact Or.inl ⟨(runCommand_hears group cmd).waits rest p hlen, rfl⟩
    · have htake : (rest.take (argBytes group cmd)).length = argBytes group cmd := by
        rw [List.length_take]
        omega
      obtain ⟨_, hrun, -⟩ := (runCommand_hears group cmd).eq_told htake p
        (rest.drop (argBytes group cmd))
      rw [List.take_append_drop] at hrun
      exact Or.inr ⟨_, _, rfl, hrun⟩

/-- **Framing**: whatever state the plugin is in, `n` commands are done exactly where the stream has
`n` frames, each of a length its first two bytes alone decide. They leave what follows the frames,
and do what the frames do one after the other. Where the stream has fewer, all of it is heard and
the plugin waits. -/
theorem commands_frames (n : ℕ) (input : List UInt8) (p : Plugin) :
    match frames n input with
    | some (done, rest) => commands n ⟨input, p⟩ = (.ok (), ⟨rest, done.foldl perform p⟩)
    | none => ∃ t, commands n ⟨input, p⟩ = (.error (), ⟨[], t⟩) := by
  induction n generalizing input p with
  | zero => rfl
  | succ n ih =>
    rw [commands, frames]
    rcases command_eq input p with ⟨⟨t, hwait⟩, hnone⟩ | ⟨frame, rest, hsome, hrun⟩
    · rw [hnone, bind_run, hwait]
      exact ⟨t, rfl⟩
    · rw [hsome, bind_of_ok hrun]
      have hrest := ih rest (perform p frame)
      dsimp only [Option.bind_eq_bind, Option.bind_some] at hrest ⊢
      cases hframes : frames n rest with
      | none => rwa [hframes] at hrest
      | some more => rwa [hframes] at hrest

end OneRom.Rbcp
