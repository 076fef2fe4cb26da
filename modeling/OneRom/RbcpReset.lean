import OneRom.RbcpHandshake

/-!
How a host that has lost its place ends a session. No command takes 0xAA as its last argument, and
0xAA 0xAA is the reset. So whatever the device is in the middle of, eleven such bytes end the
session, and what the host was in the middle of isn't done.
-/

namespace OneRom.Rbcp

open OneRom.Fallible OneRom.Fallible.Prog OneRom.Listener
open OneRom.RamSlot (writeBytes)

variable [Firmware]

/-! ### Reserved arguments -/

/-- The command is refused, and leaves the session at most. -/
def Refused (p : Plugin) (ok : Bool) (q : Plugin) : Prop :=
  ok = false ∧ (q = p ∨ q = { p with active := false })

lemma andExit_refused {step : Step} {p : Plugin} (h : step p = (false, p)) :
    Refused p (andExit step p).1 (andExit step p).2 := by
  unfold andExit
  rw [h]
  exact ⟨rfl, Or.inr rfl⟩

lemma answerIn_none {size : ℕ} {bytes : Plugin → Option (List UInt8)} {p : Plugin}
    (h : bytes p = none) : answerIn size bytes p = (false, p) := by
  unfold answerIn
  split
  · rfl
  · rw [h]

lemma loadSlot_reserved (ramSlot : UInt8) (p : Plugin) : loadSlot ramSlot 0xAA p = (false, p) :=
  if_pos (Or.inr rfl)

lemma setAux_reserved (state after hold pin : UInt8) (p : Plugin) :
    setAux state after hold pin 0xAA p = (false, p) := rfl

lemma Ends.refused {step : Step} (h : ∀ p, step p = (false, p)) :
    Ends Refused (act step : Command Bool) := by
  refine Ends.act fun p => ?_
  rw [h]
  exact ⟨rfl, Or.inl rfl⟩

lemma Ends.refused_exit {step : Step} (h : ∀ p, step p = (false, p)) :
    Ends Refused (act (andExit step) : Command Bool) := Ends.act fun p => andExit_refused (h p)

/-- No command takes 0xAA as its last argument. -/
lemma Cmd.exec_reserved (c : Cmd) (h : 0 < c.args) : EndsOn 0xAA c.args Refused c.exec := by
  cases c <;> first
    | exact absurd h (by decide)
    | unfold exec
  all_goals
    repeat' refine EndsOn.hear_bind fun _ => ?_
    refine EndsOn.last ?_
  case enterCmdResp =>
    refine Ends.refused fun p => ?_
    unfold Rbcp.enterCmdResp
    split
    · rfl
    · exact if_pos (Or.inr rfl)
  case switchAndExit => exact Ends.refused_exit fun _ => rfl
  case loadAndExit => exact Ends.refused_exit (loadSlot_reserved _)
  case exitCmdRespRestore =>
    refine Ends.act fun p => ?_
    unfold Rbcp.exitCmdRespRestore
    split
    · exact ⟨rfl, Or.inl rfl⟩
    · exact ⟨rfl, Or.inr rfl⟩
  case setAuxAndExit => exact Ends.refused_exit (setAux_reserved _ _ _ _)
  case setAuxSwitchExit => exact Ends.act fun p => ⟨rfl, Or.inr rfl⟩
  case loadSlot => exact Ends.refused (loadSlot_reserved _)
  case nvPeek => exact Ends.refused fun _ => if_pos (by decide)
  case nvPoke =>
    refine Ends.refused fun p => ?_
    unfold nvPokeImpl
    split
    · rfl
    · exact if_pos (by decide)
  case pipeWrite => exact Ends.refused fun _ => if_pos (Or.inr (by decide))
  case setAux => exact Ends.refused (setAux_reserved _ _ _ _)
  case getAuxGroupInfo | getAuxPinInfo | getLedInfo | getLedModeInfo =>
    exact Ends.refused fun _ => answerIn_none rfl
  all_goals exact Ends.refused fun _ => rfl

/-! ### What is flushed -/

/-- A frame whose last byte is 0xAA: an argument, or the number of a command that has none. -/
structure Flushed (frame : Frame) : Prop where
  whole : frame.Whole
  last : frame.args.getLast? = some 0xAA ∨ frame.cmd = 0xAA ∧ frame.args = []

omit [Firmware] in
lemma Cmd.args_le (c : Cmd) : c.args ≤ 9 := by
  cases c <;> decide

omit [Firmware] in
lemma argBytes_le (group cmd : UInt8) : argBytes group cmd ≤ 9 := by
  unfold argBytes
  cases Cmd.ofCode group cmd with
  | none => exact Nat.zero_le _
  | some c => exact c.args_le

omit [Firmware] in
/-- The one command that 0xAA is the number of has no arguments. -/
lemma Cmd.eq_rbcpReset {group : UInt8} {c : Cmd} (h : ofCode group 0xAA = some c) :
    c = .rbcpReset := by
  have hcode : c.code.2 = 0xAA := congrArg Prod.snd (code_of_ofCode h)
  cases c <;> first
    | rfl
    | exact absurd hcode (by decide)

omit [Firmware] in
lemma argBytes_reserved (group : UInt8) : argBytes group 0xAA = 0 := by
  unfold argBytes
  cases hcode : Cmd.ofCode group 0xAA with
  | none => rfl
  | some c =>
    rw [Cmd.eq_rbcpReset hcode]
    rfl

omit [Firmware] in
/-- Nine bytes at most complete what was begun. -/
lemma nextFrame_flushed {pre : List UInt8} (hpre : nextFrame pre = none) (rest : List UInt8) :
    ∃ frame j, j ≤ 9 ∧ Flushed frame ∧
      nextFrame (pre ++ (List.replicate 11 0xAA ++ rest)) =
        some (frame, List.replicate (11 - j) 0xAA ++ rest) := by
  have hnone : ∀ (group : UInt8) (left : List UInt8),
      nextFrame (group :: 0xAA :: left) = some (⟨group, 0xAA, []⟩, left) := fun group left => by
    rw [nextFrame, argBytes_reserved, if_neg (Nat.not_lt_zero _)]
    rfl
  have hflushed : ∀ group : UInt8, Flushed ⟨group, 0xAA, []⟩ := fun group =>
    ⟨(argBytes_reserved group).symm, Or.inr ⟨rfl, rfl⟩⟩
  rcases pre with _ | ⟨group, _ | ⟨cmd, args⟩⟩
  · exact ⟨_, 2, by decide, hflushed 0xAA, hnone _ _⟩
  · exact ⟨_, 1, by decide, hflushed group, hnone _ _⟩
  · have hlen : args.length < argBytes group cmd := by
      by_contra hge
      rw [nextFrame, if_neg hge] at hpre
      cases hpre
    have hle := argBytes_le group cmd
    obtain ⟨j, hj⟩ := Nat.exists_eq_add_of_lt hlen
    have hsplit : List.replicate 11 (0xAA : UInt8) ++ rest =
        List.replicate (j + 1) 0xAA ++ (List.replicate (11 - (j + 1)) 0xAA ++ rest) := by
      rw [← List.append_assoc, ← List.replicate_add, Nat.add_sub_cancel' (by omega)]
    have hargs : (args ++ List.replicate (j + 1) (0xAA : UInt8)).length = argBytes group cmd := by
      rw [List.length_append, List.length_replicate, hj, Nat.add_assoc]
    refine ⟨⟨group, cmd, args ++ List.replicate (j + 1) 0xAA⟩, j + 1, by omega,
      ⟨hargs, Or.inl ?_⟩, ?_⟩
    · rw [List.replicate_succ', ← List.append_assoc, List.getLast?_concat]
    · refine nextFrame_eq_some.mpr ⟨hargs, ?_⟩
      rw [hsplit, Frame.bytes, List.cons_append, List.cons_append, List.cons_append,
        List.cons_append, List.append_assoc]

/-! ### What is done -/

/-- A flushed command is refused, unless it is the reset. -/
lemma dispatched_flushed (p : Plugin) {frame : Frame} (h : Flushed frame) :
    Refused p (dispatched p frame).1 (dispatched p frame).2 ∨
      cmdIsSilent frame.group frame.cmd = true ∧ dispatched p frame = (true, initRbcp p) := by
  rcases dispatched_cases p h.whole with hrefused | ⟨c, hcode, -, ⟨t, hrun, hstate⟩, -⟩
  · rw [hrefused]
    exact Or.inl ⟨rfl, Or.inl rfl⟩
  have hlen : frame.args.length = c.args := by
    rw [h.whole, argBytes, hcode]
    rfl
  rcases h.last with hlast | ⟨hcmd, hargs⟩
  · have hpos : 0 < c.args := by
      rw [← hlen]
      exact List.length_pos_of_mem (List.mem_of_getLast? hlast)
    rw [← hstate]
    exact Or.inl (c.exec_reserved hpos _ _ _ _ hlen hlast hrun)
  · obtain rfl : c = .rbcpReset := Cmd.eq_rbcpReset (hcmd ▸ hcode)
    have hdone : (Except.ok true, (⟨frame.args, initRbcp p⟩ : Scene UInt8 Plugin)) = _ := hrun
    obtain ⟨hok, ht⟩ := Prod.mk.inj hdone
    refine Or.inr ⟨by rw [cmdIsSilent, hcode]; rfl, Prod.ext (Except.ok.inj hok).symm ?_⟩
    rw [← hstate, ← ht]

/-- From `p` to `q` nothing changes but the session, and the bytes of its header. -/
structure Brief (p q : Plugin) : Prop where
  session : ∃ active activeSlot cfg tokenLsb tokenMsb nvState nvDeferred mem backWrites,
    q = { p with active, activeSlot, cfg, tokenLsb, tokenMsb, nvState, nvDeferred, mem, backWrites }
  header : ∃ writes, (∀ write ∈ writes, write.1 < HDR_SIZE) ∧
    q.mem = (headed p.activeSlot writes p).mem ∧
      q.backWrites = p.backWrites ++ headers p.activeSlot writes

/-- What a flushed command comes to before it is answered. -/
structure Idled (p q : Plugin) : Prop where
  session : ∃ active activeSlot cfg tokenLsb tokenMsb nvState,
    q = { p with active, activeSlot, cfg, tokenLsb, tokenMsb, nvState }
  still : p.active = false → q.active = false

lemma Refused.idled {p q : Plugin} {ok : Bool} (h : Refused p ok q) : Idled p q := by
  rcases h.2 with rfl | rfl
  · exact ⟨⟨_, _, _, _, _, _, rfl⟩, id⟩
  · exact ⟨⟨_, _, _, _, _, _, rfl⟩, fun _ => rfl⟩

lemma initRbcp_idled {p : Plugin} (h : p.nvDeferred = .none) : Idled p (initRbcp p) := by
  have heq : initRbcp p = { initRbcp p with nvDeferred := p.nvDeferred } := by
    rw [h]
    rfl
  exact ⟨⟨_, _, _, _, _, _, heq⟩, fun _ => rfl⟩

/-- Where no byte of the header is written. -/
lemma Brief.of_idled {p q : Plugin} (h : Idled p q) : Brief p q ∧ Brief p (settled q) := by
  obtain ⟨_, _, _, _, _, _, rfl⟩ := h.session
  have hnone : p.backWrites = p.backWrites ++ headers p.activeSlot [] := (List.append_nil _).symm
  obtain ⟨_, _, heq, -⟩ := settled_eq _
  rw [heq]
  constructor <;> exact ⟨⟨_, _, _, _, _, _, _, _, _, rfl⟩, [],
    fun _ hwrite => absurd hwrite List.not_mem_nil, rfl, hnone⟩

/-- In a session a command that is refused writes its header. -/
lemma Brief.of_refused {p q : Plugin} {ok : Bool} (hp : Sound p) (hactive : p.active = true)
    {group cmd : UInt8} (hsilent : cmdIsSilent group cmd = false)
    (h : Refused (beginCommand group cmd p) ok q) :
    Brief p (endCommand group cmd true (ok, q)) := by
  obtain ⟨tokenLsb, tokenMsb, hnext⟩ := nextToken_eq p
  have hbegin : beginCommand group cmd p =
      headed p.activeSlot (beginWrites p.cfg tokenLsb tokenMsb group cmd)
        { p with tokenLsb, tokenMsb } := by
    rw [beginCommand_headed hp hactive hsilent, hnext]
  rw [hbegin] at h
  have hwrites : ∀ write ∈ beginWrites p.cfg tokenLsb tokenMsb group cmd ++
      endWrites p.cfg ok false, write.1 < HDR_SIZE := by
    have hoffsets : ∀ offset ∈ [HDR_PROGRESS, HDR_TOKEN_LSB, HDR_TOKEN_MSB, HDR_LAST_CMD_GROUP,
        HDR_LAST_CMD_CMD, HDR_RESPONSE, HDR_PROGRESS], offset < HDR_SIZE := by decide
    exact fun write hwrite => hoffsets _ (List.mem_map_of_mem hwrite)
  have hmem : writeBytes (writeBytes p.mem ((beginWrites p.cfg tokenLsb tokenMsb group cmd).map
      (hdrEntry p p.activeSlot))) ((endWrites p.cfg ok false).map (hdrEntry p p.activeSlot)) =
      (headed p.activeSlot (beginWrites p.cfg tokenLsb tokenMsb group cmd ++
        endWrites p.cfg ok false) p).mem :=
    congrArg Plugin.mem (headed_append p.activeSlot (beginWrites p.cfg tokenLsb tokenMsb group cmd)
      (endWrites p.cfg ok false) p)
  have htrace := congrArg Plugin.backWrites (headed_append p.activeSlot
    (beginWrites p.cfg tokenLsb tokenMsb group cmd) (endWrites p.cfg ok false) p)
  have hq : Sound q := by
    rcases h.2 with rfl | rfl
    · exact ⟨hp.served, hp.slot, hp.region⟩
    · exact ⟨hp.served, hp.slot, fun hstill => Bool.noConfusion hstill⟩
  obtain ⟨_, _, heq, -⟩ := settled_eq (headed q.activeSlot (endWrites q.cfg ok false) q)
  rw [endCommand_answered hsilent hq, heq]
  rcases h.2 with rfl | rfl <;>
    exact ⟨⟨_, _, _, _, _, _, _, _, _, rfl⟩, _, hwrites, hmem, htrace⟩

/-- What was begun isn't done. -/
lemma perform_flushed {p : Plugin} {frame : Frame} (hp : Ready p) (h : Flushed frame) :
    Brief p (perform p frame) := by
  have hbegin := beginCommand_eq hp.sound frame.group frame.cmd
  have hcases := dispatched_flushed (beginCommand frame.group frame.cmd p) h
  have hworked : worked p frame = dispatched (beginCommand frame.group frame.cmd p) frame := by
    obtain ⟨_, _, _, _, heq⟩ := hbegin
    refine finishDeferred_none ?_
    rcases hcases with ⟨-, hr | hr⟩ | ⟨-, hr⟩ <;> rw [hr]
    · rw [heq]
      exact hp.deferred
    · rw [heq]
      exact hp.deferred
    · rfl
  rw [perform_eq h.whole, hworked]
  cases hactive : p.active with
  | true =>
    rcases Bool.eq_false_or_eq_true (cmdIsSilent frame.group frame.cmd) with hsilent | hsilent
    · rw [beginCommand_silent fun _ => hsilent] at hcases ⊢
      rw [endCommand_silent hsilent]
      rcases hcases with hrefused | ⟨-, hreset⟩
      · exact (Brief.of_idled hrefused.idled).2
      · rw [hreset]
        exact (Brief.of_idled (initRbcp_idled hp.deferred)).2
    · rcases hcases with hrefused | ⟨hreset, -⟩
      · exact .of_refused hp.sound hactive hsilent hrefused
      · exact absurd (hsilent.symm.trans hreset) Bool.false_ne_true
  | false =>
    rw [beginCommand_silent fun h => absurd (hactive.symm.trans h) Bool.false_ne_true] at hcases ⊢
    have hidled : Idled p (dispatched p frame).2 := by
      rcases hcases with hrefused | ⟨-, hreset⟩
      · exact hrefused.idled
      · rw [hreset]
        exact initRbcp_idled hp.deferred
    rw [endCommand_idle (hidled.still hactive)]
    exact (Brief.of_idled hidled).1

/-! ### The reset -/

/-- In a session the reset ends it. -/
lemma perform_reset {p : Plugin} (hactive : p.active = true) :
    perform p ⟨0xAA, 0xAA, []⟩ = initRbcp p := by
  have hwhole : (⟨0xAA, 0xAA, []⟩ : Frame).Whole := rfl
  rw [perform_eq hwhole, hactive]
  unfold worked
  rw [beginCommand_silent fun _ => rfl, show dispatched p ⟨0xAA, 0xAA, []⟩ = (true, initRbcp p) from rfl,
    finishDeferred_none rfl, endCommand_silent rfl]
  rfl

/-- From `p` the session has ended, and its transaction with it. Nothing else has changed but the
bytes of its header. -/
structure Recovered (p q : Plugin) : Prop where
  active : q.active = false
  closed : q.nvState.active = false
  brief : Brief p q

lemma session_command {n : ℕ} {input rest : List UInt8} {p : Plugin} {frame : Frame}
    (h : nextFrame input = some (frame, rest)) :
    session (n + 1) ⟨input, p⟩ =
      if (perform p frame).active then session n ⟨rest, perform p frame⟩
      else (.ok false, ⟨rest, perform p frame⟩) := by
  rcases command_eq input p with ⟨-, hnone⟩ | ⟨frame', rest', hframe, hrun⟩
  · cases h.symm.trans hnone
  cases h.symm.trans hframe
  rw [session, bind_of_ok hrun, isActive, act_bind]
  split <;> rfl

/-- **Recovery**: whatever a session is in the middle of, eleven bytes 0xAA end it within two
commands. What was begun isn't done: the slots, the one that is served, NV storage, the pipes, the
pins and the LEDs are as they were, and of memory the header alone has changed. -/
theorem session_reset {p : Plugin} (hp : Ready p) {pre : List UInt8} (hpre : nextFrame pre = none)
    (n : ℕ) (rest : List UInt8) :
    ∃ k q, session (n + 2) ⟨pre ++ (List.replicate 11 0xAA ++ rest), p⟩ =
      (.ok false, ⟨List.replicate k 0xAA ++ rest, q⟩) ∧ Recovered p q ∧ Ready q := by
  obtain ⟨frame, j, hj, hflushed, hframe⟩ := nextFrame_flushed hpre rest
  have hready := perform_ready hp hflushed.whole
  have hbrief := perform_flushed hp hflushed
  rw [session_command hframe]
  by_cases hactive : (perform p frame).active = true
  · -- the reset comes after what was begun
    have hreset : nextFrame (List.replicate (11 - j) 0xAA ++ rest) =
        some (⟨0xAA, 0xAA, []⟩, List.replicate (9 - j) 0xAA ++ rest) := by
      rw [show 11 - j = 9 - j + 1 + 1 by omega]
      rfl
    refine ⟨9 - j, initRbcp (perform p frame), ?_, ⟨rfl, rfl, ?_⟩, initRbcp_ready ?_⟩
    · rw [if_pos hactive, session_command hreset, perform_reset hactive]
      rfl
    · obtain ⟨_, _, _, _, _, _, _, _, _, heq⟩ := hbrief.session
      obtain ⟨writes, hwrites, hmem, htrace⟩ := hbrief.header
      exact ⟨by rw [heq]; exact ⟨_, _, _, _, _, _, _, _, _, rfl⟩, writes, hwrites, hmem, htrace⟩
    · exact hready.sound.served
  · refine ⟨11 - j, perform p frame, if_neg hactive, ⟨?_, ?_, hbrief⟩, hready⟩
    · exact Bool.not_eq_true _ |>.mp hactive
    · by_contra hopen
      exact hactive (hready.staged (Bool.not_eq_false _ |>.mp hopen))

omit [Firmware] in
/-- A poke that has two of its five arguments. -/
theorem session_reset_poke : ∃ slot addr cs,
    RomSlot.buildRomSlot Hw.fire24A .single RamSlot.chip2316 [] false = .ok (slot, addr, cs) ∧
      letI := bareFirmware
      ∃ k q, session 2 ⟨[0x02, 0x00, 0x34, 0x12] ++ (List.replicate 11 0xAA ++ []),
        bareDevice (RamSlot.runtime slot)⟩ = (.ok false, ⟨List.replicate k 0xAA ++ [], q⟩) ∧
          Recovered (bareDevice (RamSlot.runtime slot)) q ∧ Ready q := by
  have hbuild : ∃ slot addr cs,
      RomSlot.buildRomSlot Hw.fire24A .single RamSlot.chip2316 [] false = .ok (slot, addr, cs) :=
    ⟨_, _, _, rfl⟩
  obtain ⟨slot, addr, cs, hslot⟩ := hbuild
  have hserved : AddrMap.Served (RamSlot.runtime slot).currentSlot :=
    ⟨Hw.fire24A, List.mem_cons_self, .single, RamSlot.chip2316, [], false, addr, cs, hslot⟩
  let _ := bareFirmware
  exact ⟨slot, addr, cs, hslot, session_reset (initRbcp_ready hserved) (by decide) 0 []⟩

end OneRom.Rbcp
