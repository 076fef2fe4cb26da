import OneRom.RbcpNv

/-!
What a command that fails has done. There are a few that may stop part way; of the others, whatever
they are and however many, nothing is left but the bytes of the session's region.
-/

namespace OneRom.Rbcp

open OneRom.AddrMap (Served)

variable [Firmware]

/-- The commands that may have done a part of their work where they fail. -/
def Cmd.stopsPartWay : Cmd → Bool
  | .enterCmdResp | .slotPokeAllByte | .nvPokeCommitByte | .pipeWrite | .pipeRead | .setAux
  | .setAuxAndExit | .setAuxSwitchExit => true
  | _ => false

/-- From `p` to `q` nothing has changed but the session and, in the slot of its header, the bytes of
its region. A transaction is as it was as long as the session lasts. -/
structure Spared (p q : Plugin) : Prop where
  rest : ∃ active tokenLsb tokenMsb nvState nvDeferred nvWrites mem backWrites,
    q = { p with active, tokenLsb, tokenMsb, nvState, nvDeferred, nvWrites, mem, backWrites }
  idle : p.active = false → q.active = false
  transaction : q.active = true → q.nvState = p.nvState
  memory : SlotOnly p q p.activeSlot
  slots : ∀ cell : Cell, cell.2 < cellCount p.rt → ¬InRegion p.cfg cell →
    readCell q cell = readCell p cell

namespace Spared

variable {p q r : Plugin}

lemma refl (p : Plugin) : Spared p p :=
  ⟨⟨_, _, _, _, _, _, _, _, rfl⟩, id, fun _ => rfl, .same rfl _, fun _ _ _ => rfl⟩

lemma rt (h : Spared p q) : q.rt = p.rt := by
  obtain ⟨_, _, _, _, _, _, _, _, rfl⟩ := h.rest
  rfl

lemma cfg (h : Spared p q) : q.cfg = p.cfg := by
  obtain ⟨_, _, _, _, _, _, _, _, rfl⟩ := h.rest
  rfl

lemma activeSlot (h : Spared p q) : q.activeSlot = p.activeSlot := by
  obtain ⟨_, _, _, _, _, _, _, _, rfl⟩ := h.rest
  rfl

lemma trans (h : Spared p q) (h' : Spared q r) : Spared p r where
  rest := by
    obtain ⟨_, _, _, _, _, _, _, _, rfl⟩ := h.rest
    obtain ⟨_, _, _, _, _, _, _, _, rfl⟩ := h'.rest
    exact ⟨_, _, _, _, _, _, _, _, rfl⟩
  idle hidle := h'.idle (h.idle hidle)
  transaction hactive := by
    refine (h'.transaction hactive).trans (h.transaction ?_)
    by_contra hidle
    exact absurd ((h'.idle (Bool.not_eq_true _ |>.mp hidle)).symm.trans hactive) Bool.false_ne_true
  memory := h.memory.trans (h.activeSlot ▸ h'.memory) (by rw [h.rt])
  slots cell hcell hregion := by
    rw [← h.slots cell hcell hregion]
    exact h'.slots cell (h.rt ▸ hcell) (h.cfg ▸ hregion)

lemma fits (h : Spared p q) (hp : Fits p) : Fits q := by
  unfold Fits at hp ⊢
  rw [h.cfg, h.rt]
  exact hp

lemma sound (h : Spared p q) (hp : Sound p) : Sound q := by
  have hidle := h.idle
  obtain ⟨_, _, _, _, _, _, _, _, rfl⟩ := h.rest
  refine ⟨hp.served, hp.slot, fun hactive => hp.region ?_⟩
  by_contra hno
  exact absurd ((hidle (Bool.not_eq_true _ |>.mp hno)).symm.trans hactive) Bool.false_ne_true

/-- What is written is written in the region. -/
lemma of_laid {writes : List BackWrite}
    (hrest : ∃ active tokenLsb tokenMsb nvDeferred nvWrites mem backWrites,
      q = { p with active, tokenLsb, tokenMsb, nvDeferred, nvWrites, mem, backWrites })
    (hidle : p.active = false → q.active = false)
    (hmemory : SlotOnly p q p.activeSlot) (hlaid : Laid p q (backCells p.cfg.regionOffset writes))
    (hinside : ∀ w ∈ writes, w.Inside p.cfg) : Spared p q where
  rest := by
    obtain ⟨_, _, _, _, _, _, _, rfl⟩ := hrest
    exact ⟨_, _, _, _, _, _, _, _, rfl⟩
  idle := hidle
  transaction _ := by
    obtain ⟨_, _, _, _, _, _, _, rfl⟩ := hrest
    rfl
  memory := hmemory
  slots cell hcell hregion := by
    refine hlaid.kept hcell fun hmem => ?_
    obtain ⟨write, hwrite, rfl⟩ := List.mem_map.mp hmem
    exact hregion (inRegion_of_mem_backCells hinside hwrite)

end Spared

/-! ### The header -/

lemma beginCommand_spared {p : Plugin} (hp : Sound p) (hfits : Fits p) (group cmd : UInt8) :
    Spared p (beginCommand group cmd p) := by
  by_cases hopen : p.active = true ∧ ¬cmdIsSilent group cmd = true
  · have hsilent := Bool.eq_false_of_not_eq_true hopen.2
    have hlaid := beginCommand_laid hp hopen.1 hfits hsilent
    have hbegin := beginCommand_headed hp hopen.1 hsilent
    obtain ⟨tokenLsb, tokenMsb, hnext⟩ := nextToken_eq p
    rw [hnext] at hbegin
    rw [hbegin] at hlaid ⊢
    have hmemory := @headed_slotOnly _ { p with tokenLsb, tokenMsb } hp.served p.activeSlot
      (beginWrites p.cfg tokenLsb tokenMsb group cmd)
    exact .of_laid ⟨_, _, _, _, _, _, _, rfl⟩ id hmemory hlaid
      (inside_headers (beginWrites_lt _ _ _ _ _))
  · rw [beginCommand, if_neg hopen]
    exact .refl p

lemma headed_spared {p : Plugin} (hp : Sound p) (hfits : Fits p) {writes : List (ℕ × UInt8)}
    (h : ∀ write ∈ writes, write.1 < HDR_SIZE) : Spared p (headed p.activeSlot writes p) :=
  .of_laid ⟨_, _, _, _, _, _, _, rfl⟩ id (headed_slotOnly hp.served _ _)
    (headed_laid hp.served hfits _ h) (inside_headers h)

lemma settled_spared (p : Plugin) : Spared p (settled p) := by
  unfold settled
  split
  · exact .refl p
  · next hidle =>
    exact ⟨⟨_, _, _, _, _, _, _, _, rfl⟩, id, fun hactive => absurd hactive hidle,
      .same rfl _, fun _ _ _ => rfl⟩

/-! ### The command's own work -/

omit [Firmware] in
lemma Cmd.failed_kinds {c : Cmd} (h : c.stopsPartWay = false) :
    ∀ k ∈ c.failed, k ∈ [Kind.exit, .answer] := by
  cases c <;> first
    | exact absurd h (by decide)
    | decide

/-- Answers, and the end of a session. -/
lemma Work.spared {kinds : List Kind} {p q : Plugin} (h : Work kinds p q)
    (hkinds : ∀ k ∈ kinds, k ∈ [Kind.exit, .answer]) (hp : Served p.rt.currentSlot)
    (hfits : Fits p) : Spared p q ∧ q.nvDeferred = p.nvDeferred := by
  have hquiet : ∀ k ∈ kinds, k ∈ quietKinds := fun k hk => by
    have hk := hkinds k hk
    simp only [List.mem_cons, List.not_mem_nil, or_false] at hk
    rcases hk with rfl | rfl <;> decide
  obtain ⟨data, hanswered, -⟩ := h.answered hquiet hp hfits
  have hframe : (∃ active mem backWrites, q = { p with active, mem, backWrites }) ∧
      (p.active = false → q.active = false) ∧ SlotOnly p q p.activeSlot := by
    refine Work.invariant (I := fun q => (∃ active mem backWrites,
      q = { p with active, mem, backWrites }) ∧ (p.active = false → q.active = false) ∧
        SlotOnly p q p.activeSlot) (fun k hk q r hact hq => ?_) h
      ⟨⟨_, _, _, rfl⟩, id, .same rfl _⟩
    obtain ⟨⟨active, mem, backWrites, rfl⟩, hidle, hmemory⟩ := hq
    cases hact with
    | answer dataOffset bytes =>
      have hwrite := @dataWrite_slotOnly _ { p with active, mem, backWrites } hp p.activeSlot
        dataOffset bytes
      have hmemory' := hmemory.trans hwrite rfl
      rw [dataWrite_frame] at hmemory' ⊢
      exact ⟨⟨_, _, _, rfl⟩, hidle, hmemory'⟩
    | exit => exact ⟨⟨_, _, _, rfl⟩, fun _ => rfl, hmemory⟩
    | _ => exact absurd (hkinds _ hk) (by decide)
  obtain ⟨⟨_, _, _, rfl⟩, hidle, hmemory⟩ := hframe
  exact ⟨.of_laid ⟨_, _, _, _, _, _, _, rfl⟩ hidle hmemory hanswered.laid hanswered.inside, rfl⟩

/-- A write to flash that fails leaves NV storage, and the transaction. -/
lemma finishDeferred_failed {p : Plugin} (h : (finishDeferred true p).1 = false) :
    p.nvDeferred ≠ .none ∧
      ∃ nvWrites, (finishDeferred true p).2 = { p with nvDeferred := .none, nvWrites } := by
  have hkind : p.nvDeferred ≠ .none := fun hnone => by
    rw [@finishDeferred_none _ (true, p) hnone] at h
    cases h
  refine ⟨hkind, ?_⟩
  unfold finishDeferred nvDeferredRun nvFlashWrite at h ⊢
  cases hkind' : p.nvDeferred with
  | none => exact absurd hkind' hkind
  | slot =>
    rw [hkind'] at h
    dsimp only at h ⊢
    split at h
    · cases h
    · next hfailed =>
      rw [if_neg hfailed]
      exact ⟨_, rfl⟩
  | noslot byte offset =>
    rw [hkind'] at h
    dsimp only at h ⊢
    split at h
    · cases h
    · next hfailed =>
      rw [if_neg hfailed]
      exact ⟨_, rfl⟩

omit [Firmware] in
lemma Cmd.eq_nvPokeCommit {c : Cmd} (h : c.stopsPartWay = false) (hmem : Kind.commit ∈ c.done) :
    c = .nvPokeCommit := by
  cases c <;> first
    | rfl
    | exact absurd h (by decide)
    | exact absurd hmem (by decide)

/-- What is left to be written to flash is left by a commit. -/
lemma Work.deferred {kinds : List Kind} {p q : Plugin} (h : Work kinds p q)
    (hcommit : Kind.commit ∉ kinds) (hp : p.nvDeferred = .none) : q.nvDeferred = .none := by
  refine Work.invariant (I := fun q => q.nvDeferred = .none) (fun k hk q r hact hq => ?_) h hp
  have hkept := hact.kept
  cases hact with
  | discard | reset => rfl
  | commit | commitNoslot => exact absurd hk hcommit
  | _ => exact (hkept.deferred (by decide)).trans hq

lemma finished_spared {p : Plugin} {frame : Frame} (hp : Sound p) (hfits : Fits p)
    (hdeferred : p.nvDeferred = .none) (h : frame.Whole)
    (hwhole : ∀ c, Cmd.ofCode frame.group frame.cmd = some c → c.stopsPartWay = false)
    (hfail : (finishDeferred (dispatched p frame).1 (dispatched p frame).2).1 = false) :
    Spared p (finishDeferred (dispatched p frame).1 (dispatched p frame).2).2 := by
  rcases dispatched_cases p h with hrefused | ⟨c, hcode, -, -, hworked⟩
  · rw [hrefused, @finishDeferred_none _ (false, p) hdeferred]
    exact .refl p
  generalize dispatched p frame = r at hworked hfail ⊢
  obtain ⟨ok, q⟩ := r
  cases ok with
  | false =>
    have hwork : Work c.failed p q := hworked
    obtain ⟨hspared, hkept⟩ := hwork.spared (Cmd.failed_kinds (hwhole c hcode)) hp.served hfits
    rw [@finishDeferred_none _ (false, q) (hkept.trans hdeferred)]
    exact hspared
  | true =>
    have hwork : Work c.done p q := hworked
    obtain ⟨hleft, nvWrites, hfinished⟩ := finishDeferred_failed hfail
    have hcommit : Kind.commit ∈ c.done := by
      by_contra hno
      exact hleft (hwork.deferred hno hdeferred)
    obtain rfl := Cmd.eq_nvPokeCommit (hwhole c hcode) hcommit
    have hframe : ∃ nvDeferred, q = { p with nvDeferred } := by
      refine Work.invariant (I := fun q => ∃ nvDeferred, q = { p with nvDeferred })
        (fun k hk q r hact hq => ?_) hwork ⟨_, rfl⟩
      obtain ⟨_, rfl⟩ := hq
      cases hact with
      | commit | commitNoslot => exact ⟨_, rfl⟩
      | _ => exact absurd hk (by decide)
    obtain ⟨_, rfl⟩ := hframe
    rw [hfinished]
    exact ⟨⟨_, _, _, _, _, _, _, _, rfl⟩, id, fun _ => rfl, .same rfl _, fun _ _ _ => rfl⟩

/-! ### Runs -/

/-- The frame's command isn't one that may stop part way. -/
def Frame.Entire (frame : Frame) : Prop :=
  ∀ c, Cmd.ofCode frame.group frame.cmd = some c → c.stopsPartWay = false

/-- Every command of the run fails. -/
def Fails (p : Plugin) : List Frame → Prop
  | [] => True
  | frame :: frames => succeeds p frame = false ∧ Fails (perform p frame) frames

lemma perform_spared {p : Plugin} {frame : Frame} (hp : Ready p) (hfits : Fits p)
    (h : frame.Whole) (hentire : frame.Entire) (hfail : succeeds p frame = false) :
    Spared p (perform p frame) := by
  have hbegin := beginCommand_spared hp.sound hfits frame.group frame.cmd
  have hdeferred : (beginCommand frame.group frame.cmd p).nvDeferred = .none := by
    obtain ⟨_, _, _, _, heq⟩ := beginCommand_eq hp.sound frame.group frame.cmd
    rw [heq]
    exact hp.deferred
  have hfinished := finished_spared (hbegin.sound hp.sound) (hbegin.fits hfits) hdeferred h hentire
    hfail
  have hworked : Spared p (worked p frame).2 := hbegin.trans hfinished
  have hsound := hworked.sound hp.sound
  rw [perform_eq h]
  cases hactive : p.active with
  | true =>
    rcases Bool.eq_false_or_eq_true (cmdIsSilent frame.group frame.cmd) with hsilent | hsilent
    · rw [endCommand_silent hsilent]
      exact hworked.trans (settled_spared _)
    · rw [endCommand_answered hsilent hsound]
      have hanswer := headed_spared hsound (hworked.fits hfits)
        (endWrites_lt (worked p frame).2.cfg (worked p frame).1)
      exact (hworked.trans hanswer).trans (settled_spared _)
  | false =>
    rw [endCommand_idle (hworked.idle hactive)]
    exact hworked

lemma performs_spared {p : Plugin} (hp : Ready p) (hfits : Fits p) {done : List Frame}
    (h : ∀ frame ∈ done, frame.Whole) (hentire : ∀ frame ∈ done, frame.Entire)
    (hfails : Fails p done) : Spared p (done.foldl perform p) ∧ Ready (done.foldl perform p) := by
  induction done generalizing p with
  | nil => exact ⟨.refl p, hp⟩
  | cons frame done ih =>
    have hframe := h frame List.mem_cons_self
    have hspared := perform_spared hp hfits hframe (hentire frame List.mem_cons_self) hfails.1
    obtain ⟨hrest, hready⟩ := ih (perform_ready hp hframe) (hspared.fits hfits)
      (fun f hf => h f (List.mem_cons_of_mem _ hf))
      (fun f hf => hentire f (List.mem_cons_of_mem _ hf)) hfails.2
    exact ⟨hspared.trans hrest, hready⟩

/-- **Refusals**: commands that fail, however many, change nothing outside the session and its
region, unless one may stop part way: the other slots, the bytes of the chip in the slot of the
header, the slot that is served, NV storage, the pipes, the pins and the LEDs are as they were, and
so is a transaction as long as the session lasts. -/
theorem commands_refused {p : Plugin} (hp : Ready p) (hfits : Fits p) {n : ℕ}
    {input rest : List UInt8} {done : List Frame} (h : frames n input = some (done, rest))
    (hentire : ∀ frame ∈ done, frame.Entire) (hfails : Fails p done) :
    ∃ q, commands n ⟨input, p⟩ = (.ok (), ⟨rest, q⟩) ∧ Spared p q ∧ Ready q := by
  have hrun := commands_frames n input p
  rw [h] at hrun
  exact ⟨_, hrun, performs_spared hp hfits (frames_whole h) hentire hfails⟩

/-- A command that isn't known fails. -/
lemma succeeds_unknown {p : Plugin} {frame : Frame} (hp : Ready p) (h : frame.Whole)
    (hnone : Cmd.ofCode frame.group frame.cmd = none) : succeeds p frame = false := by
  have hrefused := dispatched_refused (p := beginCommand frame.group frame.cmd p) h fun c hcode => by
    rw [hnone] at hcode
    cases hcode
  obtain ⟨_, _, _, _, hbegin⟩ := beginCommand_eq hp.sound frame.group frame.cmd
  have hdeferred : (beginCommand frame.group frame.cmd p).nvDeferred = .none := by
    rw [hbegin]
    exact hp.deferred
  unfold succeeds worked
  dsimp only
  rw [hrefused, @finishDeferred_none _ (false, beginCommand frame.group frame.cmd p) hdeferred]

omit [Firmware] in
/-- A discard where no transaction is open, and a command that isn't known. -/
theorem commands_refused_discard : ∃ slot addr cs,
    RomSlot.buildRomSlot Hw.fire24A .single RamSlot.chip2316 [] false = .ok (slot, addr, cs) ∧
      letI := bareFirmware
      ∃ q, commands 2 ⟨[0x03, 0x05, 0xAA, 0x01], bareSession (RamSlot.runtime slot)⟩ =
          (.ok (), ⟨[], q⟩) ∧
        Spared (bareSession (RamSlot.runtime slot)) q ∧ Ready q := by
  obtain ⟨slot, addr, cs, hslot, hready, hfits, -⟩ := bareSession_ready
  let _ := bareFirmware
  refine ⟨slot, addr, cs, hslot, commands_refused hready hfits
    (show frames 2 [0x03, 0x05, 0xAA, 0x01] = some ([⟨0x03, 0x05, []⟩, ⟨0xAA, 0x01, []⟩], [])
      from rfl) ?_ ⟨?_, ?_, trivial⟩⟩
  · intro frame hframe c hcode
    simp only [List.mem_cons, List.not_mem_nil, or_false] at hframe
    rcases hframe with rfl | rfl
    · obtain rfl : Cmd.nvPokeDiscard = c := Option.some.inj hcode
      rfl
    · cases hcode
  · obtain ⟨_, _, _, _, hbegin⟩ := beginCommand_eq hready.sound 0x03 0x05
    unfold succeeds worked
    rw [hbegin]
    rfl
  · exact succeeds_unknown (perform_ready hready rfl) rfl rfl

end OneRom.Rbcp
