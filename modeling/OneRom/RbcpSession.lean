import OneRom.RbcpWork

/-!
A command from the frame to the answer, and what holds of a session between commands.

`perform_eq` takes a command apart: its header, its own work, the write to flash it left, and its
answer. `Ready` holds before and after each, so a header byte is always written.
-/

namespace OneRom.Rbcp

open OneRom.Fallible OneRom.Fallible.Prog OneRom.Listener
open OneRom.AddrMap (Served mapOk pioMapAddrToPhys_lt)
open OneRom.PinMaps
open OneRom.RamSlot (Runtime SRAM_BASE oraGetRamSlotCount oraGetRamSlotInfo oraGetActiveRamSlot
  pioGetRomRegionSize)

variable [Firmware]

/-! ### A command -/

/-- The frame has the arguments its command has. -/
def Frame.Whole (frame : Frame) : Prop := frame.args.length = argBytes frame.group frame.cmd

def Frame.bytes (frame : Frame) : List UInt8 := frame.group :: frame.cmd :: frame.args

omit [Firmware] in
lemma nextFrame_eq_some {input rest : List UInt8} {frame : Frame} :
    nextFrame input = some (frame, rest) ↔ frame.Whole ∧ input = frame.bytes ++ rest := by
  constructor
  · intro h
    rcases input with _ | ⟨group, _ | ⟨cmd, input⟩⟩
    · cases h
    · cases h
    · rw [nextFrame] at h
      split_ifs at h with hlen
      cases h
      refine ⟨List.length_take_of_le (not_lt.mp hlen), ?_⟩
      rw [Frame.bytes, List.cons_append, List.cons_append, List.take_append_drop]
  · rintro ⟨h, rfl⟩
    have hlen : ¬(frame.args ++ rest).length < argBytes frame.group frame.cmd := by
      rw [List.length_append, show frame.args.length = _ from h]
      omega
    rw [Frame.bytes, List.cons_append, List.cons_append, nextFrame, if_neg hlen,
      ← show frame.args.length = _ from h, List.take_left, List.drop_left]

omit [Firmware] in
/-- A stream has the frames whose bytes it begins with. -/
lemma frames_eq_some {n : ℕ} {input rest : List UInt8} {done : List Frame} :
    frames n input = some (done, rest) ↔
      done.length = n ∧ (∀ frame ∈ done, frame.Whole) ∧
        input = done.flatMap Frame.bytes ++ rest := by
  induction n generalizing input done with
  | zero =>
    constructor
    · intro h
      cases h
      exact ⟨rfl, fun _ hframe => absurd hframe List.not_mem_nil, rfl⟩
    · rintro ⟨hlen, -, rfl⟩
      obtain rfl := List.length_eq_zero_iff.mp hlen
      rfl
  | succ n ih =>
    rw [frames]
    constructor
    · intro h
      obtain ⟨⟨frame, left⟩, hfirst, h⟩ := Option.bind_eq_some_iff.mp h
      obtain ⟨⟨more, left'⟩, hmore, h⟩ := Option.bind_eq_some_iff.mp h
      cases h
      obtain ⟨hwhole, rfl⟩ := nextFrame_eq_some.mp hfirst
      obtain ⟨rfl, hrest, rfl⟩ := ih.mp hmore
      refine ⟨rfl, List.forall_mem_cons.mpr ⟨hwhole, hrest⟩, ?_⟩
      rw [List.flatMap_cons, List.append_assoc]
    · rintro ⟨hlen, hwhole, rfl⟩
      cases done with
      | nil => cases hlen
      | cons frame done =>
        have hfirst : nextFrame (frame.bytes ++ (done.flatMap Frame.bytes ++ rest)) =
            some (frame, done.flatMap Frame.bytes ++ rest) :=
          nextFrame_eq_some.mpr ⟨hwhole frame List.mem_cons_self, rfl⟩
        have hmore := ih.mpr ⟨Nat.succ.inj hlen,
          fun f hf => hwhole f (List.mem_cons_of_mem _ hf), rfl⟩
        rw [List.flatMap_cons, List.append_assoc, hfirst]
        dsimp only [Option.bind_eq_bind, Option.bind_some]
        rw [hmore]
        rfl

omit [Firmware] in
lemma frames_whole {n : ℕ} {input rest : List UInt8} {done : List Frame}
    (h : frames n input = some (done, rest)) : ∀ frame ∈ done, frame.Whole :=
  (frames_eq_some.mp h).2.1

/-- What the command's own work comes to. An unknown command does nothing, and neither does one
that isn't of the mode. -/
def dispatched (p : Plugin) (frame : Frame) : Bool × Plugin :=
  match dispatch frame.group frame.cmd ⟨frame.args, p⟩ with
  | (.ok ok, t) => (ok, t.state)
  | (.error _, t) => (false, t.state)

/-- The command's work and the write to flash it left, after its header. -/
def worked (p : Plugin) (frame : Frame) : Bool × Plugin :=
  let r := dispatched (beginCommand frame.group frame.cmd p) frame
  finishDeferred r.1 r.2

/-- Whether the device answers that the command succeeded. -/
def succeeds (p : Plugin) (frame : Frame) : Bool := (worked p frame).1

lemma perform_eq {p : Plugin} {frame : Frame} (h : frame.Whole) :
    perform p frame = endCommand frame.group frame.cmd p.active (worked p frame) := by
  obtain ⟨ok, t, hrun⟩ := (dispatch_hears frame.group frame.cmd).told frame.args
    (beginCommand frame.group frame.cmd p) h
  have hrun := hrun []
  rw [List.append_nil] at hrun
  unfold perform runCommand worked dispatched isActive
  rw [act_bind, act_bind, hrun, bind_of_ok hrun]
  rfl

/-- A command of the mode does acts of its kinds. -/
lemma dispatched_exec {p : Plugin} {frame : Frame} (h : frame.Whole) {c : Cmd}
    (hcode : Cmd.ofCode frame.group frame.cmd = some c)
    (hmode : c.inSession = true → p.active = true) :
    (∃ t, c.exec ⟨frame.args, p⟩ = (.ok (dispatched p frame).1, t) ∧
      t.state = (dispatched p frame).2) ∧ Worked c.done c.failed p (dispatched p frame) := by
  obtain ⟨ok, t, hrun⟩ := (dispatch_hears frame.group frame.cmd).told frame.args p h
  have hrun := hrun []
  rw [List.append_nil] at hrun
  have heq : dispatched p frame = (ok, t) := by rw [dispatched, hrun]
  rw [heq]
  unfold dispatch at hrun
  rw [hcode] at hrun
  simp only [isActive] at hrun
  rw [act_bind] at hrun
  dsimp only at hrun
  rw [if_neg fun hrefused => hrefused.2 (hmode hrefused.1)] at hrun
  exact ⟨⟨_, hrun, rfl⟩, c.exec_worked _ _ _ _ hrun⟩

/-- A command that isn't known, or isn't of the mode, is refused. -/
lemma dispatched_refused {p : Plugin} {frame : Frame} (h : frame.Whole)
    (hno : ∀ c, Cmd.ofCode frame.group frame.cmd = some c → c.inSession = true ∧ ¬p.active) :
    dispatched p frame = (false, p) := by
  obtain ⟨ok, t, hrun⟩ := (dispatch_hears frame.group frame.cmd).told frame.args p h
  have hrun := hrun []
  rw [List.append_nil] at hrun
  have heq : dispatched p frame = (ok, t) := by rw [dispatched, hrun]
  rw [heq]
  unfold dispatch at hrun
  cases hcode : Cmd.ofCode frame.group frame.cmd with
  | none =>
    rw [hcode] at hrun
    have hok : false = ok := Except.ok.inj (congrArg Prod.fst hrun)
    have ht : p = t := congrArg (·.2.state) hrun
    rw [← hok, ← ht]
  | some c =>
    rw [hcode] at hrun
    simp only [isActive] at hrun
    rw [act_bind] at hrun
    dsimp only at hrun
    rw [if_pos (hno c hcode)] at hrun
    have hkept := Ends.skip_bind (Ends.pure (Q := fun p ok q => ok = false ∧ q = p)
      fun p => ⟨rfl, rfl⟩) c.argCount _ _ _ _ hrun
    exact Prod.ext hkept.1 hkept.2

lemma dispatched_cases (p : Plugin) {frame : Frame} (h : frame.Whole) :
    dispatched p frame = (false, p) ∨
      ∃ c, Cmd.ofCode frame.group frame.cmd = some c ∧ (c.inSession = true → p.active = true) ∧
        (∃ t, c.exec ⟨frame.args, p⟩ = (.ok (dispatched p frame).1, t) ∧
          t.state = (dispatched p frame).2) ∧
        Worked c.done c.failed p (dispatched p frame) := by
  by_cases hno : ∀ c, Cmd.ofCode frame.group frame.cmd = some c → c.inSession = true ∧ ¬p.active
  · exact Or.inl (dispatched_refused h hno)
  · push Not at hno
    obtain ⟨c, hcode, hmode⟩ := hno
    exact Or.inr ⟨c, hcode, hmode, dispatched_exec h hcode hmode⟩

/-! ### What acts leave alone -/

lemma dataWrite_frame (slot : UInt8) (dataOffset : ℕ) (bytes : List UInt8) (p : Plugin) :
    dataWrite slot dataOffset bytes p = { p with
      mem := (dataWrite slot dataOffset bytes p).mem
      backWrites := (dataWrite slot dataOffset bytes p).backWrites } := by
  unfold dataWrite
  split
  · rfl
  · dsimp only
    split
    · rfl
    · next q hq => rw [reprogram_eq_some hq]

lemma hdrWrite_frame (slot : UInt8) (offset : ℕ) (val : UInt8) (p : Plugin) :
    hdrWrite slot offset val p = { p with
      mem := (hdrWrite slot offset val p).mem
      backWrites := (hdrWrite slot offset val p).backWrites } := by
  unfold hdrWrite
  dsimp only
  split
  · rfl
  · split <;> rfl

lemma copyFlashToRam_eq_some {p q : Plugin} {flashSlot ramSlot : UInt8}
    (h : copyFlashToRam p flashSlot ramSlot = some q) : q = { p with mem := q.mem } := by
  unfold copyFlashToRam at h
  split at h
  · split at h
    · cases h
    · cases h; rfl
  · cases h

lemma setActiveRamSlot_eq_some {p q : Plugin} {slot : UInt8}
    (h : setActiveRamSlot p slot = some q) : ∃ info,
      oraGetRamSlotInfo p.rt slot.toNat = .ok info ∧
        q = { p with rt := { p.rt with romTable := info.addr } } := by
  unfold setActiveRamSlot at h
  split at h
  · next info hinfo =>
    cases h
    exact ⟨info, hinfo, rfl⟩
  · cases h

/-- A write of data, in the trace. -/
def BackWrite.IsData : BackWrite → Prop
  | .data _ _ _ => True
  | .header _ _ _ => False

lemma dataWrite_backWrites (slot : UInt8) (dataOffset : ℕ) (bytes : List UInt8) (p : Plugin) :
    ∃ writes, (dataWrite slot dataOffset bytes p).backWrites = p.backWrites ++ writes ∧
      ∀ w ∈ writes, w.IsData := by
  unfold dataWrite
  split
  · exact ⟨[], (List.append_nil _).symm, fun w hw => absurd hw List.not_mem_nil⟩
  · dsimp only
    split
    · exact ⟨[], (List.append_nil _).symm, fun w hw => absurd hw List.not_mem_nil⟩
    · next q hq =>
      rw [reprogram_eq_some hq]
      refine ⟨_, rfl, fun w hw => ?_⟩
      rw [List.mem_singleton.mp hw]
      trivial

/-- What an act of a kind leaves as it was. -/
structure Kept (k : Kind) (p q : Plugin) : Prop where
  device : q.rt.currentSlot = p.rt.currentSlot ∧ q.rt.ramRomImageSize = p.rt.ramRomImageSize
  rt : k ≠ .switch → q.rt = p.rt
  active : k ∉ [.exit, .enter, .reset] → q.active = p.active
  slot : k ∉ [.switch, .enter, .reset] → q.activeSlot = p.activeSlot
  cfg : k ∉ [.enter, .reset] → q.cfg = p.cfg ∧ q.tokenLsb = p.tokenLsb ∧ q.tokenMsb = p.tokenMsb
  nvState : k ∉ [.stage, .discard, .reset] → q.nvState = p.nvState
  deferred : k ∉ [.commit, .discard, .reset] → q.nvDeferred = p.nvDeferred
  nv : q.nv = p.nv ∧ q.nvWrites = p.nvWrites
  log : k ≠ .pipe → q.log = p.log ∧ q.pipesClaimed = p.pipesClaimed ∧
    q.pipesReadClaimed = p.pipesReadClaimed
  gpio : k ≠ .gpio → q.gpio = p.gpio
  led : k ≠ .led → q.led = p.led
  mem : k ∉ [.answer, .poke, .load, .restore, .header, .stage, .nvPoke] → q.mem = p.mem
  backWrites : k ∉ [.answer, .header] → q.backWrites = p.backWrites

/-- What writes memory alone. -/
lemma Kept.of_mem {k : Kind} {p : Plugin} (mem : RamSlot.Memory)
    (h : k ∈ [Kind.poke, .load, .restore, .nvPoke]) : Kept k p { p with mem } := by
  constructor <;> first
    | exact ⟨rfl, rfl⟩
    | exact fun _ => rfl
    | exact fun _ => ⟨rfl, rfl, rfl⟩
    | exact fun hk => by
        simp only [List.mem_cons, List.not_mem_nil, or_false] at h hk
        tauto

/-- What writes into the back-channel. -/
lemma Kept.of_back {k : Kind} {p : Plugin} (mem : RamSlot.Memory) (backWrites : List BackWrite)
    (h : k ∈ [Kind.answer, .header]) : Kept k p { p with mem, backWrites } := by
  constructor <;> first
    | exact ⟨rfl, rfl⟩
    | exact fun _ => rfl
    | exact fun _ => ⟨rfl, rfl, rfl⟩
    | exact fun hk => by
        simp only [List.mem_cons, List.not_mem_nil, or_false] at h hk
        tauto

lemma Act.kept {k : Kind} {p q : Plugin} (h : Act k p q) : Kept k p q := by
  cases h with
  | answer dataOffset bytes =>
    rw [dataWrite_frame]
    exact Kept.of_back _ _ (by simp)
  | header slot offset val _ =>
    rw [hdrWrite_frame]
    exact Kept.of_back _ _ (by simp)
  | poke _ h =>
    rw [reprogram_eq_some h]
    exact Kept.of_mem _ (by simp)
  | restore _ h =>
    rw [reprogram_eq_some h]
    exact Kept.of_mem _ (by simp)
  | load _ h =>
    rw [copyFlashToRam_eq_some h]
    exact Kept.of_mem _ (by simp)
  | nvPoke _ _ => exact Kept.of_mem _ (by simp)
  | switch _ h =>
    obtain ⟨info, -, rfl⟩ := setActiveRamSlot_eq_some h
    constructor <;> first
      | exact ⟨rfl, rfl⟩
      | exact fun _ => rfl
      | exact fun _ => ⟨rfl, rfl, rfl⟩
      | exact fun hk => absurd (by decide) hk
  | _ =>
    constructor <;> first
      | exact ⟨rfl, rfl⟩
      | exact fun _ => rfl
      | exact fun _ => ⟨rfl, rfl, rfl⟩
      | exact fun hk => absurd (by decide) hk

/-! ### RAM slots -/

section Device

variable {rt : Runtime} {slot : ℕ} {info : RamSlot.RamSlotInfo}

omit [Firmware] in
lemma oraGetRamSlotCount_le (rt : Runtime) : oraGetRamSlotCount rt ≤ 255 := by
  unfold oraGetRamSlotCount
  dsimp only
  split_ifs with hzero hone hmax
  · decide
  · decide
  · exact le_refl _
  · exact not_lt.mp hmax

omit [Firmware] in
lemma oraGetRamSlotCount_pos (rt : Runtime) : 0 < oraGetRamSlotCount rt := by
  unfold oraGetRamSlotCount
  dsimp only
  split_ifs with hzero hone hmax
  · decide
  · decide
  · decide
  · exact not_lt.mp hone

omit [Firmware] in
lemma oraGetRamSlotInfo_ok :
    oraGetRamSlotInfo rt slot = .ok info ↔ slot < oraGetRamSlotCount rt ∧
      info = ⟨(SRAM_BASE + slot * pioGetRomRegionSize rt) % 2 ^ 32, pioGetRomRegionSize rt⟩ := by
  unfold oraGetRamSlotInfo
  split_ifs with hslot
  · exact iff_of_false (fun h => by cases h) fun h => absurd h.1 (not_lt.mpr hslot)
  · simp only [Except.ok.injEq, not_le.mp hslot, true_and, eq_comm]

omit [Firmware] in
/-- Slots are where 32 bits reach. -/
lemma slot_lt (h : Served rt.currentSlot) (hslot : slot ≤ oraGetRamSlotCount rt) :
    SRAM_BASE + slot * pioGetRomRegionSize rt < 2 ^ 31 := by
  have hmul := Nat.mul_le_mul (hslot.trans (oraGetRamSlotCount_le rt))
    (RamSlot.regionSize_eq (mapOk h)).2
  have hbase : SRAM_BASE = 0x20000000 := rfl
  omega

omit [Firmware] in
lemma regionSize_pos (h : Served rt.currentSlot) : 0 < pioGetRomRegionSize rt := by
  rw [(RamSlot.regionSize_eq (mapOk h)).1]
  exact Nat.two_pow_pos _

omit [Firmware] in
lemma oraGetActiveRamSlot_lt (h : Served rt.currentSlot)
    (hslot : oraGetActiveRamSlot rt = .ok slot) : slot < oraGetRamSlotCount rt := by
  have hlimit := slot_lt h le_rfl
  unfold oraGetActiveRamSlot at hslot
  dsimp only at hslot
  rw [Nat.mul_comm (pioGetRomRegionSize rt), Nat.mod_eq_of_lt (by omega)] at hslot
  split_ifs at hslot with htable hbounds
  cases hslot
  refine (Nat.mod_le _ _).trans_lt ((Nat.div_lt_iff_lt_mul (regionSize_pos h)).mpr ?_)
  omega

omit [Firmware] in
/-- A byte holds the slot's number. -/
lemma activeRamSlot_toNat (hslot : oraGetActiveRamSlot rt = .ok slot) :
    (UInt8.ofNat slot).toNat = slot := by
  unfold oraGetActiveRamSlot at hslot
  dsimp only at hslot
  split_ifs at hslot
  cases hslot
  exact UInt8.toNat_ofNat_of_lt' (Nat.mod_lt _ (by decide))

omit [Firmware] in
/-- A table at the start of a slot is that slot's. -/
lemma oraGetActiveRamSlot_of (h : Served rt.currentSlot) (hslot : slot < oraGetRamSlotCount rt)
    (htable : rt.romTable = SRAM_BASE + slot * pioGetRomRegionSize rt) :
    oraGetActiveRamSlot rt = .ok slot := by
  have hlimit := slot_lt h le_rfl
  have hcount := oraGetRamSlotCount_le rt
  have hbase : SRAM_BASE = 0x20000000 := rfl
  have hnext := Nat.mul_le_mul_right (pioGetRomRegionSize rt) (Nat.succ_le_of_lt hslot)
  rw [Nat.succ_mul] at hnext
  have hpos := regionSize_pos h
  have hoffset : rt.romTable - SRAM_BASE = slot * pioGetRomRegionSize rt := by omega
  unfold oraGetActiveRamSlot
  dsimp only
  rw [hoffset, Nat.mul_comm (pioGetRomRegionSize rt), Nat.mod_eq_of_lt (by omega),
    if_neg (by omega), if_neg (by omega), Nat.mul_mod_left, if_neg (fun h => h rfl),
    Nat.mul_div_cancel _ hpos, Nat.mod_eq_of_lt (by omega)]

omit [Firmware] in
/-- The slot that is switched to is the one that is served. -/
lemma oraGetActiveRamSlot_set (h : Served rt.currentSlot)
    (hinfo : oraGetRamSlotInfo rt slot = .ok info) :
    oraGetActiveRamSlot { rt with romTable := info.addr } = .ok slot := by
  obtain ⟨hslot, rfl⟩ := oraGetRamSlotInfo_ok.mp hinfo
  refine oraGetActiveRamSlot_of h hslot (Nat.mod_eq_of_lt ?_)
  exact (slot_lt h hslot.le).trans (by decide)

end Device

/-! ### Between commands -/

/-- The device serves a ROM, and the header is in one of its slots. In a session the region ends
within the slot. -/
structure Sound (p : Plugin) : Prop where
  served : Served p.rt.currentSlot
  slot : p.activeSlot.toNat < oraGetRamSlotCount p.rt
  region : p.active = true →
    p.cfg.regionOffset + HDR_SIZE + p.cfg.dataSize ≤ pioGetRomRegionSize p.rt

/-- The session's header is in the slot that is served. -/
def Follows (p : Plugin) : Prop :=
  p.active = true → oraGetActiveRamSlot p.rt = .ok p.activeSlot.toNat

lemma Follows.idle {p : Plugin} (h : p.active = false) : Follows p := fun hactive => by
  rw [h] at hactive
  cases hactive

/-- The slots and their size are those of the device. -/
lemma Kept.slots {k : Kind} {p q : Plugin} (h : Kept k p q) :
    oraGetRamSlotCount q.rt = oraGetRamSlotCount p.rt ∧
      pioGetRomRegionSize q.rt = pioGetRomRegionSize p.rt := by
  unfold oraGetRamSlotCount pioGetRomRegionSize
  rw [h.device.1, h.device.2]
  exact ⟨rfl, rfl⟩

lemma Act.sound {k : Kind} {p q : Plugin} (h : Act k p q) (hp : Sound p) : Sound q := by
  have hkept := h.kept
  obtain ⟨hcount, hsize⟩ := hkept.slots
  have hserved : Served q.rt.currentSlot := hkept.device.1 ▸ hp.served
  cases h with
  | exit => exact ⟨hserved, hp.slot, fun hactive => by cases hactive⟩
  | reset => exact ⟨hserved, oraGetRamSlotCount_pos p.rt, fun hactive => by cases hactive⟩
  | enter _ _ _ hidle =>
    refine ⟨hserved, hp.slot, fun hactive => ?_⟩
    rw [show p.active = true from hactive] at hidle
    cases hidle
  | follow hslot =>
    refine ⟨hserved, ?_, hp.region⟩
    exact (activeRamSlot_toNat hslot).trans_lt (oraGetActiveRamSlot_lt hp.served hslot)
  | entered hidle hslot hinfo hend hregion =>
    refine ⟨hserved, ?_, fun _ => ?_⟩
    · exact (activeRamSlot_toNat hslot).trans_lt (oraGetActiveRamSlot_lt hp.served hslot)
    · obtain ⟨-, rfl⟩ := oraGetRamSlotInfo_ok.mp hinfo
      exact hregion.trans_le hend
  | switch _ hswitch =>
    obtain ⟨info, -, rfl⟩ := setActiveRamSlot_eq_some hswitch
    exact ⟨hserved, hp.slot, hp.region⟩
  | _ =>
    refine ⟨hserved, ?_, fun hactive => ?_⟩
    · rw [hkept.slot (by decide), hcount]
      exact hp.slot
    · rw [hkept.active (by decide)] at hactive
      rw [(hkept.cfg (by decide)).1, hsize]
      exact hp.region hactive

lemma Act.follows {k : Kind} {p q : Plugin} (h : Act k p q) (hk : k ≠ .switch) (hp : Follows p) :
    Follows q := by
  have hkept := h.kept
  intro hactive
  cases h with
  | follow | switch => exact absurd rfl hk
  | exit | reset => cases hactive
  | enter _ _ _ hidle => exact absurd hactive (by rw [show p.active = false from hidle]; decide)
  | entered _ hslot =>
    show oraGetActiveRamSlot p.rt = .ok (UInt8.ofNat _).toNat
    rw [activeRamSlot_toNat hslot, hslot]
  | _ =>
    rw [hkept.active (by decide)] at hactive
    rw [hkept.slot (by decide), hkept.rt (by decide)]
    exact hp hactive

lemma Worked.sound {done failed : List Kind} {p : Plugin} {r : Bool × Plugin}
    (h : Worked done failed p r) (hp : Sound p) : Sound r.2 :=
  Work.invariant (fun _ _ _ _ hact => hact.sound) h hp

/-! ### Switches -/

lemma switchSlot_follows (target : UInt8) {p : Plugin} (hp : Sound p) (hfollows : Follows p) :
    Follows (switchSlotAndFollow target p).2 := by
  have hswitch : ∀ r, switchSlot target p = r → (r.1 = false → r.2 = p) ∧
      (r.1 = true → oraGetActiveRamSlot r.2.rt = .ok target.toNat) := by
    rintro r rfl
    unfold switchSlot namingSlot trying
    split
    · exact ⟨fun _ => rfl, fun h => by cases h⟩
    split
    · exact ⟨fun _ => rfl, fun h => by cases h⟩
    dsimp only
    split
    · exact ⟨fun _ => rfl, fun h => by cases h⟩
    · next q hq =>
      obtain ⟨info, hinfo, rfl⟩ := setActiveRamSlot_eq_some hq
      exact ⟨fun h => (by cases h), fun _ => oraGetActiveRamSlot_set hp.served hinfo⟩
  unfold switchSlotAndFollow
  obtain ⟨hkept, hset⟩ := hswitch _ rfl
  generalize switchSlot target p = r at hkept hset
  obtain ⟨ok, q⟩ := r
  cases ok with
  | false =>
    rw [show q = p from hkept rfl]
    exact hfollows
  | true =>
    have hset : oraGetActiveRamSlot q.rt = .ok target.toNat := hset rfl
    dsimp only
    rw [if_pos rfl, hset]
    intro _
    show oraGetActiveRamSlot q.rt = .ok (UInt8.ofNat target.toNat).toNat
    rw [UInt8.ofNat_toNat, hset]

/-- It has left the session before it switches. -/
lemma setAuxSwitchExit_idle (state after hold flags pin group slot : UInt8) (p : Plugin) :
    (setAuxSwitchExit state after hold flags pin group slot p).2.active = false := by
  have hidle : setAuxSwitchExit state after hold flags pin group slot p =
      setAuxSwitchExit state after hold flags pin group slot { p with active := false } := rfl
  have hworked := setAuxSwitchExit_worked state after hold flags pin group slot
    { p with active := false }
  rw [← hidle] at hworked
  unfold Worked at hworked
  rw [ite_self] at hworked
  refine hworked.invariant (I := fun q => q.active = false) (fun k hk q r hact hq => ?_) rfl
  have hkept := hact.kept
  cases hact with
  | exit => rfl
  | _ => first
    | exact (hkept.active (by decide)).trans hq
    | exact absurd hk (by decide)

/-- A command that ends in a session leaves the header in the slot that is served. -/
lemma Cmd.exec_follows (c : Cmd) :
    Ends (fun p _ q => Sound p → Follows p → Follows q) c.exec := by
  by_cases hswitch : Kind.switch ∈ c.done ++ c.failed
  · cases c <;> first
      | exact absurd hswitch (by decide)
      | skip
    case switchAndExit =>
      exact Ends.hear_bind fun _ => Ends.act fun p _ _ => Follows.idle rfl
    case switchSlot =>
      exact Ends.hear_bind fun target => Ends.act fun p => switchSlot_follows target
    case setAuxSwitchExit =>
      unfold exec
      repeat' refine Ends.hear_bind fun _ => ?_
      exact Ends.act fun p _ _ => Follows.idle (setAuxSwitchExit_idle _ _ _ _ _ _ _ p)
  · refine c.exec_worked.mono fun p ok q hworked _ hfollows => ?_
    refine Work.invariant (I := Follows) (fun k hk p q hact => hact.follows ?_) hworked hfollows
    rintro rfl
    rw [List.mem_append, not_or] at hswitch
    cases ok with
    | true => exact hswitch.1 hk
    | false => exact hswitch.2 hk

end OneRom.Rbcp
