import OneRom.RbcpSession

/-!
What the host sees of a command: its header, which says that it is under way, the data of the
answer, and then the response and its completion. `commands_exchanges` is about every run of
commands from a state that is `Ready`, which the first one that a knock opens is.
-/

namespace OneRom.Rbcp

open OneRom.Fallible OneRom.Listener
open OneRom.AddrMap (Served mapOk pioMapAddrToPhys_lt)
open OneRom.PinMaps
open OneRom.RamSlot (Memory slotStart writeBytes oraGetRamSlotCount oraGetRamSlotInfo
  oraGetActiveRamSlot pioGetRomRegionSize)

variable [Firmware]

/-! ### The header -/

/-- Where a byte of the header is in memory, and what stands for it there. -/
def hdrEntry (p : Plugin) (slot : UInt8) (write : ℕ × UInt8) : ℕ × UInt8 :=
  (slotStart p.rt slot + pioMapAddrToPhys p.rt.currentSlot (p.cfg.regionOffset + write.1),
    UInt8.ofNat (pioMapDataToPhys p.rt.currentSlot write.2.toNat))

/-- The writes of header bytes, in the trace. -/
def headers (slot : UInt8) (writes : List (ℕ × UInt8)) : List BackWrite :=
  writes.map fun write => .header slot write.1 write.2

/-- What a command starts with. The token comes after the mark that it isn't complete. -/
def beginWrites (cfg : RbcpCfg) (tokenLsb tokenMsb group cmd : UInt8) : List (ℕ × UInt8) :=
  [(HDR_PROGRESS, ~~~cfg.complete), (HDR_TOKEN_LSB, tokenLsb), (HDR_TOKEN_MSB, tokenMsb),
    (HDR_LAST_CMD_GROUP, group), (HDR_LAST_CMD_CMD, cmd)]

/-- What it ends with. -/
def endWrites (cfg : RbcpCfg) (ok entering : Bool) : List (ℕ × UInt8) :=
  [(HDR_RESPONSE, if ok then cfg.statusOk else ~~~cfg.statusOk)] ++
    (if entering then [(HDR_RESERVED_0, 0), (HDR_RESERVED_1, 0)] else []) ++
    [(HDR_PROGRESS, cfg.complete)]

/-- The tokens number the commands, in 16 bits. -/
def token (p : Plugin) : ℕ := word16 p.tokenLsb p.tokenMsb

lemma nextToken_token (p : Plugin) : token (nextToken p) = (token p + 1) % 2 ^ 16 := by
  unfold nextToken token word16
  have hlsb := p.tokenLsb.toNat_lt
  have hmsb := p.tokenMsb.toNat_lt
  have hnext : (p.tokenLsb + 1).toNat = (p.tokenLsb.toNat + 1) % 256 := UInt8.toNat_add _ _
  have hcarry : (p.tokenMsb + 1).toNat = (p.tokenMsb.toNat + 1) % 256 := UInt8.toNat_add _ _
  dsimp only
  split_ifs with hzero
  · have hwrap : (p.tokenLsb + 1).toNat = 0 := congrArg UInt8.toNat hzero
    show (p.tokenLsb + 1).toNat + 2 ^ 8 * (p.tokenMsb + 1).toNat = _
    omega
  · have hwrap : (p.tokenLsb + 1).toNat ≠ 0 := fun h => hzero (UInt8.toNat_inj.mp h)
    show (p.tokenLsb + 1).toNat + 2 ^ 8 * p.tokenMsb.toNat = _
    omega

lemma nextToken_eq (p : Plugin) : ∃ tokenLsb tokenMsb,
    nextToken p = { p with tokenLsb, tokenMsb } := by
  unfold nextToken
  dsimp only
  split <;> exact ⟨_, _, rfl⟩

/-- The plugin with some bytes of the header written. -/
def headed (slot : UInt8) (writes : List (ℕ × UInt8)) (p : Plugin) : Plugin :=
  { p with
    mem := writeBytes p.mem (writes.map (hdrEntry p slot))
    backWrites := p.backWrites ++ headers slot writes }

lemma headed_append (slot : UInt8) (writes writes' : List (ℕ × UInt8)) (p : Plugin) :
    headed slot writes' (headed slot writes p) = headed slot (writes ++ writes') p := by
  have hmem : writeBytes (writeBytes p.mem (writes.map (hdrEntry p slot)))
      (writes'.map (hdrEntry p slot)) = writeBytes p.mem ((writes ++ writes').map (hdrEntry p slot)) := by
    rw [List.map_append]
    exact List.foldl_append.symm
  have htrace : p.backWrites ++ headers slot writes ++ headers slot writes' =
      p.backWrites ++ headers slot (writes ++ writes') := by
    rw [List.append_assoc, headers, headers, headers, List.map_append]
  unfold headed
  rw [← hmem, ← htrace]
  rfl

/-- A byte of the header is always written where there is a slot for it. -/
lemma hdrWrite_eq {p : Plugin} {slot : UInt8} (h : Served p.rt.currentSlot)
    (hslot : slot.toNat < oraGetRamSlotCount p.rt) (write : ℕ × UInt8) :
    hdrWrite slot write.1 write.2 p = headed slot [write] p := by
  have hinfo := oraGetRamSlotInfo_ok.mpr ⟨hslot, rfl⟩
  have hphys := pioMapAddrToPhys_lt (mapOk h) (p.cfg.regionOffset + write.1)
  rw [← (RamSlot.regionSize_eq (mapOk h)).1] at hphys
  have hstart : (RamSlot.SRAM_BASE + slot.toNat * pioGetRomRegionSize p.rt) % 2 ^ 32 =
      slotStart p.rt slot := Nat.mod_eq_of_lt ((slot_lt h hslot.le).trans (by decide))
  unfold hdrWrite
  dsimp only
  rw [hinfo]
  dsimp only
  rw [if_neg (not_le.mpr hphys), hstart]
  rfl

lemma hdrWrites_eq {slot : UInt8} (writes : List (ℕ × UInt8)) {p : Plugin}
    (h : Served p.rt.currentSlot) (hslot : slot.toNat < oraGetRamSlotCount p.rt) :
    hdrWrites slot writes p = headed slot writes p := by
  induction writes generalizing p with
  | nil =>
    have htrace : p.backWrites ++ headers slot [] = p.backWrites := List.append_nil _
    rw [headed, htrace]
    rfl
  | cons write writes ih =>
    have hrest := ih (p := headed slot [write] p) h hslot
    rw [headed_append] at hrest
    rw [hdrWrites, List.foldl_cons, ← hdrWrites, hdrWrite_eq h hslot]
    exact hrest

/-- The token is counted while the header says that the command is under way. -/
lemma nextToken_headed (slot : UInt8) (writes : List (ℕ × UInt8)) (p : Plugin) :
    nextToken (headed slot writes p) = headed slot writes (nextToken p) := by
  unfold nextToken headed
  dsimp only
  split <;> rfl

lemma cmdBegin_eq {p : Plugin} {slot : UInt8} (h : Served p.rt.currentSlot)
    (hslot : slot.toNat < oraGetRamSlotCount p.rt) (group cmd : UInt8) :
    cmdBegin slot group cmd p =
      headed slot
        (beginWrites p.cfg (nextToken p).tokenLsb (nextToken p).tokenMsb group cmd)
        (nextToken p) := by
  have hnext : (nextToken p).rt = p.rt := by
    obtain ⟨_, _, heq⟩ := nextToken_eq p
    rw [heq]
  have hrest := @hdrWrites_eq _ slot
    [(HDR_TOKEN_LSB, (nextToken p).tokenLsb), (HDR_TOKEN_MSB, (nextToken p).tokenMsb),
      (HDR_LAST_CMD_GROUP, group), (HDR_LAST_CMD_CMD, cmd)]
    (headed slot [(HDR_PROGRESS, pendingVal p)] (nextToken p)) (hnext ▸ h) (hnext ▸ hslot)
  rw [headed_append] at hrest
  unfold cmdBegin
  dsimp only
  rw [hdrWrite_eq h hslot (HDR_PROGRESS, pendingVal p), nextToken_headed]
  exact hrest

lemma cmdEnd_eq {p : Plugin} {slot : UInt8} (h : Served p.rt.currentSlot)
    (hslot : slot.toNat < oraGetRamSlotCount p.rt) (ok entering : Bool) :
    cmdEnd slot ok entering p = headed slot (endWrites p.cfg ok entering) p :=
  hdrWrites_eq _ h hslot

/-! ### A command's work -/

/-- In a session the work writes data of the answer, and nothing else in the back-channel. -/
lemma Work.dataWrites {kinds : List Kind} {p q : Plugin} (h : Work kinds p q)
    (hkinds : Kind.header ∉ kinds) :
    ∃ data, q.backWrites = p.backWrites ++ data ∧ ∀ w ∈ data, w.IsData := by
  induction h with
  | refl => exact ⟨[], (List.append_nil _).symm, fun w hw => absurd hw List.not_mem_nil⟩
  | tail _ hstep ih =>
    obtain ⟨data, htrace, hdata⟩ := ih
    obtain ⟨k, hk, hact⟩ := hstep
    by_cases hanswer : k = .answer
    · cases hact <;> first
        | exact absurd hanswer (by decide)
        | skip
      rename_i dataOffset bytes
      obtain ⟨more, hmore, hdata'⟩ := dataWrite_backWrites _ dataOffset bytes _
      refine ⟨data ++ more, by rw [hmore, htrace, List.append_assoc], fun w hw => ?_⟩
      exact (List.mem_append.mp hw).elim (hdata w) (hdata' w)
    · refine ⟨data, ?_, hdata⟩
      have hheader : k ≠ .header := fun h => hkinds (h ▸ hk)
      rw [hact.kept.backWrites (by simp [hanswer, hheader]), htrace]

lemma Work.backWrites_eq {kinds : List Kind} {p q : Plugin} (h : Work kinds p q)
    (hheader : Kind.header ∉ kinds) (hanswer : Kind.answer ∉ kinds) :
    q.backWrites = p.backWrites := by
  refine h.same Plugin.backWrites fun k hk p q hact => hact.kept.backWrites fun hmem => ?_
  simp only [List.mem_cons, List.not_mem_nil, or_false] at hmem
  rcases hmem with rfl | rfl
  · exact hanswer hk
  · exact hheader hk

/-- The session's settings and its tokens. -/
def settings (p : Plugin) : RbcpCfg × UInt8 × UInt8 := (p.cfg, p.tokenLsb, p.tokenMsb)

lemma Work.settings_eq {kinds : List Kind} {p q : Plugin} (h : Work kinds p q)
    (henter : Kind.enter ∉ kinds) (hreset : Kind.reset ∉ kinds) : settings q = settings p := by
  refine h.same settings fun k hk p q hact => ?_
  obtain ⟨hcfg, hlsb, hmsb⟩ := hact.kept.cfg fun hmem => by
    simp only [List.mem_cons, List.not_mem_nil, or_false] at hmem
    rcases hmem with rfl | rfl
    · exact henter hk
    · exact hreset hk
  rw [settings, hcfg, hlsb, hmsb]
  rfl

omit [Firmware] in
lemma Cmd.code_of_ofCode {group cmd : UInt8} {c : Cmd} (h : ofCode group cmd = some c) :
    c.code = (group, cmd) := by
  have hfound := List.find?_some h
  exact of_decide_eq_true hfound

/-- No session is entered from a session. -/
lemma Cmd.enterCmdResp_refused :
    Ends (fun p ok q => p.active = true → ok = false ∧ q = p) enterCmdResp.exec := by
  unfold exec
  repeat' refine Ends.hear_bind fun _ => ?_
  refine Ends.act fun p hactive => ?_
  unfold Rbcp.enterCmdResp
  rw [if_pos hactive]
  exact ⟨rfl, rfl⟩

/-- The write to flash that was left ends the transaction, or leaves it open. -/
lemma finishDeferred_eq (ok : Bool) (p : Plugin) :
    ∃ nvState nv nvWrites, (nvState = p.nvState ∨ nvState.active = false) ∧
      (finishDeferred ok p).2 = { p with nvState, nvDeferred := .none, nv, nvWrites } := by
  unfold finishDeferred
  split
  · next hnone => exact ⟨p.nvState, p.nv, p.nvWrites, Or.inl rfl, by rw [← hnone]⟩
  · unfold nvDeferredRun nvFlashWrite
    dsimp only
    split
    · exact ⟨_, _, _, Or.inl rfl, rfl⟩
    · split
      · exact ⟨_, _, _, Or.inr rfl, rfl⟩
      · exact ⟨_, _, _, Or.inl rfl, rfl⟩
    · split
      · exact ⟨_, _, _, Or.inl rfl, rfl⟩
      · exact ⟨_, _, _, Or.inl rfl, rfl⟩

omit [Firmware] in
lemma Cmd.notMem_kinds {c : Cmd} {k : Kind} (h : k ∉ c.done ∧ k ∉ c.failed) (ok : Bool) :
    k ∉ if ok then c.done else c.failed := by
  split
  · exact h.1
  · exact h.2

/-- What a command that isn't silent comes to in a session. -/
structure Answering (p : Plugin) (q : Plugin) : Prop where
  sound : Sound q
  settings : settings q = settings p
  data : ∃ data, q.backWrites = p.backWrites ++ data ∧ ∀ w ∈ data, w.IsData

lemma Answering.refl {p : Plugin} (hp : Sound p) : Answering p p :=
  ⟨hp, rfl, [], (List.append_nil _).symm, fun _ hw => absurd hw List.not_mem_nil⟩

lemma dispatched_answering {p : Plugin} {frame : Frame} (hp : Sound p) (hactive : p.active = true)
    (h : frame.Whole) (hsilent : cmdIsSilent frame.group frame.cmd = false) :
    Answering p (dispatched p frame).2 := by
  rcases dispatched_cases p h with hrefused | ⟨c, hcode, -, ⟨t, hrun, hstate⟩, hworked⟩
  · rw [hrefused]
    exact .refl hp
  · by_cases hc : c = .enterCmdResp
    · subst hc
      have hkept := (Cmd.enterCmdResp_refused _ _ _ _ hrun hactive).2
      rw [← hstate, hkept]
      exact .refl hp
    · have hsilent' : c.isSilent = false := by
        rw [cmdIsSilent, hcode] at hsilent
        exact hsilent
      have hkinds : ∀ k ∈ [Kind.header, .enter, .reset], k ∉ c.done ∧ k ∉ c.failed := by
        cases c <;> first
          | exact absurd rfl hc
          | exact absurd hsilent' (by decide)
          | decide
      have hnone : ∀ k ∈ [Kind.header, .enter, .reset], _ := fun k hk =>
        Cmd.notMem_kinds (hkinds k hk) (dispatched p frame).1
      exact
        { sound := hworked.sound hp
          settings := Work.settings_eq hworked (hnone _ (by simp)) (hnone _ (by simp))
          data := Work.dataWrites hworked (hnone _ (by simp)) }

/-- A silent command leaves the back-channel alone. -/
lemma dispatched_silent {p : Plugin} {frame : Frame} (h : frame.Whole)
    (hsilent : cmdIsSilent frame.group frame.cmd = true) :
    (dispatched p frame).2.backWrites = p.backWrites := by
  rcases dispatched_cases p h with hrefused | ⟨c, hcode, -, -, hworked⟩
  · rw [hrefused]
  · have hsilent' : c.isSilent = true := by
      rw [cmdIsSilent, hcode] at hsilent
      exact hsilent
    have hkinds : ∀ k ∈ [Kind.header, .answer], k ∉ c.done ∧ k ∉ c.failed := by
      cases c <;> first
        | exact absurd hsilent' (by decide)
        | decide
    exact Work.backWrites_eq hworked (Cmd.notMem_kinds (hkinds _ (by simp)) _)
      (Cmd.notMem_kinds (hkinds _ (by simp)) _)

/-- In command mode a command other than the one that enters a session stays in it, and leaves the
back-channel alone. -/
lemma dispatched_idle {p : Plugin} {frame : Frame} (hidle : p.active = false) (h : frame.Whole)
    (henter : Cmd.ofCode frame.group frame.cmd ≠ some .enterCmdResp) :
    (dispatched p frame).2.active = false ∧ (dispatched p frame).2.backWrites = p.backWrites := by
  rcases dispatched_cases p h with hrefused | ⟨c, hcode, hin, -, hworked⟩
  · rw [hrefused]
    exact ⟨hidle, rfl⟩
  · have hin' : c.inSession = false := by
      by_contra hin'
      rw [hin (Bool.not_eq_false _ |>.mp hin')] at hidle
      cases hidle
    have hkinds : ∀ k ∈ [Kind.header, .answer, .enter], k ∉ c.done ∧ k ∉ c.failed := by
      cases c <;> first
        | exact absurd hcode henter
        | exact absurd hin' (by decide)
        | decide
    have hnone : ∀ k ∈ [Kind.header, .answer, .enter], _ := fun k hk =>
      Cmd.notMem_kinds (hkinds k hk) (dispatched p frame).1
    refine ⟨?_, Work.backWrites_eq hworked (hnone _ (by simp)) (hnone _ (by simp))⟩
    refine Work.invariant (I := fun q => q.active = false) (fun k hk q r hact hq => ?_) hworked
      hidle
    by_cases hexit : k ∈ [Kind.exit, .reset]
    · cases hact <;> first
        | rfl
        | exact absurd hexit (by decide)
    · have hactive := hact.kept.active fun hmem => ?_
      · exact hactive.trans hq
      · simp only [List.mem_cons, List.not_mem_nil, or_false] at hmem hexit
        rcases hmem with rfl | rfl | rfl
        · exact hexit (Or.inl rfl)
        · exact hnone _ (by simp) hk
        · exact hexit (Or.inr rfl)

/-! ### Entering a session -/

/-- The token that is in the region, at the offset a session is entered with. -/
def tokenThere (p : Plugin) (cfg : RbcpCfg) (slot : UInt8) : Option ℕ := do
  let lsb ← hdrRead slot HDR_TOKEN_LSB { p with cfg }
  let msb ← hdrRead slot HDR_TOKEN_MSB { p with cfg }
  return word16 lsb msb

/-- What comes of entering a session from `p`. -/
inductive Entering (p : Plugin) : Bool × Plugin → Prop
  | refused {q : Plugin} (hidle : q.active = false) (htrace : q.backWrites = p.backWrites) :
    Entering p (false, q)
  | entered {q : Plugin} (hactive : q.active = true) (htrace : q.backWrites = p.backWrites)
    (hsound : Sound q) (htoken : tokenThere p q.cfg q.activeSlot = some (token q)) :
    Entering p (true, q)
  | tooLarge {q : Plugin} {slot : UInt8} (hidle : q.active = false)
    (hslot : oraGetActiveRamSlot p.rt = .ok slot.toNat)
    (htrace : q.backWrites = p.backWrites ++
      headers slot (beginWrites q.cfg q.tokenLsb q.tokenMsb 0 1) ++
      headers slot (endWrites q.cfg false false)) : Entering p (false, q)

/-- Neither the settings nor the token from before play a part. -/
lemma Entering.of_settings {p : Plugin} {cfg : RbcpCfg} {tokenLsb tokenMsb : UInt8}
    {r : Bool × Plugin} (h : Entering { p with cfg, tokenLsb, tokenMsb } r) : Entering p r := by
  cases h with
  | refused hidle htrace => exact .refused hidle htrace
  | entered hactive htrace hsound htoken => exact .entered hactive htrace hsound htoken
  | tooLarge hidle hslot htrace => exact .tooLarge hidle hslot htrace

/-- A region that is too large is refused in its header. -/
lemma refusal_entering {p : Plugin} {slot : UInt8} (hp : Sound p) (hidle : p.active = false)
    (hslot : oraGetActiveRamSlot p.rt = .ok slot.toNat) :
    Entering p (false, cmdEnd slot false false (cmdBegin slot 0 1 p)) := by
  have hlt := oraGetActiveRamSlot_lt hp.served hslot
  rw [cmdBegin_eq hp.served hlt]
  set b := headed slot _ (nextToken p) with hb
  have hkept : b.rt = p.rt ∧ b.active = p.active ∧
      b.backWrites = p.backWrites ++ headers slot
        (beginWrites b.cfg b.tokenLsb b.tokenMsb 0 1) := by
    rw [hb]
    unfold nextToken headed
    dsimp only
    split <;> exact ⟨rfl, rfl, rfl⟩
  obtain ⟨hrt, hactive, htrace⟩ := hkept
  rw [cmdEnd_eq (hrt ▸ hp.served) (hrt ▸ hlt)]
  refine Entering.tooLarge (hactive.trans hidle) hslot ?_
  show b.backWrites ++ _ = _
  rw [htrace]
  rfl

lemma enterRegion_entering {slot : ℕ} (commandPage : ℕ) {regionSize : ℕ}
    {info : RamSlot.RamSlotInfo} {p : Plugin} (hp : Sound p) (hidle : p.active = false)
    (hslot : oraGetActiveRamSlot p.rt = .ok slot) (hinfo : oraGetRamSlotInfo p.rt slot = .ok info)
    (hsize : HDR_SIZE ≤ regionSize) :
    Entering p (enterRegion (UInt8.ofNat slot) info.size commandPage regionSize p) := by
  have hlt := (activeRamSlot_toNat hslot).trans_lt (oraGetActiveRamSlot_lt hp.served hslot)
  unfold enterRegion
  split
  · exact .refused hidle rfl
  next tokenLsb hlsb =>
  split
  · exact .refused hidle rfl
  next tokenMsb hmsb =>
  split
  · refine Entering.of_settings (refusal_entering (p := { p with tokenLsb, tokenMsb })
      ⟨hp.served, hp.slot, hp.region⟩ hidle ?_)
    rw [activeRamSlot_toNat hslot, hslot]
  next hend =>
    refine .entered rfl rfl ⟨hp.served, hlt, fun _ => ?_⟩ ?_
    · obtain ⟨-, rfl⟩ := oraGetRamSlotInfo_ok.mp hinfo
      show p.cfg.regionOffset + HDR_SIZE + (regionSize - HDR_SIZE) ≤ pioGetRomRegionSize p.rt
      dsimp only at hend
      omega
    have hmsb' : hdrRead (UInt8.ofNat slot) HDR_TOKEN_MSB p = some tokenMsb := hmsb
    show (do
      let lsb ← hdrRead (UInt8.ofNat slot) HDR_TOKEN_LSB p
      let msb ← hdrRead (UInt8.ofNat slot) HDR_TOKEN_MSB p
      return word16 lsb msb) = _
    rw [hlsb, hmsb']
    rfl

lemma enterCmdResp_entering (commandPage regionOffset regionSize : ℕ) (complete statusOk : UInt8)
    {p : Plugin} (hp : Sound p) (hidle : p.active = false) :
    Entering p (enterCmdResp commandPage regionOffset regionSize complete statusOk p) := by
  unfold enterCmdResp
  rw [if_neg (by rw [hidle]; decide)]
  split
  · exact .refused hidle rfl
  split
  · exact .refused hidle rfl
  split
  · exact .refused hidle rfl
  next hsize =>
  split
  · exact .refused hidle rfl
  next slot hslot =>
  split
  · exact .refused hidle rfl
  next info hinfo =>
  split
  · exact .refused hidle rfl
  split
  · exact .refused hidle rfl
  have hentering := enterRegion_entering commandPage
    (p := { p with cfg := { p.cfg with regionOffset, complete, statusOk } })
    ⟨hp.served, hp.slot, fun hactive => by rw [show p.active = true from hactive] at hidle; cases hidle⟩
    hidle hslot hinfo (not_lt.mp hsize)
  exact hentering.of_settings

lemma dispatched_entering {p : Plugin} {frame : Frame} (hp : Sound p) (hidle : p.active = false)
    (h : frame.Whole) (henter : Cmd.ofCode frame.group frame.cmd = some .enterCmdResp) :
    Entering p (dispatched p frame) := by
  rcases dispatched_cases p h with hrefused | ⟨c, hcode, -, ⟨t, hrun, hstate⟩, -⟩
  · rw [hrefused]
    exact .refused hidle rfl
  · obtain rfl : c = .enterCmdResp := Option.some.inj (hcode.symm.trans henter)
    have hentering : Ends (fun p ok q => Sound p → p.active = false → Entering p (ok, q))
        Cmd.enterCmdResp.exec := by
      unfold Cmd.exec
      repeat' refine Ends.hear_bind fun _ => ?_
      exact Ends.act fun p hp hidle => enterCmdResp_entering _ _ _ _ _ hp hidle
    have hthis := hentering _ _ _ _ hrun hp hidle
    rwa [hstate] at hthis

/-! ### A command in the trace -/

/-- What a command that takes the plugin from `p` to `q` writes into the back-channel. -/
inductive Exchange (p : Plugin) (frame : Frame) (q : Plugin) : List BackWrite → Prop
  /-- In a session the header is opened, the answer's data is written, and the header is closed. -/
  | answered {data : List BackWrite} (hactive : p.active = true)
    (hsilent : cmdIsSilent frame.group frame.cmd = false) (hdata : ∀ w ∈ data, w.IsData)
    (hcfg : q.cfg = p.cfg) (htoken : token q = (token p + 1) % 2 ^ 16) :
    Exchange p frame q
      (headers p.activeSlot
        (beginWrites p.cfg q.tokenLsb q.tokenMsb frame.group frame.cmd) ++
        data ++ headers q.activeSlot (endWrites p.cfg (succeeds p frame) false))
  | silent (hactive : p.active = true) (hsilent : cmdIsSilent frame.group frame.cmd = true) :
    Exchange p frame q []
  /-- A session goes on from the token it finds. -/
  | entered {found : ℕ} (hidle : p.active = false) (hactive : q.active = true)
    (henter : Cmd.ofCode frame.group frame.cmd = some .enterCmdResp)
    (hfound : tokenThere p q.cfg q.activeSlot = some found)
    (htoken : token q = (found + 1) % 2 ^ 16) :
    Exchange p frame q
      (headers q.activeSlot (beginWrites q.cfg q.tokenLsb q.tokenMsb frame.group frame.cmd) ++
        headers q.activeSlot (endWrites q.cfg true true))
  | tooLarge {slot : UInt8} (hidle : p.active = false) (hstill : q.active = false)
    (henter : Cmd.ofCode frame.group frame.cmd = some .enterCmdResp)
    (hslot : oraGetActiveRamSlot p.rt = .ok slot.toNat) :
    Exchange p frame q
      (headers slot (beginWrites q.cfg q.tokenLsb q.tokenMsb frame.group frame.cmd) ++
        headers slot (endWrites q.cfg false false))
  | unanswered (hidle : p.active = false) (hstill : q.active = false) : Exchange p frame q []

/-- The end of a session ends its transaction. -/
def settled (p : Plugin) : Plugin := if p.active then p else nvDiscardImpl p

lemma settled_eq (p : Plugin) : ∃ nvState nvDeferred,
    settled p = { p with nvState, nvDeferred } ∧ (nvState = p.nvState ∨ nvState.active = false) ∧
      (nvDeferred = p.nvDeferred ∨ nvDeferred = .none) ∧
      (p.active = false → nvState.active = false) := by
  unfold settled
  split
  next hactive =>
    refine ⟨p.nvState, p.nvDeferred, rfl, Or.inl rfl, Or.inl rfl, fun hidle => ?_⟩
    exact absurd (hidle.symm.trans hactive) Bool.false_ne_true
  · exact ⟨_, _, rfl, Or.inr rfl, Or.inr rfl, fun _ => rfl⟩

section

variable {r : Bool × Plugin} {group cmd : UInt8}

lemma endCommand_session (p : Plugin) :
    (if true = true ∧ ¬p.active = true then nvDiscardImpl p else p) = settled p := by
  unfold settled
  split
  next h => rw [if_neg h.2]
  next h => rw [if_pos (by simpa using h)]

lemma endCommand_answered (hsilent : cmdIsSilent group cmd = false) (hr : Sound r.2) :
    endCommand group cmd true r =
      settled (headed r.2.activeSlot (endWrites r.2.cfg r.1 false) r.2) := by
  have hopen : true = true ∧ ¬cmdIsSilent group cmd = true := ⟨rfl, by rw [hsilent]; decide⟩
  rw [← endCommand_session]
  unfold endCommand
  dsimp only
  rw [if_pos hopen, cmdEnd_eq hr.served hr.slot]
  rfl

lemma endCommand_silent (hsilent : cmdIsSilent group cmd = true) :
    endCommand group cmd true r = settled r.2 := by
  have hopen : ¬(true = true ∧ ¬cmdIsSilent group cmd = true) := fun h => h.2 hsilent
  have hentered : ¬(¬true = true ∧ r.2.active = true) := fun h => h.1 rfl
  rw [← endCommand_session]
  unfold endCommand
  dsimp only
  rw [if_neg hopen, if_neg hentered]

omit [Firmware] in
/-- There is no session for the command to answer in, or to end. -/
lemma not_wasActive (q : Prop) : ¬(false = true ∧ q) := fun h => Bool.noConfusion h.1

lemma endCommand_idle (hidle : r.2.active = false) : endCommand group cmd false r = r.2 := by
  have hentered : ¬(¬false = true ∧ r.2.active = true) := fun h => by
    rw [hidle] at h
    exact Bool.noConfusion h.2
  unfold endCommand
  dsimp only
  rw [if_neg (not_wasActive _), if_neg hentered, if_neg (not_wasActive _)]

lemma endCommand_entered (hactive : r.2.active = true) (hr : Sound r.2) :
    endCommand group cmd false r =
      headed r.2.activeSlot
        (beginWrites r.2.cfg (nextToken r.2).tokenLsb (nextToken r.2).tokenMsb group cmd ++
          endWrites r.2.cfg r.1 true) (nextToken r.2) := by
  have hnext : (nextToken r.2).rt = r.2.rt ∧ (nextToken r.2).cfg = r.2.cfg := by
    obtain ⟨_, _, heq⟩ := nextToken_eq r.2
    rw [heq]
    exact ⟨rfl, rfl⟩
  have hend := cmdEnd_eq (p := headed r.2.activeSlot
    (beginWrites r.2.cfg (nextToken r.2).tokenLsb (nextToken r.2).tokenMsb group cmd)
    (nextToken r.2)) (hnext.1 ▸ hr.served) (hnext.1 ▸ hr.slot) r.1 true
  rw [headed_append] at hend
  have hentered : ¬false = true ∧ r.2.active = true := ⟨Bool.false_ne_true, hactive⟩
  unfold endCommand
  dsimp only
  rw [if_neg (not_wasActive _), if_neg (not_wasActive _), if_pos hentered,
    cmdBegin_eq hr.served hr.slot, hend]
  show headed _ (_ ++ endWrites (nextToken r.2).cfg r.1 true) _ = _
  rw [hnext.2]

end

/-- A command that is answered writes its header, with the next token. -/
lemma beginCommand_headed {p : Plugin} {group cmd : UInt8} (hp : Sound p) (hactive : p.active = true)
    (hsilent : cmdIsSilent group cmd = false) :
    beginCommand group cmd p = headed p.activeSlot
      (beginWrites p.cfg (nextToken p).tokenLsb (nextToken p).tokenMsb group cmd) (nextToken p) := by
  have hopen : p.active = true ∧ ¬cmdIsSilent group cmd = true :=
    ⟨hactive, by rw [hsilent]; decide⟩
  rw [beginCommand, if_pos hopen, cmdBegin_eq hp.served hp.slot]

/-- What a command's header changes. -/
structure Opened (p : Plugin) (frame : Frame) (b : Plugin) : Prop where
  rest : ∃ tokenLsb tokenMsb mem backWrites,
    b = { p with tokenLsb, tokenMsb, mem, backWrites }
  token : token b = (token p + 1) % 2 ^ 16
  trace : b.backWrites = p.backWrites ++
    headers p.activeSlot (beginWrites p.cfg b.tokenLsb b.tokenMsb frame.group frame.cmd)

lemma beginCommand_opened {p : Plugin} {frame : Frame} (hp : Sound p) (hactive : p.active = true)
    (hsilent : cmdIsSilent frame.group frame.cmd = false) :
    Opened p frame (beginCommand frame.group frame.cmd p) := by
  have htoken := nextToken_token p
  rw [beginCommand_headed hp hactive hsilent]
  refine ⟨?_, htoken, ?_⟩
  · unfold nextToken headed
    dsimp only
    split <;> exact ⟨_, _, _, _, rfl⟩
  · unfold nextToken headed
    dsimp only
    split <;> rfl

lemma beginCommand_silent {p : Plugin} {group cmd : UInt8}
    (h : p.active = true → cmdIsSilent group cmd = true) : beginCommand group cmd p = p := by
  rw [beginCommand, if_neg fun hopen => hopen.2 (h hopen.1)]

lemma Sound.opened {p b : Plugin} {frame : Frame} (hp : Sound p) (h : Opened p frame b) :
    Sound b := by
  obtain ⟨_, _, _, _, rfl⟩ := h.rest
  exact ⟨hp.served, hp.slot, hp.region⟩

lemma perform_answered {p : Plugin} {frame : Frame} (hp : Sound p) (hactive : p.active = true)
    (h : frame.Whole) (hsilent : cmdIsSilent frame.group frame.cmd = false) :
    ∃ writes, (perform p frame).backWrites = p.backWrites ++ writes ∧
      Exchange p frame (perform p frame) writes := by
  rw [perform_eq h, hactive]
  have hopened := beginCommand_opened hp hactive hsilent
  have hsucceeds : (worked p frame).1 = succeeds p frame := rfl
  unfold worked at hsucceeds ⊢
  dsimp only at hsucceeds ⊢
  generalize beginCommand frame.group frame.cmd p = b at hopened hsucceeds ⊢
  have hb := hp.opened hopened
  obtain ⟨_, _, _, _, hframe⟩ := hopened.rest
  have hbactive : b.active = true := by rw [hframe]; exact hactive
  have hbcfg : b.cfg = p.cfg := by rw [hframe]
  have hanswering := dispatched_answering hb hbactive h hsilent
  generalize dispatched b frame = r at hanswering hsucceeds ⊢
  obtain ⟨nvState, nv, nvWrites, -, hfinished⟩ := finishDeferred_eq r.1 r.2
  generalize finishDeferred r.1 r.2 = u at hfinished hsucceeds ⊢
  obtain ⟨data, hdata, hisData⟩ := hanswering.data
  have hsettings := hanswering.settings
  simp only [settings, Prod.mk.injEq] at hsettings
  have hu : Sound u.2 := by
    rw [hfinished]
    exact ⟨hanswering.sound.served, hanswering.sound.slot, hanswering.sound.region⟩
  obtain ⟨nvState', nvDeferred, hend, -⟩ :=
    settled_eq (headed u.2.activeSlot (endWrites u.2.cfg u.1 false) u.2)
  rw [endCommand_answered hsilent hu, hend, hsucceeds, hfinished]
  refine ⟨headers p.activeSlot (beginWrites p.cfg b.tokenLsb b.tokenMsb frame.group frame.cmd) ++
    data ++ headers r.2.activeSlot (endWrites p.cfg (succeeds p frame) false), ?_, ?_⟩
  · show r.2.backWrites ++ headers r.2.activeSlot (endWrites r.2.cfg (succeeds p frame) false) = _
    rw [hdata, hopened.trace, hsettings.1, hbcfg]
    simp only [List.append_assoc]
  · rw [← hsettings.2.1, ← hsettings.2.2]
    refine Exchange.answered hactive hsilent hisData (hsettings.1.trans hbcfg) ?_
    rw [← hopened.token]
    show word16 r.2.tokenLsb r.2.tokenMsb = word16 b.tokenLsb b.tokenMsb
    rw [hsettings.2.1, hsettings.2.2]

lemma perform_silent {p : Plugin} {frame : Frame} (hactive : p.active = true) (h : frame.Whole)
    (hsilent : cmdIsSilent frame.group frame.cmd = true) :
    (perform p frame).backWrites = p.backWrites := by
  rw [perform_eq h, hactive]
  unfold worked
  rw [beginCommand_silent fun _ => hsilent]
  have hquiet := dispatched_silent (p := p) h hsilent
  generalize dispatched p frame = r at hquiet ⊢
  dsimp only
  obtain ⟨nvState, nv, nvWrites, -, hfinished⟩ := finishDeferred_eq r.1 r.2
  obtain ⟨nvState', nvDeferred, hend, -⟩ := settled_eq (finishDeferred r.1 r.2).2
  rw [endCommand_silent hsilent, hend, hfinished]
  exact hquiet

lemma finishDeferred_none {r : Bool × Plugin} (h : r.2.nvDeferred = .none) :
    finishDeferred r.1 r.2 = r := by
  unfold finishDeferred
  rw [h]

/-- A session is entered without a write to flash. -/
lemma dispatched_entering_deferred {p : Plugin} {frame : Frame} (h : frame.Whole)
    (henter : Cmd.ofCode frame.group frame.cmd = some .enterCmdResp) :
    (dispatched p frame).2.nvDeferred = p.nvDeferred := by
  rcases dispatched_cases p h with hrefused | ⟨c, hcode, -, -, hworked⟩
  · rw [hrefused]
  · obtain rfl : c = .enterCmdResp := Option.some.inj (hcode.symm.trans henter)
    have hkinds : ∀ k ∈ [Kind.commit, .discard, .reset],
        k ∉ Cmd.enterCmdResp.done ∧ k ∉ Cmd.enterCmdResp.failed := by decide
    refine Work.same Plugin.nvDeferred (fun k hk p q hact => hact.kept.deferred fun hmem => ?_)
      hworked
    exact Cmd.notMem_kinds (hkinds k hmem) _ hk

lemma perform_entering {p : Plugin} {frame : Frame} (hp : Sound p) (hidle : p.active = false)
    (hdeferred : p.nvDeferred = .none) (h : frame.Whole)
    (henter : Cmd.ofCode frame.group frame.cmd = some .enterCmdResp) :
    ∃ writes, (perform p frame).backWrites = p.backWrites ++ writes ∧
      Exchange p frame (perform p frame) writes := by
  obtain ⟨hgroup, hcmd⟩ : 0x00 = frame.group ∧ 0x01 = frame.cmd :=
    Prod.mk.inj (Cmd.code_of_ofCode henter)
  have hentering := dispatched_entering hp hidle h henter
  have hkept := (dispatched_entering_deferred (p := p) h henter).trans hdeferred
  rw [perform_eq h, hidle]
  unfold worked
  rw [beginCommand_silent fun hactive => absurd (hidle.symm.trans hactive) Bool.false_ne_true]
  generalize dispatched p frame = r at hentering hkept ⊢
  dsimp only
  rw [finishDeferred_none hkept]
  cases hentering with
  | refused hstill htrace =>
    rw [endCommand_idle hstill]
    exact ⟨[], by rw [List.append_nil, htrace], .unanswered hidle hstill⟩
  | @entered q hactive htrace hsound htoken =>
    have hnext : (nextToken q).active = q.active ∧ (nextToken q).cfg = q.cfg ∧
        (nextToken q).activeSlot = q.activeSlot ∧ (nextToken q).backWrites = q.backWrites := by
      obtain ⟨_, _, heq⟩ := nextToken_eq q
      rw [heq]
      exact ⟨rfl, rfl, rfl, rfl⟩
    obtain ⟨hactive', hcfg, hslot, htrace'⟩ := hnext
    rw [endCommand_entered hactive hsound]
    set u := headed q.activeSlot _ (nextToken q) with hu
    have hcfg' : u.cfg = q.cfg := hcfg
    have hslot' : u.activeSlot = q.activeSlot := hslot
    refine ⟨headers u.activeSlot (beginWrites u.cfg u.tokenLsb u.tokenMsb frame.group frame.cmd) ++
      headers u.activeSlot (endWrites u.cfg true true), ?_, ?_⟩
    · show (nextToken q).backWrites ++ headers q.activeSlot (_ ++ _) = _
      rw [htrace', htrace, headers, List.map_append, hcfg', hslot']
      rfl
    · refine .entered hidle (hactive'.trans hactive) henter ?_ (nextToken_token q)
      rw [hcfg', hslot', htoken]
  | @tooLarge q slot hstill hslot htrace =>
    rw [endCommand_idle hstill]
    refine ⟨_, by rw [htrace, List.append_assoc], ?_⟩
    rw [hgroup, hcmd]
    exact .tooLarge hidle hstill henter hslot

lemma perform_idle {p : Plugin} {frame : Frame} (hidle : p.active = false) (h : frame.Whole)
    (henter : Cmd.ofCode frame.group frame.cmd ≠ some .enterCmdResp) :
    (perform p frame).active = false ∧ (perform p frame).backWrites = p.backWrites := by
  obtain ⟨hstill, htrace⟩ := dispatched_idle hidle h henter
  rw [perform_eq h, hidle]
  unfold worked
  rw [beginCommand_silent fun hactive => absurd (hidle.symm.trans hactive) Bool.false_ne_true]
  dsimp only
  generalize dispatched p frame = r at hstill htrace ⊢
  obtain ⟨nvState, nv, nvWrites, -, hfinished⟩ := finishDeferred_eq r.1 r.2
  have hidle' : (finishDeferred r.1 r.2).2.active = false := by
    rw [hfinished]
    exact hstill
  rw [endCommand_idle hidle', hfinished]
  exact ⟨hstill, htrace⟩

/-! ### Every command of a run -/

/-- What holds between commands: nothing is left to be written to flash, and a transaction is
open in a session alone. -/
structure Ready (p : Plugin) : Prop where
  sound : Sound p
  follows : Follows p
  deferred : p.nvDeferred = .none
  staged : p.nvState.active = true → p.active = true

/-- The plugin starts out between two commands. -/
lemma initRbcp_ready {p : Plugin} (h : Served p.rt.currentSlot) : Ready (initRbcp p) where
  sound := ⟨h, oraGetRamSlotCount_pos p.rt, fun hactive => Bool.noConfusion hactive⟩
  follows := Follows.idle rfl
  deferred := rfl
  staged hopen := Bool.noConfusion hopen

lemma perform_exchange {p : Plugin} {frame : Frame} (hp : Ready p) (h : frame.Whole) :
    ∃ writes, (perform p frame).backWrites = p.backWrites ++ writes ∧
      Exchange p frame (perform p frame) writes := by
  rcases Bool.eq_false_or_eq_true p.active with hactive | hidle
  · rcases Bool.eq_false_or_eq_true (cmdIsSilent frame.group frame.cmd) with hsilent | hsilent
    · refine ⟨[], ?_, .silent hactive hsilent⟩
      rw [perform_silent hactive h hsilent, List.append_nil]
    · exact perform_answered hp.sound hactive h hsilent
  · by_cases henter : Cmd.ofCode frame.group frame.cmd = some .enterCmdResp
    · exact perform_entering hp.sound hidle hp.deferred h henter
    · obtain ⟨hstill, htrace⟩ := perform_idle hidle h henter
      exact ⟨[], by rw [htrace, List.append_nil], .unanswered hidle hstill⟩

lemma beginCommand_eq {p : Plugin} (hp : Sound p) (group cmd : UInt8) :
    ∃ tokenLsb tokenMsb mem backWrites,
      beginCommand group cmd p = { p with tokenLsb, tokenMsb, mem, backWrites } := by
  by_cases hopen : p.active = true ∧ ¬cmdIsSilent group cmd = true
  · exact (@beginCommand_opened _ p ⟨group, cmd, []⟩ hp hopen.1
      (Bool.not_eq_true _ |>.mp hopen.2)).rest
  · rw [beginCommand, if_neg hopen]
    exact ⟨_, _, _, _, rfl⟩

/-- No transaction is opened in command mode. -/
lemma dispatched_staged {p : Plugin} {frame : Frame} (hidle : p.active = false) (h : frame.Whole)
    (hclosed : p.nvState.active = false) : (dispatched p frame).2.nvState.active = false := by
  rcases dispatched_cases p h with hrefused | ⟨c, -, hin, -, hworked⟩
  · rw [hrefused]
    exact hclosed
  · have hin' : c.inSession = false := by
      by_contra hin'
      rw [hin (Bool.not_eq_false _ |>.mp hin')] at hidle
      cases hidle
    have hstage : Kind.stage ∉ c.done ∧ Kind.stage ∉ c.failed := by
      cases c <;> first
        | exact absurd hin' (by decide)
        | decide
    refine Work.invariant (I := fun q => q.nvState.active = false) (fun k hk q r hact hq => ?_)
      hworked hclosed
    have hkept := hact.kept
    cases hact with
    | stage => exact absurd hk (Cmd.notMem_kinds hstage _)
    | discard | reset => rfl
    | _ =>
      rw [hkept.nvState (by decide)]
      exact hq

lemma dispatched_between {p : Plugin} {frame : Frame} (hp : Sound p) (hfollows : Follows p)
    (h : frame.Whole) : Sound (dispatched p frame).2 ∧ Follows (dispatched p frame).2 := by
  rcases dispatched_cases p h with hrefused | ⟨c, -, -, ⟨t, hrun, hstate⟩, hworked⟩
  · rw [hrefused]
    exact ⟨hp, hfollows⟩
  · refine ⟨hworked.sound hp, ?_⟩
    rw [← hstate]
    exact c.exec_follows _ _ _ _ hrun hp hfollows

lemma Ready.settled {p : Plugin} (hp : Sound p) (hfollows : Follows p)
    (hdeferred : p.nvDeferred = .none) : Ready (Rbcp.settled p) := by
  obtain ⟨nvState, nvDeferred, heq, -, hleft, hclosed⟩ := settled_eq p
  rw [heq]
  refine ⟨⟨hp.served, hp.slot, hp.region⟩, hfollows, ?_, fun hopen => ?_⟩
  · rcases hleft with hleft | hleft
    · exact hleft.trans hdeferred
    · exact hleft
  · by_contra hidle
    have hshut := hclosed (Bool.not_eq_true _ |>.mp hidle)
    exact absurd (hshut.symm.trans hopen) Bool.false_ne_true

/-- What holds between commands holds after every command. -/
lemma perform_ready {p : Plugin} {frame : Frame} (hp : Ready p) (h : frame.Whole) :
    Ready (perform p frame) := by
  rw [perform_eq h]
  unfold worked
  obtain ⟨_, _, _, _, hbegin⟩ := beginCommand_eq hp.sound frame.group frame.cmd
  have hb : Sound (beginCommand frame.group frame.cmd p) ∧
      Follows (beginCommand frame.group frame.cmd p) ∧
      (p.active = false → (beginCommand frame.group frame.cmd p).active = false ∧
        (beginCommand frame.group frame.cmd p).nvState.active = false) := by
    rw [hbegin]
    refine ⟨⟨hp.sound.served, hp.sound.slot, hp.sound.region⟩, hp.follows, fun hidle =>
      ⟨hidle, ?_⟩⟩
    by_contra hopen
    have hactive := hp.staged (Bool.not_eq_false _ |>.mp hopen)
    exact absurd (hidle.symm.trans hactive) Bool.false_ne_true
  generalize beginCommand frame.group frame.cmd p = b at hb ⊢
  obtain ⟨hsound, hfollows, hidle⟩ := hb
  obtain ⟨hsound, hfollows⟩ := dispatched_between hsound hfollows h
  have hclosed : p.active = false → (dispatched b frame).2.nvState.active = false := fun hp' =>
    dispatched_staged (hidle hp').1 h (hidle hp').2
  dsimp only
  generalize dispatched b frame = r at hsound hfollows hclosed ⊢
  obtain ⟨nvState, nv, nvWrites, hstate, hfinished⟩ := finishDeferred_eq r.1 r.2
  have hu : Sound (finishDeferred r.1 r.2).2 ∧ Follows (finishDeferred r.1 r.2).2 ∧
      (finishDeferred r.1 r.2).2.nvDeferred = .none ∧
      (p.active = false → (finishDeferred r.1 r.2).2.nvState.active = false) := by
    rw [hfinished]
    refine ⟨⟨hsound.served, hsound.slot, hsound.region⟩, hfollows, rfl, fun hp' => ?_⟩
    rcases hstate with rfl | hstate
    · exact hclosed hp'
    · exact hstate
  generalize finishDeferred r.1 r.2 = u at hu ⊢
  obtain ⟨hsound, hfollows, hdeferred, hclosed⟩ := hu
  cases hactive : p.active with
  | true =>
    rcases Bool.eq_false_or_eq_true (cmdIsSilent frame.group frame.cmd) with hsilent | hsilent
    · rw [endCommand_silent hsilent]
      exact .settled hsound hfollows hdeferred
    · rw [endCommand_answered hsilent hsound]
      exact .settled ⟨hsound.served, hsound.slot, hsound.region⟩ hfollows hdeferred
  | false =>
    have hclosed := hclosed hactive
    cases hentered : u.2.active with
    | false =>
      rw [endCommand_idle hentered]
      exact ⟨hsound, hfollows, hdeferred, fun hopen =>
        absurd (hclosed.symm.trans hopen) Bool.false_ne_true⟩
    | true =>
      obtain ⟨_, _, hnext⟩ := nextToken_eq u.2
      rw [endCommand_entered hentered hsound, hnext]
      exact ⟨⟨hsound.served, hsound.slot, hsound.region⟩, hfollows, hdeferred, fun _ => hentered⟩

/-- What the commands of a run write into the back-channel, from `p` to `q`. -/
inductive Exchanges : Plugin → List Frame → Plugin → List BackWrite → Prop
  | nil (p : Plugin) : Exchanges p [] p []
  | cons {p q : Plugin} {frame : Frame} {frames : List Frame} {writes more : List BackWrite}
    (hfirst : Exchange p frame (perform p frame) writes)
    (hrest : Exchanges (perform p frame) frames q more) :
    Exchanges p (frame :: frames) q (writes ++ more)

lemma perform_exchanges {p : Plugin} (hp : Ready p) {done : List Frame}
    (h : ∀ frame ∈ done, frame.Whole) : ∃ writes,
      (done.foldl perform p).backWrites = p.backWrites ++ writes ∧
        Exchanges p done (done.foldl perform p) writes ∧ Ready (done.foldl perform p) := by
  induction done generalizing p with
  | nil => exact ⟨[], (List.append_nil _).symm, .nil p, hp⟩
  | cons frame done ih =>
    have hframe := h frame List.mem_cons_self
    obtain ⟨writes, htrace, hfirst⟩ := perform_exchange hp hframe
    obtain ⟨more, htrace', hrest, hready⟩ := ih (perform_ready hp hframe) fun f hf =>
      h f (List.mem_cons_of_mem _ hf)
    exact ⟨writes ++ more, by rw [List.foldl_cons, htrace', htrace, List.append_assoc],
      .cons hfirst hrest, hready⟩

/-- A device with no images in flash, and no more than it needs. -/
@[reducible] def bareFirmware : Firmware where
  Log := Unit
  Gpio := Unit
  Led := Unit
  flashSlots := ⟨[], Nat.zero_le _⟩
  flashImage _ := none
  allFlashSlots := 0
  romType := 0
  chipSizeFromType _ := 2048
  unobservedAddrBits := 0
  deviceVersion := none
  rpVariant := none
  romSlotIndex := none
  metadataUintAt := none
  hasUptime := false
  logQuery := none
  logOpenWrite := none
  logWrite := none
  logOpenRead := none
  logRead := none
  gpioSet := none
  gpioQuery := none
  ledGet := none
  ledSet := none
  nvReady _ := true
  stackByte _ _ := 0

/-- The device when it has started, with its memory and NV storage erased. -/
def bareDevice (rt : RamSlot.Runtime) : @Plugin bareFirmware :=
  letI := bareFirmware
  initRbcp
    { active := false
      cfg := ⟨0, 0, 0, 0, 0, 0⟩
      tokenLsb := 0
      tokenMsb := 0
      activeSlot := 0
      nvState := ⟨false, 0, 0, 0⟩
      nvDeferred := .none
      bootFlashSlot := 0
      bootRamSlot := 0
      pipesClaimed := 0
      pipesReadClaimed := 0
      rt
      mem := fun _ => 0
      nv := fun _ => 0xFF
      log := ()
      gpio := ()
      led := ()
      nvWrites := 0
      backWrites := [] }

/-- A session is entered, is asked for the protocol's version, and is left. -/
def versionSession : List UInt8 :=
  [0x00, 0x01, 0, 0, 0, 0, 0, 64, 0, 0xBB, 0xCC, 0x01, 0x06, 0x00, 0x02]

end OneRom.Rbcp
