import OneRom.RbcpFrames

/-!
What a command's own work can be: a few kinds of acts, and for each command those that it does where
it succeeds, and those it may have done where it fails.
-/

namespace OneRom.Rbcp

open OneRom.Fallible OneRom.Listener
open OneRom.RamSlot (oraGetRamSlotInfo oraGetActiveRamSlot)

variable [Firmware]

inductive Kind
  | answer | poke | load | switch | exit | restore | enter | header | stage | nvPoke | discard
  | commit | pipe | gpio | led | reset
  deriving DecidableEq

/-- One act of a kind. -/
inductive Act : Kind → Plugin → Plugin → Prop
  | answer {p : Plugin} (dataOffset : ℕ) (bytes : List UInt8) :
    Act .answer p (dataWrite p.activeSlot dataOffset bytes p)
  | poke {p q : Plugin} {slot : UInt8} {offset : ℕ} {bytes : List UInt8}
    (hslot : hostSlotValid p slot) (h : reprogram p slot offset bytes = some q) : Act .poke p q
  | load {p q : Plugin} {ramSlot flashSlot : UInt8} (hslot : hostSlotValid p ramSlot)
    (h : copyFlashToRam p flashSlot ramSlot = some q) : Act .load p q
  | switch {p q : Plugin} {slot : UInt8} (hslot : hostSlotValid p slot)
    (h : setActiveRamSlot p slot = some q) : Act .switch p q
  | follow {p : Plugin} {slot : ℕ} (h : oraGetActiveRamSlot p.rt = .ok slot) :
    Act .switch p { p with activeSlot := UInt8.ofNat slot }
  | exit {p : Plugin} : Act .exit p { p with active := false }
  | restore {p q : Plugin} {bytes : List UInt8} (hlen : bytes.length ≤ 8)
    (h : reprogram p p.activeSlot p.cfg.regionOffset bytes = some q) : Act .restore p q
  | enter {p : Plugin} (cfg : RbcpCfg) (tokenLsb tokenMsb : UInt8) (h : p.active = false) :
    Act .enter p { p with cfg, tokenLsb, tokenMsb }
  | entered {p : Plugin} {slot : ℕ} {info : RamSlot.RamSlotInfo} (h : p.active = false)
    (hslot : oraGetActiveRamSlot p.rt = .ok slot) (hinfo : oraGetRamSlotInfo p.rt slot = .ok info)
    (hend : p.cfg.regionEnd ≤ info.size)
    (hregion : p.cfg.regionOffset + HDR_SIZE + p.cfg.dataSize = p.cfg.regionEnd) :
    Act .enter p { p with activeSlot := UInt8.ofNat slot, active := true }
  | header {p : Plugin} (slot : UInt8) (offset : ℕ) (val : UInt8) (h : p.active = false) :
    Act .header p (hdrWrite slot offset val p)
  | stage {p : Plugin} {slot : UInt8} {base size : ℕ} (hidle : p.nvState.active = false)
    (hslot : hostSlotValid p slot) (hactive : slot ≠ p.activeSlot)
    (h : stagingFor p slot = some (base, size)) :
    Act .stage p
      { p with mem := fill p.mem base NV_STORAGE_SIZE p.nv, nvState := ⟨true, slot, base, size⟩ }
  | nvPoke {p : Plugin} {location : ℕ} {byte : UInt8} (hactive : p.nvState.active = true)
    (h : location < NV_STORAGE_SIZE) :
    Act .nvPoke p { p with mem := Function.update p.mem (p.nvState.stagingBase + location) byte }
  | discard {p : Plugin} : Act .discard p (nvDiscardImpl p)
  | commit {p : Plugin} (hactive : p.nvState.active = true) :
    Act .commit p { p with nvDeferred := .slot }
  | commitNoslot {p : Plugin} {byte : UInt8} {offset : ℕ} (hidle : p.nvState.active = false)
    (h : offset < NV_NOSLOT_SIZE) : Act .commit p { p with nvDeferred := .noslot byte offset }
  | pipe {p : Plugin} (log : Firmware.Log) (pipesClaimed pipesReadClaimed : UInt8) :
    Act .pipe p { p with log, pipesClaimed, pipesReadClaimed }
  | gpio {p : Plugin} (gpio : Firmware.Gpio) : Act .gpio p { p with gpio }
  | led {p : Plugin} (led : Firmware.Led) : Act .led p { p with led }
  | reset {p : Plugin} : Act .reset p (initRbcp p)

/-- Some acts, each of one of the kinds. -/
def Work (kinds : List Kind) : Plugin → Plugin → Prop :=
  Relation.ReflTransGen fun p q => ∃ k ∈ kinds, Act k p q

namespace Work

variable {kinds kinds' : List Kind} {p q r : Plugin}

lemma refl (kinds : List Kind) (p : Plugin) : Work kinds p p := Relation.ReflTransGen.refl

lemma one {k : Kind} (h : Act k p q) (hk : k ∈ kinds) : Work kinds p q := .single ⟨k, hk, h⟩

lemma trans (h : Work kinds p q) (h' : Work kinds q r) : Work kinds p r :=
  Relation.ReflTransGen.trans h h'

lemma mono (h : Work kinds p q) (hsub : kinds ⊆ kinds') : Work kinds' p q :=
  Relation.ReflTransGen.mono (fun _ _ hstep => hstep.imp fun _ hact => ⟨hsub hact.1, hact.2⟩) _ _ h

/-- What no act changes, the work doesn't change. -/
lemma same {β : Type*} (f : Plugin → β) (hact : ∀ k ∈ kinds, ∀ p q, Act k p q → f q = f p)
    (h : Work kinds p q) : f q = f p := by
  induction h with
  | refl => rfl
  | tail _ hstep ih =>
    obtain ⟨k, hk, hact'⟩ := hstep
    exact (hact k hk _ _ hact').trans ih

/-- An invariant that each act keeps. -/
lemma invariant {I : Plugin → Prop} (hact : ∀ k ∈ kinds, ∀ p q, Act k p q → I p → I q)
    (h : Work kinds p q) (hp : I p) : I q := by
  induction h with
  | refl => exact hp
  | tail _ hstep ih =>
    obtain ⟨k, hk, hact'⟩ := hstep
    exact hact k hk _ _ hact' ih

end Work

/-! ### Handlers -/

/-- A handler's acts, where it succeeds and where it fails. -/
def Worked (done failed : List Kind) (p : Plugin) (r : Bool × Plugin) : Prop :=
  Work (if r.1 then done else failed) p r.2

namespace Worked

variable {done failed : List Kind} {p q : Plugin} {r : Bool × Plugin}

lemma ok (h : Work done p q) : Worked done failed p (true, q) := h

lemma fail (h : Work failed p q) : Worked done failed p (false, q) := h

lemma refuse (p : Plugin) : Worked done failed p (false, p) := .refl _ p

end Worked

/-- An answer is one act. -/
lemma answer_worked (bytes : List UInt8) (p : Plugin) :
    Worked [.answer] [] p (answer bytes p) :=
  Worked.ok (.one (Act.answer 0 bytes) (List.mem_singleton_self _))

lemma answerIn_worked (size : ℕ) (bytes : Plugin → Option (List UInt8)) (p : Plugin) :
    Worked [.answer] [] p (answerIn size bytes p) := by
  unfold answerIn
  split
  · exact Worked.refuse p
  · split
    · exact Worked.refuse p
    · exact answer_worked _ p

lemma namingSlot_worked {done failed : List Kind} {slot : UInt8} {step : Step} {p : Plugin}
    (h : hostSlotValid p slot → Worked done failed p (step p)) :
    Worked done failed p (namingSlot slot step p) := by
  unfold namingSlot
  split_ifs with haa hvalid
  · exact Worked.refuse p
  · exact h hvalid
  · exact Worked.refuse p

lemma trying_worked {done failed : List Kind} {call : Plugin → Option Plugin} {p : Plugin}
    (h : ∀ q, call p = some q → Work done p q) : Worked done failed p (trying call p) := by
  unfold trying
  split
  · exact Worked.refuse p
  · next q hq => exact Worked.ok (h q hq)

lemma andExit_worked {done failed : List Kind} (step : Step) {p : Plugin}
    (h : Worked done failed p (step p)) :
    Worked (.exit :: done) (.exit :: failed) p (andExit step p) := by
  unfold andExit
  generalize step p = r at h
  obtain ⟨ok, q⟩ := r
  cases ok with
  | true => exact (Work.mono h (List.subset_cons_self _ _)).trans (.one .exit List.mem_cons_self)
  | false => exact (Work.mono h (List.subset_cons_self _ _)).trans (.one .exit List.mem_cons_self)

/-! ### Control -/

@[simp] lemma hdrWrite_active (slot : UInt8) (offset : ℕ) (val : UInt8) (p : Plugin) :
    (hdrWrite slot offset val p).active = p.active := by
  unfold hdrWrite
  dsimp only
  split
  · rfl
  · split_ifs <;> rfl

lemma hdrWrites_work (slot : UInt8) (writes : List (ℕ × UInt8)) {p : Plugin}
    (h : p.active = false) : Work [.enter, .header] p (hdrWrites slot writes p) ∧
      (hdrWrites slot writes p).active = false := by
  induction writes generalizing p with
  | nil => exact ⟨.refl _ p, h⟩
  | cons write writes ih =>
    have hone : Work [.enter, .header] p (hdrWrite slot write.1 write.2 p) :=
      .one (.header slot write.1 write.2 h) (by simp)
    obtain ⟨hwork, hactive⟩ := ih (p := hdrWrite slot write.1 write.2 p) (by rwa [hdrWrite_active])
    exact ⟨hone.trans hwork, hactive⟩

lemma nextToken_work {p : Plugin} (h : p.active = false) :
    Work [.enter, .header] p (nextToken p) ∧ (nextToken p).active = false := by
  have htoken : ∀ lsb msb : UInt8,
      Work [.enter, .header] p { p with tokenLsb := lsb, tokenMsb := msb } :=
    fun lsb msb => .one (.enter p.cfg lsb msb h) (by simp)
  unfold nextToken
  dsimp only
  split_ifs
  · exact ⟨htoken _ _, h⟩
  · exact ⟨htoken _ p.tokenMsb, h⟩

/-- The answer that refuses a region which is too large. -/
lemma refusal_work {p : Plugin} (h : p.active = false) (slot group cmd : UInt8) :
    Work [.enter, .header] p (cmdEnd slot false false (cmdBegin slot group cmd p)) := by
  unfold cmdEnd cmdBegin
  obtain ⟨hpending, hactive⟩ := hdrWrites_work slot [(HDR_PROGRESS, pendingVal p)] h
  obtain ⟨htoken, hactive⟩ := nextToken_work hactive
  obtain ⟨hbegin, hactive⟩ := hdrWrites_work slot _ hactive
  exact ((hpending.trans htoken).trans hbegin).trans (hdrWrites_work slot _ hactive).1

lemma enterRegion_worked {slot : ℕ} (commandPage : ℕ) {regionSize : ℕ}
    {info : RamSlot.RamSlotInfo} {p : Plugin} (hactive : p.active = false) (hslot : oraGetActiveRamSlot p.rt = .ok slot)
    (hinfo : oraGetRamSlotInfo p.rt slot = .ok info) (hsize : HDR_SIZE ≤ regionSize) :
    Worked [.enter] [.enter, .header] p
      (enterRegion (UInt8.ofNat slot) info.size commandPage regionSize p) := by
  have henter : ∀ kinds (cfg : RbcpCfg) (tokenLsb tokenMsb : UInt8), .enter ∈ kinds →
      Work kinds p { p with cfg, tokenLsb, tokenMsb } :=
    fun kinds cfg tokenLsb tokenMsb hmem => .one (.enter cfg tokenLsb tokenMsb hactive) hmem
  unfold enterRegion
  split
  · exact Worked.refuse p
  next tokenLsb _ =>
  split
  · exact Worked.fail (henter _ p.cfg tokenLsb p.tokenMsb (by simp))
  next tokenMsb _ =>
  split
  · have hrefusal := refusal_work (p := { p with tokenLsb, tokenMsb }) hactive (UInt8.ofNat slot) 0 1
    exact Worked.fail ((henter _ p.cfg tokenLsb tokenMsb (by simp)).trans hrefusal)
  next hend =>
    refine Worked.ok (Work.trans (henter _
      { p.cfg with
        commandPage
        regionEnd := p.cfg.regionOffset + regionSize
        dataSize := regionSize - HDR_SIZE } tokenLsb tokenMsb (by simp)) ?_)
    refine .one (.entered hactive hslot hinfo (not_lt.mp hend) ?_) (by simp)
    show p.cfg.regionOffset + HDR_SIZE + (regionSize - HDR_SIZE) = p.cfg.regionOffset + regionSize
    omega

lemma enterCmdResp_worked (commandPage regionOffset regionSize : ℕ) (complete statusOk : UInt8)
    (p : Plugin) : Worked [.enter] [.enter, .header] p
      (enterCmdResp commandPage regionOffset regionSize complete statusOk p) := by
  unfold enterCmdResp
  split_ifs with hactive _ _ hsize
  · exact Worked.refuse p
  · exact Worked.refuse p
  · exact Worked.refuse p
  · exact Worked.refuse p
  have hactive : p.active = false := Bool.not_eq_true _ |>.mp hactive
  split
  · exact Worked.refuse p
  next slot hslot =>
  split
  · exact Worked.refuse p
  next info hinfo =>
  split_ifs
  · exact Worked.refuse p
  · exact Worked.refuse p
  have hcfg : ∀ kinds, .enter ∈ kinds →
      Work kinds p { p with cfg := { p.cfg with regionOffset, complete, statusOk } } :=
    fun kinds hmem =>
      .one (.enter _ p.tokenLsb p.tokenMsb hactive) hmem
  have hrest := enterRegion_worked commandPage
    (p := { p with cfg := { p.cfg with regionOffset, complete, statusOk } })
    hactive hslot hinfo (not_lt.mp hsize)
  generalize enterRegion (UInt8.ofNat slot) info.size commandPage regionSize _ = r at hrest ⊢
  obtain ⟨ok, q⟩ := r
  cases ok with
  | true => exact (hcfg _ (by simp)).trans hrest
  | false => exact (hcfg _ (by simp)).trans hrest

lemma exitCmdResp_worked (p : Plugin) : Worked [.exit] [] p (exitCmdResp p) :=
  Worked.ok (.one .exit (List.mem_singleton_self _))

lemma exitCmdRespRestore_worked (bytes : List UInt8) (count : UInt8) (p : Plugin) :
    Worked [.exit, .restore] [.exit] p (exitCmdRespRestore bytes count p) := by
  unfold exitCmdRespRestore
  have hexit : ∀ kinds, .exit ∈ kinds → Work kinds p { p with active := false } :=
    fun _ hmem => .one .exit hmem
  by_cases hactive : p.active = true
  · rw [if_neg (not_not.mpr hactive)]
    dsimp only
    split
    · exact Worked.fail (hexit _ (by simp))
    next hcount =>
    split
    · exact Worked.fail (hexit _ (by simp))
    · next q hq =>
      refine Worked.ok ((hexit _ (by simp)).trans
        (.one (.restore (p := { p with active := false }) ?_ hq) (by simp)))
      rw [List.length_take]
      omega
  · rw [if_pos hactive]
    exact Worked.refuse p

/-! ### Read -/

lemma dataWrites_work {p q : Plugin} (dataOffset : ℕ) (bytes : List UInt8)
    (hslot : q.activeSlot = p.activeSlot) :
    Work [.answer] q (dataWrite p.activeSlot dataOffset bytes q) := by
  rw [← hslot]
  exact .one (.answer dataOffset bytes) (List.mem_singleton_self _)

lemma reprogram_eq_some {p q : Plugin} {slot : UInt8} {offset : ℕ} {bytes : List UInt8}
    (h : reprogram p slot offset bytes = some q) : q = { p with mem := q.mem } := by
  unfold reprogram at h
  split at h
  · cases h; rfl
  · cases h

@[simp] lemma dataWrite_activeSlot (slot : UInt8) (dataOffset : ℕ) (bytes : List UInt8)
    (p : Plugin) : (dataWrite slot dataOffset bytes p).activeSlot = p.activeSlot := by
  unfold dataWrite
  split
  · rfl
  · dsimp only
    split
    · rfl
    · next q hq =>
      rw [reprogram_eq_some hq]

lemma getFlashSlotInfo_worked (flashSlot : UInt8) (p : Plugin) :
    Worked [.answer] [] p (getFlashSlotInfo flashSlot p) := by
  unfold getFlashSlotInfo
  split_ifs
  · exact Worked.refuse p
  · exact answerIn_worked _ _ p

lemma emitRecords_worked (wholeCount partialBytes n i dataOff : ℕ) (p : Plugin) :
    Worked [.answer] [.answer] p
      (emitRecords p.activeSlot wholeCount partialBytes n i dataOff p) := by
  suffices h : ∀ q : Plugin, q.activeSlot = p.activeSlot →
      Worked [.answer] [.answer] q
        (emitRecords p.activeSlot wholeCount partialBytes n i dataOff q) from h p rfl
  induction n generalizing i dataOff with
  | zero => exact fun q _ => Worked.ok (.refl _ q)
  | succ n ih =>
    intro q hslot
    unfold emitRecords
    split
    · exact Worked.refuse q
    · next record _ =>
      dsimp only
      have hone := dataWrites_work dataOff (emittedRecord wholeCount partialBytes i record) hslot
      have hrest := ih (i + 1)
        (dataOff + (emittedRecord wholeCount partialBytes i record).length) _
        ((dataWrite_activeSlot p.activeSlot dataOff
          (emittedRecord wholeCount partialBytes i record) q).trans hslot)
      unfold Worked at hrest ⊢
      rw [ite_self] at hrest ⊢
      exact hone.trans hrest

lemma getFlashSlotInfoAll_worked (p : Plugin) :
    Worked [.answer] [.answer] p (getFlashSlotInfoAll p) := by
  unfold getFlashSlotInfoAll
  dsimp only
  split
  · exact Worked.ok (dataWrites_work _ _ rfl)
  · generalize hq : dataWrite p.activeSlot 0 _ p = q
    have hslot : q.activeSlot = p.activeSlot := hq ▸ dataWrite_activeSlot _ _ _ p
    have hone : Work [.answer] p q := hq ▸ dataWrites_work _ _ rfl
    rw [← hslot]
    have hrest := emitRecords_worked
    unfold Worked at hrest ⊢
    simp only [ite_self] at hrest ⊢
    exact hone.trans (hrest _ _ _ _ _ q)

lemma peekChunks_work (slotBase addr n dataOff remaining : ℕ) (p : Plugin) :
    Work [.answer] p (peekChunks slotBase addr n dataOff remaining p) := by
  induction n generalizing dataOff remaining p with
  | zero => exact .refl _ p
  | succ n ih => exact (dataWrites_work _ _ rfl).trans (ih _ _ _)

lemma slotPeek_worked (count : UInt8) (addr : ℕ) (target : UInt8) (p : Plugin) :
    Worked [.answer] [] p (slotPeek count addr target p) := by
  refine namingSlot_worked fun _ => ?_
  split
  · exact Worked.refuse p
  split
  · exact Worked.refuse p
  split
  · exact Worked.refuse p
  · exact Worked.ok (peekChunks_work _ _ _ _ _ p)

/-! ### Modify -/

lemma slotPoke_worked (byte : UInt8) (addr : ℕ) (target : UInt8) (p : Plugin) :
    Worked [.poke] [] p (slotPoke byte addr target p) :=
  namingSlot_worked fun hslot => trying_worked fun _ hq => .one (.poke hslot hq) (by simp)

lemma switchSlot_worked (target : UInt8) (p : Plugin) :
    Worked [.switch] [] p (switchSlot target p) :=
  namingSlot_worked fun hslot => trying_worked fun _ hq => .one (.switch hslot hq) (by simp)

lemma switchSlotAndFollow_worked (target : UInt8) (p : Plugin) :
    Worked [.switch] [] p (switchSlotAndFollow target p) := by
  unfold switchSlotAndFollow
  have hswitch := switchSlot_worked target p
  generalize switchSlot target p = r at hswitch
  obtain ⟨ok, q⟩ := r
  cases ok with
  | false => exact hswitch
  | true =>
    dsimp only
    rw [if_pos rfl]
    split
    · next slot hslot => exact Worked.ok (Work.trans hswitch (.one (.follow hslot) (by simp)))
    · exact hswitch

lemma loadSlot_worked (ramSlot flashSlot : UInt8) (p : Plugin) :
    Worked [.load] [] p (loadSlot ramSlot flashSlot p) := by
  unfold loadSlot
  split_ifs
  · exact Worked.refuse p
  · exact namingSlot_worked fun hslot => trying_worked fun _ hq => .one (.load hslot hq) (by simp)

lemma pokeFrom_worked {target : UInt8} (byte : UInt8) (n i : ℕ) {p : Plugin}
    (hslot : hostSlotValid p target) : Worked [.poke] [.poke] p (pokeFrom target byte n i p) := by
  induction n generalizing i p with
  | zero => exact Worked.ok (.refl _ p)
  | succ n ih =>
    unfold pokeFrom
    split
    · exact Worked.refuse p
    · next q hq =>
      have hnext : hostSlotValid q target := by
        rw [reprogram_eq_some hq]
        exact hslot
      have hone : Work [.poke] p q := .one (.poke hslot hq) (by simp)
      have hrest := ih (i + 1) hnext
      unfold Worked at hrest ⊢
      rw [ite_self] at hrest ⊢
      exact hone.trans hrest

lemma slotPokeAllByte_worked (byte target : UInt8) (p : Plugin) :
    Worked [.poke] [.poke] p (slotPokeAllByte byte target p) := by
  refine namingSlot_worked fun hslot => ?_
  split
  · exact Worked.refuse p
  · dsimp only
    split
    · exact Worked.refuse p
    · exact pokeFrom_worked byte _ 0 hslot

/-! ### NV storage -/

lemma nvPeek_worked (count locLsb locMsb : UInt8) (p : Plugin) :
    Worked [.answer] [] p (nvPeek count locLsb locMsb p) := by
  unfold nvPeek
  split
  · exact Worked.refuse p
  dsimp only
  split
  · exact Worked.refuse p
  split
  · exact Worked.refuse p
  · exact answer_worked _ p

lemma nvPokeBeginImpl_worked (slot : UInt8) (p : Plugin) :
    Worked [.stage] [] p (nvPokeBeginImpl slot p) := by
  unfold nvPokeBeginImpl
  by_cases hidle : p.nvState.active = true
  · rw [if_pos hidle]
    exact Worked.refuse p
  rw [if_neg hidle]
  by_cases hslot : hostSlotValid p slot
  swap
  · rw [if_pos hslot]
    exact Worked.refuse p
  rw [if_neg (not_not.mpr hslot)]
  split
  · exact Worked.refuse p
  next hactive =>
  split
  · exact Worked.refuse p
  next base size hstaging =>
    exact Worked.ok (.one (.stage (Bool.not_eq_true _ |>.mp hidle) hslot hactive hstaging) (by simp))

lemma nvPokeBegin_worked (slot : UInt8) (p : Plugin) :
    Worked [.stage] [] p (nvPokeBegin slot p) := by
  unfold nvPokeBegin
  split
  · exact Worked.refuse p
  split
  · exact Worked.refuse p
  · exact nvPokeBeginImpl_worked slot p

lemma nvPokeImpl_worked (byte locLsb locMsb : UInt8) (p : Plugin) :
    Worked [.nvPoke] [] p (nvPokeImpl byte locLsb locMsb p) := by
  unfold nvPokeImpl
  by_cases hactive : p.nvState.active = true
  swap
  · rw [if_pos hactive]
    exact Worked.refuse p
  rw [if_neg (not_not.mpr hactive)]
  split
  · exact Worked.refuse p
  dsimp only
  split
  · exact Worked.refuse p
  next hloc => exact Worked.ok (.one (.nvPoke hactive (not_le.mp hloc)) (by simp))

lemma nvPokeDiscard_worked (p : Plugin) : Worked [.discard] [] p (nvPokeDiscard p) := by
  unfold nvPokeDiscard
  split
  · exact Worked.refuse p
  · exact Worked.ok (.one .discard (by simp))

lemma nvPokeCommit_worked (p : Plugin) : Worked [.commit] [] p (nvPokeCommit p) := by
  unfold nvPokeCommit
  split
  · exact Worked.refuse p
  next hactive => exact Worked.ok (.one (.commit (not_not.mp hactive)) (by simp))

lemma nvPokeImpl_active {byte locLsb locMsb : UInt8} {p q : Plugin} {ok : Bool}
    (h : nvPokeImpl byte locLsb locMsb p = (ok, q)) : q.nvState = p.nvState := by
  unfold nvPokeImpl at h
  dsimp only at h
  split at h
  · cases h; rfl
  split at h
  · cases h; rfl
  split at h <;> cases h <;> rfl

lemma nvPokeBeginImpl_active {slot : UInt8} {p q : Plugin}
    (h : nvPokeBeginImpl slot p = (true, q)) : q.nvState.active = true := by
  unfold nvPokeBeginImpl at h
  split at h
  · cases h
  split at h
  · cases h
  split at h
  · cases h
  split at h
  · cases h
  · cases h; rfl

lemma nvPokeCommitByte_worked (byte locLsb locMsb slot : UInt8) (p : Plugin) :
    Worked [.stage, .nvPoke, .commit] [.stage, .discard] p
      (nvPokeCommitByte byte locLsb locMsb slot p) := by
  unfold nvPokeCommitByte
  dsimp only
  split
  · exact Worked.refuse p
  split
  · exact Worked.refuse p
  next hnoslot =>
  split
  · exact Worked.ok (.refl _ p)
  split
  · next hslot =>
    have hchecked : noslotRefused p locLsb locMsb = false :=
      Bool.not_eq_true _ |>.mp fun h => hnoslot ⟨hslot, h⟩
    simp only [noslotRefused, Bool.or_eq_false_iff, decide_eq_false_iff_not] at hchecked
    refine Worked.ok (.one (.commitNoslot hchecked.2 ?_) (by simp))
    have hbase : NV_STORAGE_SIZE = NV_NOSLOT_BASE + NV_NOSLOT_SIZE := rfl
    omega
  have hbegin := nvPokeBeginImpl_worked slot p
  split
  · next q hq =>
    rw [hq] at hbegin
    exact Worked.fail (Work.mono hbegin (by simp))
  next q hq =>
  rw [hq] at hbegin
  have hbegin : ∀ kinds, .stage ∈ kinds → Work kinds p q :=
    fun kinds hmem => Work.mono hbegin (by simpa using hmem)
  have hpoke := nvPokeImpl_worked byte locLsb locMsb q
  split
  · next r hr =>
    rw [hr] at hpoke
    refine Worked.fail (((hbegin _ (by simp)).trans (Work.mono hpoke (by simp))).trans ?_)
    exact .one .discard (by simp)
  next r hr =>
  rw [hr] at hpoke
  have hactive : r.nvState.active = true := by
    rw [nvPokeImpl_active hr]
    exact nvPokeBeginImpl_active hq
  unfold nvPokeCommit
  rw [if_neg (not_not.mpr hactive)]
  refine Worked.ok (((hbegin _ (by simp)).trans (Work.mono hpoke (by simp))).trans ?_)
  exact .one (.commit hactive) (by simp)

/-! ### Pipes, pins and LEDs -/

lemma getPipeInfo_worked (pipe : UInt8) (p : Plugin) :
    Worked [.answer] [] p (getPipeInfo pipe p) := by
  unfold getPipeInfo
  split
  · exact Worked.refuse p
  · exact answerIn_worked _ _ p

/-- A channel that is claimed, or was before. -/
lemma claimWrite_work {pipe : UInt8} {p q : Plugin} (h : claimWrite pipe p = some q) :
    Work [.pipe] p q := by
  unfold claimWrite at h
  split at h
  · cases h
    exact .refl _ p
  · obtain ⟨log, -, rfl⟩ := Option.map_eq_some_iff.mp h
    exact .one (.pipe log _ p.pipesReadClaimed) (by simp)

lemma claimRead_work {pipe : UInt8} {p q : Plugin} (h : claimRead pipe p = some q) :
    Work [.pipe] p q := by
  unfold claimRead at h
  split at h
  · cases h
    exact .refl _ p
  · obtain ⟨log, -, rfl⟩ := Option.map_eq_some_iff.mp h
    exact .one (.pipe log p.pipesClaimed _) (by simp)

lemma pipeWrite_worked (data : List UInt8) (pipe count : UInt8) (p : Plugin) :
    Worked [.pipe] [.pipe] p (pipeWrite data pipe count p) := by
  unfold pipeWrite
  split
  · exact Worked.refuse p
  split
  · exact Worked.refuse p
  split
  · exact Worked.refuse p
  split
  · exact Worked.refuse p
  next q hq =>
  split
  · exact Worked.fail (claimWrite_work hq)
  next log _ =>
    exact Worked.ok ((claimWrite_work hq).trans
      (.one (.pipe log q.pipesClaimed q.pipesReadClaimed) (by simp)))

lemma pipeReadLoop_work (pipe : UInt8) (wanted n total : ℕ) (p : Plugin) :
    Work [.pipe, .answer] p (pipeReadLoop pipe wanted n total p).2 := by
  induction n generalizing total p with
  | zero => exact .refl _ p
  | succ n ih =>
    have hlog : ∀ log, Work [.pipe, .answer] p { p with log } := fun log =>
      .one (.pipe log p.pipesClaimed p.pipesReadClaimed) (by simp)
    unfold pipeReadLoop
    split
    · exact .refl _ p
    split
    · exact .refl _ p
    next copied log _ =>
    split
    · exact hlog log
    · refine ((hlog log).trans ?_).trans (ih _ _)
      exact .one (.answer (p := { p with log }) (8 + total) copied) (by simp)

lemma pipeRead_worked (count pipe : UInt8) (p : Plugin) :
    Worked [.pipe, .answer] [.pipe, .answer] p (pipeRead count pipe p) := by
  unfold pipeRead
  dsimp only
  split
  · exact Worked.refuse p
  split
  · exact Worked.refuse p
  split
  · exact Worked.refuse p
  split
  · exact Worked.refuse p
  split
  · exact Worked.refuse p
  next q hq =>
  have hclaim : Work [.pipe, .answer] p q := (claimRead_work hq).mono (by simp)
  have hloop := pipeReadLoop_work pipe (byteCount count) (byteCount count) 0 q
  split
  · next r hr =>
    rw [hr] at hloop
    exact Worked.fail (hclaim.trans hloop)
  next total r hr =>
  rw [hr] at hloop
  refine Worked.ok ((hclaim.trans hloop).trans ?_)
  exact .one (.answer 0 _) (by simp)

lemma auxPinDrive_work (state : UInt8) (gpios : List UInt8) (p : Plugin) :
    Work [.gpio] p (auxPinDrive state gpios p).2 := by
  induction gpios generalizing p with
  | nil => exact .refl _ p
  | cons gpio gpios ih =>
    unfold auxPinDrive
    split
    · exact .refl _ p
    · next g _ => exact Work.trans (.one (.gpio g) (by simp)) (ih _)

lemma auxHold_work (gpios : List UInt8) (after hold : UInt8) (p : Plugin) :
    Work [.gpio] p (auxHold gpios after hold p) := by
  unfold auxHold
  split
  · exact .refl _ p
  · exact auxPinDrive_work after gpios p

lemma setAux_worked (state after hold pin group : UInt8) (p : Plugin) :
    Worked [.gpio] [.gpio] p (setAux state after hold pin group p) := by
  unfold setAux
  split
  · exact Worked.refuse p
  next gpios _ =>
  have hdrive := auxPinDrive_work state gpios p
  split
  · next q hq =>
    rw [hq] at hdrive
    exact Worked.fail hdrive
  · next q hq =>
    rw [hq] at hdrive
    exact Worked.ok (hdrive.trans (auxHold_work gpios after hold q))

lemma setAuxSwitch_worked {slot : UInt8} (state after hold pin group : UInt8) (slotFirst : Bool)
    {p : Plugin} (hslot : hostSlotValid p slot) :
    Worked [.switch, .gpio] [.switch, .gpio] p
      (setAuxSwitch state after hold pin group slot slotFirst p) := by
  have hswitch : ∀ (first : Bool) {q r : Plugin}, hostSlotValid q slot →
      (if first then setActiveRamSlot q slot else some q) = some r →
        Work [.switch, .gpio] q r := by
    intro first q r hq hr
    split at hr
    · exact .one (.switch hq hr) (by simp)
    · cases hr
      exact .refl _ q
  have hkept : ∀ {q r : Plugin}, hostSlotValid q slot →
      (∀ (first : Bool), (if first then setActiveRamSlot q slot else some q) = some r →
        hostSlotValid r slot) := by
    intro q r hq first hr
    split at hr
    · unfold setActiveRamSlot at hr
      split at hr
      · cases hr; exact hq
      · cases hr
    · cases hr; exact hq
  unfold setAuxSwitch
  split
  · exact Worked.refuse p
  next gpios _ =>
  split
  · exact Worked.refuse p
  next q hq =>
  have hfirst := hswitch slotFirst hslot hq
  have hvalid := hkept hslot slotFirst hq
  have hdrive : Work [.switch, .gpio] q (auxPinDrive state gpios q).2 :=
    (auxPinDrive_work state gpios q).mono (by simp)
  have hdriven : hostSlotValid (auxPinDrive state gpios q).2 slot := by
    refine (auxPinDrive_work state gpios q).invariant (I := (hostSlotValid · slot)) ?_ hvalid
    rintro k hk a b hact ha
    rw [List.mem_singleton.mp hk] at hact
    cases hact
    exact ha
  split
  · next r hr =>
    rw [hr] at hdrive
    exact Worked.fail (hfirst.trans hdrive)
  next r hr =>
  rw [hr] at hdrive hdriven
  split
  · exact Worked.fail (hfirst.trans hdrive)
  next u hu =>
  have hsecond : Work [.switch, .gpio] r u := by
    refine hswitch (!slotFirst) hdriven ?_
    cases slotFirst <;> exact hu
  exact Worked.ok (((hfirst.trans hdrive).trans hsecond).trans
    ((auxHold_work gpios after hold u).mono (by simp)))

lemma setAuxSwitchExit_worked (state after hold flags pin group slot : UInt8) (p : Plugin) :
    Worked [.exit, .switch, .gpio] [.exit, .switch, .gpio] p
      (setAuxSwitchExit state after hold flags pin group slot p) := by
  have hexit : Work [.exit, .switch, .gpio] p { p with active := false } := .one .exit (by simp)
  unfold setAuxSwitchExit
  dsimp only
  split
  · exact Worked.fail hexit
  split
  · exact Worked.fail hexit
  by_cases hslot : hostSlotValid { p with active := false } slot
  swap
  · rw [if_pos hslot]
    exact Worked.fail hexit
  rw [if_neg (not_not.mpr hslot)]
  have hrest := setAuxSwitch_worked state after hold pin group (decide (flags &&& 1 ≠ 0)) hslot
  unfold Worked at hrest ⊢
  rw [ite_self] at hrest ⊢
  exact hexit.trans (hrest.mono (by simp))

lemma setLed_worked (mode red green blue brightness period hold led : UInt8) (p : Plugin) :
    Worked [.led] [] p (setLed mode red green blue brightness period hold led p) := by
  unfold setLed
  split
  · exact Worked.refuse p
  split
  · exact Worked.refuse p
  split
  · exact Worked.refuse p
  split
  · exact Worked.refuse p
  dsimp only
  split
  · exact Worked.refuse p
  · next l _ => exact Worked.ok (.one (.led l) (by simp))

/-! ### Commands -/

namespace Cmd

/-- The kinds of acts of a command that succeeds. -/
def done : Cmd → List Kind
  | nop => []
  | enterCmdResp => [.enter]
  | exitCmdRespAck | exitCmdRespSilent => [.exit]
  | switchAndExit => [.exit, .switch]
  | loadAndExit => [.exit, .load]
  | exitCmdRespRestore => [.exit, .restore]
  | slotPoke | slotPokeAllByte => [.poke]
  | switchSlot => [.switch]
  | loadSlot => [.load]
  | nvPokeBegin => [.stage]
  | nvPoke => [.nvPoke]
  | nvPokeCommit => [.commit]
  | nvPokeDiscard => [.discard]
  | nvPokeCommitByte => [.stage, .nvPoke, .commit]
  | pipeWrite => [.pipe]
  | pipeRead => [.pipe, .answer]
  | setAux => [.gpio]
  | setAuxAndExit => [.exit, .gpio]
  | setAuxSwitchExit => [.exit, .switch, .gpio]
  | setLed => [.led]
  | rbcpReset => [.reset]
  | _ => [.answer]

/-- The kinds of acts that a command which fails may have done. -/
def failed : Cmd → List Kind
  | enterCmdResp => [.enter, .header]
  | switchAndExit | loadAndExit | exitCmdRespRestore => [.exit]
  | getFlashSlotInfoAll => [.answer]
  | slotPokeAllByte => [.poke]
  | nvPokeCommitByte => [.stage, .discard]
  | pipeWrite => [.pipe]
  | pipeRead => [.pipe, .answer]
  | setAux => [.gpio]
  | setAuxAndExit => [.exit, .gpio]
  | setAuxSwitchExit => [.exit, .switch, .gpio]
  | _ => []

/-- A command does acts of its kinds, and no others. -/
lemma exec_worked (c : Cmd) :
    Ends (fun p ok q => Worked c.done c.failed p (ok, q)) c.exec := by
  cases c <;> unfold exec <;> (repeat' refine Ends.hear_bind fun _ => ?_) <;>
    (try refine Ends.act fun p => ?_)
  case nop => exact Ends.pure fun p => Worked.ok (.refl _ p)
  case enterCmdResp => exact enterCmdResp_worked _ _ _ _ _ p
  case exitCmdRespAck => exact exitCmdResp_worked p
  case exitCmdRespSilent => exact exitCmdResp_worked p
  case switchAndExit => exact andExit_worked (Rbcp.switchSlot _) (switchSlot_worked _ p)
  case loadAndExit => exact andExit_worked (Rbcp.loadSlot _ _) (loadSlot_worked _ _ p)
  case exitCmdRespRestore => exact exitCmdRespRestore_worked _ _ p
  case getFlashSlotCount => exact answer_worked _ p
  case getFlashSlotInfo => exact getFlashSlotInfo_worked _ p
  case getFlashSlotInfoAll => exact getFlashSlotInfoAll_worked p
  case getRamSlotInfoAll => exact answer_worked _ p
  case getDeviceType => exact answer_worked _ p
  case getDeviceVersion => exact answerIn_worked _ _ p
  case getProtocolVersion => exact answer_worked _ p
  case slotPeek => exact slotPeek_worked _ _ _ p
  case getBootSlotInfo => exact answer_worked _ p
  case slotPoke => exact slotPoke_worked _ _ _ p
  case switchSlot => exact switchSlotAndFollow_worked _ p
  case loadSlot => exact loadSlot_worked _ _ p
  case slotPokeAllByte => exact slotPokeAllByte_worked _ _ p
  case getNvCapability => exact answer_worked _ p
  case nvPeek => exact nvPeek_worked _ _ _ p
  case nvPokeBegin => exact nvPokeBegin_worked _ p
  case nvPoke => exact nvPokeImpl_worked _ _ _ p
  case nvPokeCommit => exact nvPokeCommit_worked p
  case nvPokeDiscard => exact nvPokeDiscard_worked p
  case nvPokeCommitByte => exact nvPokeCommitByte_worked _ _ _ _ p
  case getPipeCapability => exact answerIn_worked _ _ p
  case getPipeInfo => exact getPipeInfo_worked _ p
  case pipeWrite => exact pipeWrite_worked _ _ _ p
  case pipeRead => exact pipeRead_worked _ _ p
  case getAuxCapability => exact answerIn_worked _ _ p
  case getAuxGroupInfo => exact answerIn_worked _ _ p
  case getAuxPinInfo => exact answerIn_worked _ _ p
  case setAux => exact setAux_worked _ _ _ _ _ p
  case setAuxAndExit => exact andExit_worked (Rbcp.setAux _ _ _ _ _) (setAux_worked _ _ _ _ _ p)
  case setAuxSwitchExit => exact setAuxSwitchExit_worked _ _ _ _ _ _ _ p
  case getLedCapability => exact answerIn_worked _ _ p
  case getLedInfo => exact answerIn_worked _ _ p
  case getLedModeInfo => exact answerIn_worked _ _ p
  case setLed => exact setLed_worked _ _ _ _ _ _ _ _ p
  case rbcpReset => exact Worked.ok (.one .reset (by simp [done]))

end Cmd

end OneRom.Rbcp
