import OneRom.RbcpMemory

/-!
NV storage. A transaction stages a copy of it in RAM, pokes bytes of the copy, and writes all of it
back at once, or throws it away. `commands_nv` says that the plugin does what such a transaction
does, as long as the host leaves the slot that it lent alone.
-/

namespace OneRom.Rbcp

open OneRom.Fallible OneRom.Listener
open OneRom.AddrMap (Served mapOk pioMapAddrToPhys_lt)
open OneRom.PinMaps
open OneRom.RamSlot (Memory Runtime SRAM_BASE slotStart writeBytes writeBytes_framed write_ok
  oraGetRamSlotCount oraGetRamSlotInfo oraGetActiveRamSlot pioGetRomRegionSize)

variable [Firmware]

/-! ### A transaction -/

/-- NV storage, and the copy of it that a transaction has staged. -/
structure Nv where
  stored : ℕ → UInt8
  staged : Option (ℕ → UInt8)

/-- The bytes of NV storage. -/
def cut (bytes : ℕ → UInt8) (i : ℕ) : UInt8 := if i < NV_STORAGE_SIZE then bytes i else 0

def nvOf (p : Plugin) : Nv where
  stored := cut p.nv
  staged :=
    if p.nvState.active then some (cut fun i => p.mem (p.nvState.stagingBase + i)) else none

/-- The commands that write NV storage, or prepare to. -/
def Cmd.writesNv : Cmd → Bool
  | nvPokeBegin | nvPoke | nvPokeCommit | nvPokeDiscard | nvPokeCommitByte => true
  | _ => false

/-- While a transaction is open a byte of NV storage may be poked, and the transaction thrown away. -/
def Nv.Takes (n : Nv) (frame : Frame) : Prop :=
  n.staged.isSome ∧
    match Cmd.ofCode frame.group frame.cmd, frame.args with
    | some .nvPoke, [_, locLsb, locMsb] => word16 locLsb locMsb < NV_STORAGE_SIZE
    | some .nvPokeDiscard, _ => True
    | _, _ => False

/-- What a command does to NV storage, where it succeeds (`true`) and where it fails. -/
inductive NvStep (frame : Frame) : Bool → Nv → Nv → Prop
  | refused {n : Nv} (h : ¬n.Takes frame) : NvStep frame false n n
  | other {ok : Bool} {n : Nv}
    (h : ∀ c, Cmd.ofCode frame.group frame.cmd = some c → c.writesNv = false) : NvStep frame ok n n
  /-- A session that ends throws the transaction away. -/
  | ended {ok : Bool} {n : Nv}
    (h : ∀ c, Cmd.ofCode frame.group frame.cmd = some c → c.writesNv = false) :
    NvStep frame ok n { n with staged := none }
  | begun {stored : ℕ → UInt8} (h : Cmd.ofCode frame.group frame.cmd = some .nvPokeBegin) :
    NvStep frame true ⟨stored, none⟩ ⟨stored, some stored⟩
  | poked {stored staged : ℕ → UInt8} {byte locLsb locMsb : UInt8}
    (h : Cmd.ofCode frame.group frame.cmd = some .nvPoke) (hargs : frame.args = [byte, locLsb, locMsb])
    (hloc : word16 locLsb locMsb < NV_STORAGE_SIZE) :
    NvStep frame true ⟨stored, some staged⟩
      ⟨stored, some (Function.update staged (word16 locLsb locMsb) byte)⟩
  | committed {stored staged : ℕ → UInt8}
    (h : Cmd.ofCode frame.group frame.cmd = some .nvPokeCommit) :
    NvStep frame true ⟨stored, some staged⟩ ⟨staged, none⟩
  | discarded {stored staged : ℕ → UInt8}
    (h : Cmd.ofCode frame.group frame.cmd = some .nvPokeDiscard) :
    NvStep frame true ⟨stored, some staged⟩ ⟨stored, none⟩
  /-- A byte that is there is not written again. -/
  | byteThere {n : Nv} {byte locLsb locMsb slot : UInt8}
    (h : Cmd.ofCode frame.group frame.cmd = some .nvPokeCommitByte)
    (hargs : frame.args = [byte, locLsb, locMsb, slot])
    (hthere : n.stored (word16 locLsb locMsb) = byte) : NvStep frame true n n
  | byteWritten {stored : ℕ → UInt8} {byte locLsb locMsb slot : UInt8}
    (h : Cmd.ofCode frame.group frame.cmd = some .nvPokeCommitByte)
    (hargs : frame.args = [byte, locLsb, locMsb, slot]) (hslot : slot ≠ 0xFE)
    (hloc : word16 locLsb locMsb < NV_STORAGE_SIZE) :
    NvStep frame true ⟨stored, none⟩ ⟨Function.update stored (word16 locLsb locMsb) byte, none⟩
  /-- A byte that couldn't be written to flash stays staged. -/
  | byteLeft {stored : ℕ → UInt8} {byte locLsb locMsb slot : UInt8}
    (h : Cmd.ofCode frame.group frame.cmd = some .nvPokeCommitByte)
    (hargs : frame.args = [byte, locLsb, locMsb, slot]) (hslot : slot ≠ 0xFE)
    (hloc : word16 locLsb locMsb < NV_STORAGE_SIZE) :
    NvStep frame false ⟨stored, none⟩
      ⟨stored, some (Function.update stored (word16 locLsb locMsb) byte)⟩
  /-- A byte of the window that is written without a slot keeps the rest of the window. The pages
  before the window's are erased. -/
  | windowWritten {stored stored' : ℕ → UInt8} {byte locLsb locMsb slot : UInt8}
    (h : Cmd.ofCode frame.group frame.cmd = some .nvPokeCommitByte)
    (hargs : frame.args = [byte, locLsb, locMsb, slot]) (hslot : slot = 0xFE)
    (hloc : NV_NOSLOT_BASE ≤ word16 locLsb locMsb ∧ word16 locLsb locMsb < NV_STORAGE_SIZE)
    (hkept : ∀ i, NV_NOSLOT_BASE ≤ i → i < NV_STORAGE_SIZE →
      stored' i = Function.update stored (word16 locLsb locMsb) byte i)
    (herased : ∀ i < NV_NOSLOT_PAGE, stored' i = 0xFF) :
    NvStep frame true ⟨stored, none⟩ ⟨stored', none⟩

omit [Firmware] in
lemma cut_update {bytes : ℕ → UInt8} {i : ℕ} (h : i < NV_STORAGE_SIZE) (byte : UInt8) :
    cut (Function.update bytes i byte) = Function.update (cut bytes) i byte := by
  ext1 j
  by_cases hj : j = i
  · subst hj
    rw [cut, if_pos h, Function.update_self, Function.update_self]
  · rw [cut, Function.update_of_ne hj, Function.update_of_ne hj, cut]

omit [Firmware] in
lemma cut_congr {bytes bytes' : ℕ → UInt8} (h : ∀ i < NV_STORAGE_SIZE, bytes' i = bytes i) :
    cut bytes' = cut bytes := by
  ext1 i
  unfold cut
  split
  · next hi => exact h i hi
  · rfl

lemma nvOf_congr {p q : Plugin} (hnv : q.nv = p.nv) (hstate : q.nvState = p.nvState)
    (hmem : p.nvState.active = true → ∀ i < NV_STORAGE_SIZE,
      q.mem (p.nvState.stagingBase + i) = p.mem (p.nvState.stagingBase + i)) :
    nvOf q = nvOf p := by
  unfold nvOf
  rw [hnv, hstate]
  split
  · next hactive => rw [cut_congr (hmem hactive)]
  · rfl

/-! ### Slots -/

/-- From `p` to `q` no memory is changed but a slot's. -/
def SlotOnly (p q : Plugin) (slot : UInt8) : Prop := ∀ x,
  x < slotStart p.rt slot ∨ slotStart p.rt slot + pioGetRomRegionSize p.rt ≤ x →
    q.mem x = p.mem x

lemma SlotOnly.same {p q : Plugin} (h : q.mem = p.mem) (slot : UInt8) : SlotOnly p q slot :=
  fun x _ => congrFun h x

omit [Firmware] in
lemma slotStart_congr {rt rt' : Runtime} (h : rt'.currentSlot = rt.currentSlot) (slot : UInt8) :
    slotStart rt' slot = slotStart rt slot ∧ pioGetRomRegionSize rt' = pioGetRomRegionSize rt := by
  unfold slotStart pioGetRomRegionSize
  rw [h]
  exact ⟨rfl, rfl⟩

lemma SlotOnly.trans {p q r : Plugin} {slot : UInt8} (h : SlotOnly p q slot)
    (h' : SlotOnly q r slot) (hdevice : q.rt.currentSlot = p.rt.currentSlot) :
    SlotOnly p r slot := fun x hx => by
  obtain ⟨hstart, hsize⟩ := slotStart_congr hdevice slot
  rw [h' x (by rw [hstart, hsize]; exact hx), h x hx]

lemma headed_slotOnly {p : Plugin} (hp : Served p.rt.currentSlot) (slot : UInt8)
    (writes : List (ℕ × UInt8)) : SlotOnly p (headed slot writes p) slot := by
  intro x hx
  refine RamSlot.writeBytes_of_notMem fun hmem => ?_
  rw [List.map_map] at hmem
  obtain ⟨write, -, rfl⟩ := List.mem_map.mp hmem
  have hphys := pioMapAddrToPhys_lt (mapOk hp) (p.cfg.regionOffset + write.1)
  rw [← (RamSlot.regionSize_eq (mapOk hp)).1] at hphys
  simp only [Function.comp_apply, hdrEntry] at hx
  omega

lemma reprogram_slotOnly {p q : Plugin} {slot : UInt8} {offset : ℕ} {bytes : List UInt8}
    (hp : Served p.rt.currentSlot) (h : reprogram p slot offset bytes = some q) :
    SlotOnly p q slot := by
  intro x hx
  unfold reprogram at h
  split at h
  · next mem hmem =>
    cases h
    obtain ⟨-, -, hmem⟩ := write_ok.mp hmem
    dsimp only
    rw [hmem]
    exact writeBytes_framed (s := ⟨slot, UInt32.ofNat offset, UInt32.ofNat bytes.length⟩)
      (mapOk hp) hx
  · cases h

lemma dataWrite_slotOnly {p : Plugin} (hp : Served p.rt.currentSlot) (slot : UInt8)
    (dataOffset : ℕ) (bytes : List UInt8) : SlotOnly p (dataWrite slot dataOffset bytes p) slot := by
  unfold dataWrite
  split
  · exact .same rfl slot
  dsimp only
  split
  · exact .same rfl slot
  · next q hq =>
    have hq := reprogram_slotOnly hp hq
    exact hq

lemma copyFlashToRam_slotOnly {p q : Plugin} {flashSlot ramSlot : UInt8}
    (hp : Served p.rt.currentSlot) (h : copyFlashToRam p flashSlot ramSlot = some q) :
    SlotOnly p q ramSlot := by
  unfold copyFlashToRam at h
  split at h
  next size data info hflash hinfo =>
    obtain ⟨hslot, rfl⟩ := oraGetRamSlotInfo_ok.mp hinfo
    split at h
    · cases h
    next hsize =>
    have hsize : size = pioGetRomRegionSize p.rt := not_not.mp hsize
    have hstart : (SRAM_BASE + ramSlot.toNat * pioGetRomRegionSize p.rt) % 2 ^ 32 =
        slotStart p.rt ramSlot := Nat.mod_eq_of_lt ((slot_lt hp hslot.le).trans (by decide))
    cases h
    intro x hx
    unfold fill
    dsimp only
    rw [hstart, hsize, if_neg (by omega)]
  · cases h

/-! ### Staging -/

/-- The slot that is served is one the host may name. -/
def Hosted (p : Plugin) : Prop :=
  ∀ slot, oraGetActiveRamSlot p.rt = .ok slot → slot < hostSlotCount p

/-- A transaction's copy is in no slot that the host may name but the one it lent. That isn't the
one that is served. -/
structure Staging (p : Plugin) : Prop where
  apart : ∀ slot, hostSlotValid p slot → slot ≠ p.nvState.stagingSlot → ∀ i < NV_STORAGE_SIZE,
    p.nvState.stagingBase + i < slotStart p.rt slot ∨
      slotStart p.rt slot + pioGetRomRegionSize p.rt ≤ p.nvState.stagingBase + i
  valid : hostSlotValid p p.activeSlot
  other : p.activeSlot ≠ p.nvState.stagingSlot

lemma hostSlotCount_congr {p q : Plugin} (hdevice : q.rt.currentSlot = p.rt.currentSlot)
    (hram : q.rt.ramRomImageSize = p.rt.ramRomImageSize) : hostSlotCount q = hostSlotCount p := by
  unfold hostSlotCount oraGetRamSlotCount pioGetRomRegionSize
  rw [hdevice, hram]

lemma Act.hosted {k : Kind} {p q : Plugin} (h : Act k p q) (hp : Served p.rt.currentSlot)
    (hhosted : Hosted p) : Hosted q := by
  have hkept := h.kept
  have hcount : hostSlotCount q = hostSlotCount p :=
    hostSlotCount_congr hkept.device.1 hkept.device.2
  intro slot hslot
  cases h with
  | switch hvalid hswitch =>
    obtain ⟨info, hinfo, rfl⟩ := setActiveRamSlot_eq_some hswitch
    obtain rfl := Except.ok.inj (hslot.symm.trans (oraGetActiveRamSlot_set hp hinfo))
    exact hvalid
  | follow => exact hhosted slot hslot
  | _ =>
    rw [hkept.rt (by decide)] at hslot
    rw [hcount]
    exact hhosted slot hslot

omit [Firmware] in
/-- Slots lie one after the other. -/
lemma slotStart_le {rt : Runtime} {slot : UInt8} {n : ℕ} (h : slot.toNat < n) :
    slotStart rt slot + pioGetRomRegionSize rt ≤ SRAM_BASE + n * pioGetRomRegionSize rt := by
  have hmul := Nat.mul_le_mul_right (pioGetRomRegionSize rt) (Nat.succ_le_of_lt h)
  rw [Nat.succ_mul] at hmul
  unfold slotStart
  omega

lemma nvPrivateStaging_apart {p : Plugin} (hp : Served p.rt.currentSlot) {base : ℕ}
    (h : nvPrivateStaging p = some base) {slot : UInt8} (hslot : hostSlotValid p slot) :
    slotStart p.rt slot + pioGetRomRegionSize p.rt ≤ base := by
  unfold nvPrivateStaging at h
  dsimp only at h
  split at h
  · cases h
  split at h
  · cases h
  split at h
  · cases h
  split at h
  · cases h
  next hneeded =>
  split at h
  · cases h
  next info hinfo =>
    obtain ⟨hlt, rfl⟩ := oraGetRamSlotInfo_ok.mp hinfo
    cases h
    rw [Nat.mod_eq_of_lt ((slot_lt hp hlt.le).trans (by decide))]
    unfold hostSlotValid at hslot
    exact slotStart_le (by omega)

lemma stagingFor_apart {p : Plugin} (hp : Served p.rt.currentSlot) {slot slot' : UInt8}
    {base size : ℕ} (h : stagingFor p slot = some (base, size)) (hslot : hostSlotValid p slot')
    (hne : slot' ≠ slot) {i : ℕ} (hi : i < NV_STORAGE_SIZE) :
    base + i < slotStart p.rt slot' ∨
      slotStart p.rt slot' + pioGetRomRegionSize p.rt ≤ base + i := by
  unfold stagingFor at h
  split at h
  · next base' hprivate =>
    cases h
    exact Or.inr ((nvPrivateStaging_apart hp hprivate hslot).trans (Nat.le_add_right _ _))
  split at h
  · cases h
  next info hinfo =>
    obtain ⟨hlt, rfl⟩ := oraGetRamSlotInfo_ok.mp hinfo
    split at h
    · cases h
    next hsize =>
    cases h
    have hbase : (SRAM_BASE + slot.toNat * pioGetRomRegionSize p.rt) % 2 ^ 32 =
        slotStart p.rt slot := Nat.mod_eq_of_lt ((slot_lt hp hlt.le).trans (by decide))
    dsimp only at hsize ⊢
    rw [hbase]
    rcases Nat.lt_or_gt_of_ne fun heq => hne (UInt8.toNat_inj.mp heq) with hbefore | hafter
    · have hle : slotStart p.rt slot' + _ ≤ _ := slotStart_le hbefore
      right
      unfold slotStart at hle ⊢
      omega
    · have hle : slotStart p.rt slot + _ ≤ _ := slotStart_le hafter
      left
      unfold slotStart at hle ⊢
      omega

/-- A write into another slot leaves the copy alone. -/
lemma nvOf_slotOnly {p q : Plugin} {slot : UInt8} (hstaging : p.nvState.active = true → Staging p)
    (hnv : q.nv = p.nv) (hstate : q.nvState = p.nvState)
    (hslot : p.nvState.active = true → hostSlotValid p slot ∧ slot ≠ p.nvState.stagingSlot)
    (hmem : SlotOnly p q slot) : nvOf q = nvOf p := by
  refine nvOf_congr hnv hstate fun hactive i hi => hmem _ ?_
  obtain ⟨hvalid, hne⟩ := hslot hactive
  exact (hstaging hactive).apart slot hvalid hne i hi

lemma Staging.of_eq {p q : Plugin} (h : Staging p) (hstate : q.nvState = p.nvState)
    (hdevice : q.rt.currentSlot = p.rt.currentSlot)
    (hram : q.rt.ramRomImageSize = p.rt.ramRomImageSize) (hslot : q.activeSlot = p.activeSlot) :
    Staging q := by
  have hvalid : ∀ slot, hostSlotValid q slot ↔ hostSlotValid p slot := fun slot => by
    unfold hostSlotValid
    rw [hostSlotCount_congr hdevice hram]
  refine ⟨fun slot hslot hne i hi => ?_, ?_, ?_⟩
  · obtain ⟨hstart, hsize⟩ := slotStart_congr hdevice slot
    rw [hstate] at hne ⊢
    rw [hstart, hsize]
    exact h.apart slot ((hvalid slot).mp hslot) hne i hi
  · rw [hslot]
    exact (hvalid _).mpr h.valid
  · rw [hslot, hstate]
    exact h.other

/-- From `p` to `q` neither NV storage nor the transaction is touched. -/
structure NvKept (p q : Plugin) : Prop where
  nv : nvOf q = nvOf p
  state : q.nvState = p.nvState
  staging : p.nvState.active = true → Staging q

namespace NvKept

variable {p q r : Plugin}

lemma trans (h : NvKept p q) (h' : NvKept q r) : NvKept p r :=
  ⟨h'.nv.trans h.nv, h'.state.trans h.state, fun hactive =>
    h'.staging (by rw [h.state]; exact hactive)⟩

/-- Where the slot that is written isn't the one that was lent. -/
lemma of_slot {slot : UInt8} (hstaging : p.nvState.active = true → Staging p)
    (hframe : ∃ tokenLsb tokenMsb mem backWrites,
      q = { p with tokenLsb, tokenMsb, mem, backWrites })
    (hslot : p.nvState.active = true → hostSlotValid p slot ∧ slot ≠ p.nvState.stagingSlot)
    (hmem : SlotOnly p q slot) : NvKept p q := by
  obtain ⟨_, _, _, _, rfl⟩ := hframe
  exact ⟨nvOf_slotOnly hstaging rfl rfl hslot hmem, rfl, fun hopen =>
    (hstaging hopen).of_eq rfl rfl rfl rfl⟩

/-- What changes neither memory nor the slots. -/
lemma of_kept {k : Kind} (hstaging : p.nvState.active = true → Staging p) (h : Kept k p q)
    (hk : k ∈ [Kind.exit, .pipe, .gpio, .led]) : NvKept p q := by
  have hne : ∀ kinds : List Kind, (∀ k ∈ [Kind.exit, .pipe, .gpio, .led], k ∉ kinds) →
      k ∉ kinds := fun kinds hkinds => hkinds k hk
  have hstate := h.nvState (hne _ (by decide))
  refine ⟨nvOf_congr h.nv.1 hstate fun _ i _ => ?_, hstate, fun hactive => ?_⟩
  · rw [h.mem (hne _ (by decide))]
  · exact (hstaging hactive).of_eq hstate h.device.1 h.device.2 (h.slot (hne _ (by decide)))

end NvKept

lemma Act.nvKept {k : Kind} {p q : Plugin} (h : Act k p q)
    (hk : k ∈ [Kind.answer, .restore, .exit, .pipe, .gpio, .led]) (hp : Served p.rt.currentSlot)
    (hstaging : p.nvState.active = true → Staging p) : NvKept p q := by
  have hkept := h.kept
  have hactive : p.nvState.active = true →
      hostSlotValid p p.activeSlot ∧ p.activeSlot ≠ p.nvState.stagingSlot := fun hopen =>
    ⟨(hstaging hopen).valid, (hstaging hopen).other⟩
  cases h with
  | answer dataOffset bytes =>
    exact .of_slot hstaging ⟨_, _, _, _, dataWrite_frame _ _ _ _⟩ hactive
      (dataWrite_slotOnly hp _ _ _)
  | restore hlen hrestore =>
    exact .of_slot hstaging ⟨_, _, _, _, reprogram_eq_some hrestore⟩ hactive
      (reprogram_slotOnly hp hrestore)
  | exit => exact .of_kept hstaging hkept (by decide)
  | pipe => exact .of_kept hstaging hkept (by decide)
  | gpio => exact .of_kept hstaging hkept (by decide)
  | led => exact .of_kept hstaging hkept (by decide)
  | _ => exact absurd hk (by decide)

lemma Work.nvKept {kinds : List Kind} {p q : Plugin} (h : Work kinds p q)
    (hkinds : ∀ k ∈ kinds, k ∈ [Kind.answer, .restore, .exit, .pipe, .gpio, .led])
    (hp : Served p.rt.currentSlot) (hstaging : p.nvState.active = true → Staging p) :
    NvKept p q ∧ q.rt.currentSlot = p.rt.currentSlot := by
  induction h with
  | refl => exact ⟨⟨rfl, rfl, hstaging⟩, rfl⟩
  | tail _ hstep ih =>
    obtain ⟨hkept, hdevice⟩ := ih
    obtain ⟨k, hk, hact⟩ := hstep
    have hnext := hact.nvKept (hkinds k hk) (hdevice ▸ hp) fun hopen =>
      hkept.staging (hkept.state ▸ hopen)
    exact ⟨hkept.trans hnext, hact.kept.device.1.trans hdevice⟩

/-! ### Commands that name a slot -/

/-- The slot that a command names, where the session goes on. -/
def Frame.target (frame : Frame) : Option UInt8 :=
  match Cmd.ofCode frame.group frame.cmd, frame.args with
  | some .slotPoke, [_, _, _, _, target] => some target
  | some .slotPokeAllByte, [_, target] => some target
  | some .loadSlot, [ramSlot, _] => some ramSlot
  | some .switchSlot, [target] => some target
  | _, _ => none

/-- A handler that keeps NV storage and the transaction where it is let do something. -/
lemma namingSlot_nvKept {p : Plugin} {slot : UInt8} {step : Step}
    (hstaging : p.nvState.active = true → Staging p)
    (h : hostSlotValid p slot → NvKept p (step p).2) : NvKept p (namingSlot slot step p).2 := by
  unfold namingSlot
  split
  · exact ⟨rfl, rfl, hstaging⟩
  · by_cases hslot : hostSlotValid p slot
    · rw [if_neg (not_not.mpr hslot)]
      exact h hslot
    · rw [if_pos hslot]
      exact ⟨rfl, rfl, hstaging⟩

section

variable {p : Plugin} (hp : Served p.rt.currentSlot)
  (hstaging : p.nvState.active = true → Staging p)

include hp hstaging

lemma reprogram_nvKept {q : Plugin} {slot : UInt8} {offset : ℕ} {bytes : List UInt8}
    (hslot : hostSlotValid p slot) (hne : p.nvState.active = true → slot ≠ p.nvState.stagingSlot)
    (h : reprogram p slot offset bytes = some q) : NvKept p q := by
  exact .of_slot hstaging ⟨_, _, _, _, reprogram_eq_some h⟩ (fun hopen => ⟨hslot, hne hopen⟩)
    (reprogram_slotOnly hp h)

lemma slotPoke_nvKept (byte : UInt8) (addr : ℕ) {target : UInt8}
    (hne : p.nvState.active = true → target ≠ p.nvState.stagingSlot) :
    NvKept p (slotPoke byte addr target p).2 := by
  refine namingSlot_nvKept hstaging fun hslot => ?_
  unfold trying
  split
  · exact ⟨rfl, rfl, hstaging⟩
  · next q hq => exact reprogram_nvKept hp hstaging hslot hne hq

lemma loadSlot_nvKept {ramSlot : UInt8} (flashSlot : UInt8)
    (hne : p.nvState.active = true → ramSlot ≠ p.nvState.stagingSlot) :
    NvKept p (loadSlot ramSlot flashSlot p).2 := by
  unfold loadSlot
  split
  · exact ⟨rfl, rfl, hstaging⟩
  refine namingSlot_nvKept hstaging fun hslot => ?_
  unfold trying
  split
  · exact ⟨rfl, rfl, hstaging⟩
  · next q hq =>
    exact .of_slot hstaging ⟨_, _, _, _, copyFlashToRam_eq_some hq⟩
      (fun hopen => ⟨hslot, hne hopen⟩) (copyFlashToRam_slotOnly hp hq)

end

lemma pokeFrom_nvKept {target : UInt8} (byte : UInt8) (n i : ℕ) {p : Plugin}
    (hp : Served p.rt.currentSlot) (hstaging : p.nvState.active = true → Staging p)
    (hslot : hostSlotValid p target)
    (hne : p.nvState.active = true → target ≠ p.nvState.stagingSlot) :
    NvKept p (pokeFrom target byte n i p).2 := by
  induction n generalizing i p with
  | zero => exact ⟨rfl, rfl, hstaging⟩
  | succ n ih =>
    unfold pokeFrom
    split
    · exact ⟨rfl, rfl, hstaging⟩
    · next q hq =>
      have hone := reprogram_nvKept hp hstaging hslot hne hq
      have hframe := reprogram_eq_some hq
      refine hone.trans (ih (i + 1) (by rw [hframe]; exact hp) (fun hopen => ?_)
        (by rw [hframe]; exact hslot) fun hopen => ?_)
      · exact hone.staging (by rw [← hone.state]; exact hopen)
      · rw [hone.state] at hopen ⊢
        exact hne hopen

lemma slotPokeAllByte_nvKept {p : Plugin} (byte : UInt8) {target : UInt8}
    (hp : Served p.rt.currentSlot) (hstaging : p.nvState.active = true → Staging p)
    (hne : p.nvState.active = true → target ≠ p.nvState.stagingSlot) :
    NvKept p (slotPokeAllByte byte target p).2 := by
  refine namingSlot_nvKept hstaging fun hslot => ?_
  split
  · exact ⟨rfl, rfl, hstaging⟩
  dsimp only
  split
  · exact ⟨rfl, rfl, hstaging⟩
  · exact pokeFrom_nvKept byte _ 0 hp hstaging hslot hne

lemma switchSlot_nvKept {p : Plugin} {target : UInt8} (hp : Served p.rt.currentSlot)
    (hstaging : p.nvState.active = true → Staging p)
    (hne : p.nvState.active = true → target ≠ p.nvState.stagingSlot) :
    NvKept p (switchSlotAndFollow target p).2 := by
  have hswitch : ∀ r, switchSlot target p = r → r = (false, p) ∨
      ∃ info, hostSlotValid p target ∧ oraGetRamSlotInfo p.rt target.toNat = .ok info ∧
        r = (true, { p with rt := { p.rt with romTable := info.addr } }) := by
    rintro r rfl
    unfold switchSlot namingSlot trying
    split
    · exact Or.inl rfl
    by_cases hslot : hostSlotValid p target
    swap
    · rw [if_pos hslot]
      exact Or.inl rfl
    rw [if_neg (not_not.mpr hslot)]
    split
    · exact Or.inl rfl
    · next q hq =>
      obtain ⟨info, hinfo, rfl⟩ := setActiveRamSlot_eq_some hq
      exact Or.inr ⟨info, hslot, hinfo, rfl⟩
  unfold switchSlotAndFollow
  rcases hswitch _ rfl with hrefused | ⟨info, hslot, hinfo, hset⟩
  · rw [hrefused]
    exact ⟨rfl, rfl, hstaging⟩
  · rw [hset]
    dsimp only
    rw [if_pos rfl, oraGetActiveRamSlot_set hp hinfo]
    dsimp only
    rw [UInt8.ofNat_toNat]
    exact ⟨rfl, rfl, fun hopen => ⟨(hstaging hopen).apart, hslot, hne hopen⟩⟩

/-- In a session that goes on, the commands of the other groups keep NV storage and the
transaction. -/
lemma dispatched_nvKept {p : Plugin} {frame : Frame} (hp : Sound p)
    (hstaging : p.nvState.active = true → Staging p) (hactive : p.active = true)
    (h : frame.Whole)
    (hother : ∀ c, Cmd.ofCode frame.group frame.cmd = some c → c.writesNv = false)
    (htarget : p.nvState.active = true → frame.target ≠ some p.nvState.stagingSlot)
    (hstill : (dispatched p frame).2.active = true) : NvKept p (dispatched p frame).2 := by
  rcases dispatched_cases p h with hrefused | ⟨c, hcode, -, ⟨t, hrun, hstate⟩, hworked⟩
  · rw [hrefused]
    exact ⟨rfl, rfl, hstaging⟩
  have hlen : frame.args.length = c.args := by
    rw [h, argBytes, hcode]
    rfl
  have hwrites := hother c hcode
  unfold Frame.target at htarget
  rw [hcode] at htarget
  by_cases hkinds : ∀ k ∈ c.done ++ c.failed,
      k ∈ [Kind.answer, .restore, .exit, .pipe, .gpio, .led]
  · refine (Work.nvKept hworked (fun k hk => hkinds k (List.mem_append.mpr ?_)) hp.served
      hstaging).1
    split at hk
    · exact Or.inl hk
    · exact Or.inr hk
  rw [← hstate] at hstill ⊢
  cases c <;> first
    | exact absurd (by decide) hkinds
    | exact absurd hwrites (by decide)
    | skip
  case enterCmdResp =>
    have hkept := (Cmd.enterCmdResp_refused _ _ _ _ hrun hactive).2
    rw [hkept]
    exact ⟨rfl, rfl, hstaging⟩
  case switchAndExit =>
    match hargs : frame.args, hlen with
    | [target], _ =>
      rw [hargs] at hrun
      have hend : (andExit (Rbcp.switchSlot target) p).2 = t.state :=
        congrArg (fun r => r.2.state) hrun
      rw [← hend] at hstill
      cases hstill
  case loadAndExit =>
    match hargs : frame.args, hlen with
    | [ramSlot, flashSlot], _ =>
      rw [hargs] at hrun
      have hend : (andExit (Rbcp.loadSlot ramSlot flashSlot) p).2 = t.state :=
        congrArg (fun r => r.2.state) hrun
      rw [← hend] at hstill
      cases hstill
  case slotPoke =>
    match hargs : frame.args, hlen with
    | [byte, a0, a1, a2, target], _ =>
      rw [hargs] at hrun htarget
      have hend : (Rbcp.slotPoke byte (word24 a0 a1 a2) target p).2 = t.state :=
        congrArg (fun r => r.2.state) hrun
      rw [← hend]
      exact slotPoke_nvKept hp.served hstaging byte _ fun hopen heq =>
        htarget hopen (congrArg some heq)
  case switchSlot =>
    match hargs : frame.args, hlen with
    | [target], _ =>
      rw [hargs] at hrun htarget
      have hend : (switchSlotAndFollow target p).2 = t.state :=
        congrArg (fun r => r.2.state) hrun
      rw [← hend]
      exact switchSlot_nvKept hp.served hstaging fun hopen heq =>
        htarget hopen (congrArg some heq)
  case loadSlot =>
    match hargs : frame.args, hlen with
    | [ramSlot, flashSlot], _ =>
      rw [hargs] at hrun htarget
      have hend : (Rbcp.loadSlot ramSlot flashSlot p).2 = t.state :=
        congrArg (fun r => r.2.state) hrun
      rw [← hend]
      exact loadSlot_nvKept hp.served hstaging flashSlot fun hopen heq =>
        htarget hopen (congrArg some heq)
  case slotPokeAllByte =>
    match hargs : frame.args, hlen with
    | [byte, target], _ =>
      rw [hargs] at hrun htarget
      have hend : (Rbcp.slotPokeAllByte byte target p).2 = t.state :=
        congrArg (fun r => r.2.state) hrun
      rw [← hend]
      exact slotPokeAllByte_nvKept byte hp.served hstaging fun hopen heq =>
        htarget hopen (congrArg some heq)
  case setAuxSwitchExit =>
    match hargs : frame.args, hlen with
    | [state, after, hold, flags, pin, group, slot], _ =>
      rw [hargs] at hrun
      have hend : (Rbcp.setAuxSwitchExit state after hold flags pin group slot p).2 = t.state :=
        congrArg (fun r => r.2.state) hrun
      rw [← hend, setAuxSwitchExit_idle] at hstill
      cases hstill
  case rbcpReset =>
    have hinit : initRbcp p = t.state := congrArg (fun r => r.2.state) hrun
    rw [← hinit] at hstill
    cases hstill

/-! ### The header and the end of a command -/

lemma headed_nvKept {p : Plugin} (hp : Served p.rt.currentSlot)
    (hstaging : p.nvState.active = true → Staging p) (writes : List (ℕ × UInt8)) :
    NvKept p (headed p.activeSlot writes p) :=
  .of_slot hstaging ⟨_, _, _, _, rfl⟩
    (fun hopen => ⟨(hstaging hopen).valid, (hstaging hopen).other⟩) (headed_slotOnly hp _ _)

lemma nextToken_nvKept {p : Plugin} (hstaging : p.nvState.active = true → Staging p) :
    NvKept p (nextToken p) := by
  obtain ⟨_, _, hnext⟩ := nextToken_eq p
  rw [hnext]
  exact ⟨rfl, rfl, fun hopen => (hstaging hopen).of_eq rfl rfl rfl rfl⟩

lemma beginCommand_nvKept {p : Plugin} (hp : Sound p)
    (hstaging : p.nvState.active = true → Staging p) (group cmd : UInt8) :
    NvKept p (beginCommand group cmd p) := by
  by_cases hopen : p.active = true ∧ ¬cmdIsSilent group cmd = true
  · have hnext := nextToken_nvKept hstaging
    obtain ⟨_, _, heq⟩ := nextToken_eq p
    have hheaded := headed_nvKept (p := nextToken p) (by rw [heq]; exact hp.served)
      (fun h => hnext.staging (hnext.state ▸ h))
      (beginWrites p.cfg (nextToken p).tokenLsb (nextToken p).tokenMsb group cmd)
    have hslot : (nextToken p).activeSlot = p.activeSlot := by rw [heq]
    rw [hslot] at hheaded
    rw [beginCommand_headed hp hopen.1 (Bool.eq_false_of_not_eq_true hopen.2)]
    exact hnext.trans hheaded
  · rw [beginCommand, if_neg hopen]
    exact ⟨rfl, rfl, hstaging⟩

/-- What the end of a command leaves of NV storage: the transaction of a session that is over is
thrown away. -/
structure NvEnded (was : Bool) (u q : Plugin) : Prop where
  rt : q.rt = u.rt
  active : q.active = u.active
  still : u.active = true → NvKept u q
  ended : was = true → u.active = false → nvOf q = ⟨cut u.nv, none⟩ ∧ q.nvState.active = false
  idle : was = false → u.active = false → q = u

lemma settled_nvEnded {u v : Plugin} (hkept : u.active = true → NvKept u v) (hrt : v.rt = u.rt)
    (hactive : v.active = u.active) (hnv : v.nv = u.nv) : NvEnded true u (settled v) := by
  unfold settled
  split
  · next hstill =>
    refine ⟨hrt, hactive, hkept, fun _ hover => ?_, fun h => Bool.noConfusion h⟩
    exact absurd ((hactive.trans hover).symm.trans hstill) Bool.false_ne_true
  · next hover =>
    refine ⟨hrt, hactive, fun hstill => absurd (hactive.trans hstill) hover, fun _ _ => ⟨?_, rfl⟩,
      fun h => Bool.noConfusion h⟩
    rw [← hnv]
    rfl

lemma endCommand_nvEnded {u : Bool × Plugin} (hu : Sound u.2)
    (hstaging : u.2.active = true → u.2.nvState.active = true → Staging u.2)
    (group cmd : UInt8) (was : Bool) : NvEnded was u.2 (endCommand group cmd was u) := by
  cases was with
  | true =>
    rcases Bool.eq_false_or_eq_true (cmdIsSilent group cmd) with hsilent | hsilent
    · rw [endCommand_silent hsilent]
      exact settled_nvEnded (fun hactive => ⟨rfl, rfl, hstaging hactive⟩) rfl rfl rfl
    · rw [endCommand_answered hsilent hu]
      exact settled_nvEnded (fun hactive => headed_nvKept hu.served (hstaging hactive) _) rfl rfl rfl
  | false =>
    cases hactive : u.2.active with
    | false =>
      rw [endCommand_idle hactive]
      exact ⟨rfl, rfl, fun h => absurd (hactive.symm.trans h) Bool.false_ne_true,
        fun h => Bool.noConfusion h, fun _ _ => rfl⟩
    | true =>
      have hnext := nextToken_nvKept (hstaging hactive)
      obtain ⟨_, _, heq⟩ := nextToken_eq u.2
      have hslot : (nextToken u.2).activeSlot = u.2.activeSlot := by rw [heq]
      have hheaded := headed_nvKept (p := nextToken u.2) (by rw [heq]; exact hu.served)
        (fun h => hnext.staging (hnext.state ▸ h))
        (beginWrites u.2.cfg (nextToken u.2).tokenLsb (nextToken u.2).tokenMsb group cmd ++
          endWrites u.2.cfg u.1 true)
      rw [hslot] at hheaded
      rw [endCommand_entered hactive hu]
      refine ⟨by rw [heq]; rfl, by rw [heq]; rfl, fun _ => hnext.trans hheaded,
        fun h => Bool.noConfusion h, fun _ h => ?_⟩
      exact absurd (h.symm.trans hactive) Bool.false_ne_true

/-! ### Commands of the other groups -/

/-- What holds between commands, with what a transaction needs. -/
structure NvReady (p : Plugin) : Prop where
  ready : Ready p
  hosted : Hosted p
  staging : p.nvState.active = true → Staging p

lemma nvOf_idle {p : Plugin} (h : p.nvState.active = false) : nvOf p = ⟨cut p.nv, none⟩ := by
  unfold nvOf
  rw [if_neg (by rw [h]; decide)]

/-- What a command has found when its header is written. -/
structure NvBegun (p b : Plugin) : Prop where
  sound : Sound b
  follows : Follows b
  hosted : Hosted b
  active : b.active = p.active
  deferred : b.nvDeferred = .none
  kept : NvKept p b
  nv : b.nv = p.nv

lemma beginCommand_begun {p : Plugin} (hp : NvReady p) (group cmd : UInt8) :
    NvBegun p (beginCommand group cmd p) := by
  have hkept := beginCommand_nvKept hp.ready.sound hp.staging group cmd
  obtain ⟨_, _, _, _, hbegin⟩ := beginCommand_eq hp.ready.sound group cmd
  generalize beginCommand group cmd p = b at hkept hbegin
  subst hbegin
  have hsound := hp.ready.sound
  exact ⟨⟨hsound.served, hsound.slot, hsound.region⟩, hp.ready.follows, hp.hosted, rfl,
    hp.ready.deferred, hkept, rfl⟩

lemma dispatched_hosted {p : Plugin} {frame : Frame} (hp : Sound p) (hhosted : Hosted p)
    (h : frame.Whole) : Hosted (dispatched p frame).2 := by
  rcases dispatched_cases p h with hrefused | ⟨c, -, -, -, hworked⟩
  · rw [hrefused]
    exact hhosted
  · have hboth := Work.invariant (I := fun q => Sound q ∧ Hosted q)
      (fun _ _ _ _ hact hq => ⟨hact.sound hq.1, hact.hosted hq.1.served hq.2⟩) hworked
      ⟨hp, hhosted⟩
    exact hboth.2

lemma dispatched_nv {p : Plugin} {frame : Frame} (h : frame.Whole) :
    (dispatched p frame).2.nv = p.nv := by
  rcases dispatched_cases p h with hrefused | ⟨c, -, -, -, hworked⟩
  · rw [hrefused]
  · exact Work.same Plugin.nv (fun _ _ _ _ hact => hact.kept.nv.1) hworked

lemma dispatched_deferred {p : Plugin} {frame : Frame} (h : frame.Whole)
    (hother : ∀ c, Cmd.ofCode frame.group frame.cmd = some c → c.writesNv = false)
    (hdeferred : p.nvDeferred = .none) : (dispatched p frame).2.nvDeferred = .none := by
  rcases dispatched_cases p h with hrefused | ⟨c, hcode, -, -, hworked⟩
  · rw [hrefused]
    exact hdeferred
  · have hwrites := hother c hcode
    have hcommit : Kind.commit ∉ c.done ∧ Kind.commit ∉ c.failed := by
      cases c <;> first
        | exact absurd hwrites (by decide)
        | decide
    refine Work.invariant (I := fun q => q.nvDeferred = .none) (fun k hk q r hact hq => ?_) hworked
      hdeferred
    have hkept := hact.kept
    cases hact with
    | commit | commitNoslot => exact absurd hk (Cmd.notMem_kinds hcommit _)
    | discard | reset => rfl
    | _ =>
      rw [hkept.deferred (by decide)]
      exact hq

lemma NvReady.of_ended {u q : Plugin} {was : Bool} (hready : Ready q) (hhosted : Hosted u)
    (hended : NvEnded was u q)
    (hstaging : q.active = true → q.nvState.active = true → Staging q) : NvReady q := by
  refine ⟨hready, ?_, fun hopen => hstaging (hready.staged hopen) hopen⟩
  unfold Hosted hostSlotCount at hhosted ⊢
  rw [hended.rt]
  exact hhosted

/-- Where the session goes on, NV storage and the transaction are as the command's work left
them. -/
lemma perform_nv_end {p : Plugin} {frame : Frame} (hp : NvReady p) (h : frame.Whole)
    (hsound : Sound (worked p frame).2) (hhosted : Hosted (worked p frame).2)
    (hstaging : (worked p frame).2.nvState.active = true → Staging (worked p frame).2)
    (hstill : (worked p frame).2.active = true) :
    nvOf (perform p frame) = nvOf (worked p frame).2 ∧ NvReady (perform p frame) := by
  have hready := perform_ready hp.ready h
  have hended := endCommand_nvEnded hsound (fun _ => hstaging) frame.group frame.cmd p.active
  rw [← perform_eq h] at hended
  have hkept := hended.still hstill
  exact ⟨hkept.nv, .of_ended hready hhosted hended fun _ hopen =>
    hkept.staging (hkept.state ▸ hopen)⟩

lemma perform_nv_other {p : Plugin} {frame : Frame} (hp : NvReady p) (h : frame.Whole)
    (hother : ∀ c, Cmd.ofCode frame.group frame.cmd = some c → c.writesNv = false)
    (htarget : p.nvState.active = true → frame.target ≠ some p.nvState.stagingSlot) :
    NvStep frame (succeeds p frame) (nvOf p) (nvOf (perform p frame)) ∧
      NvReady (perform p frame) := by
  have hready := perform_ready hp.ready h
  have hbegun := beginCommand_begun hp frame.group frame.cmd
  have hworked : worked p frame = dispatched (beginCommand frame.group frame.cmd p) frame :=
    finishDeferred_none (dispatched_deferred h hother hbegun.deferred)
  have hsound := (dispatched_between hbegun.sound hbegun.follows h).1
  have hhosted := dispatched_hosted hbegun.sound hbegun.hosted h
  have hnv := (dispatched_nv (p := beginCommand frame.group frame.cmd p) h).trans hbegun.nv
  rw [← hworked] at hsound hhosted hnv
  cases hactive : p.active with
  | true =>
    cases hstill : (worked p frame).2.active with
    | true =>
      have hstaging : (beginCommand frame.group frame.cmd p).nvState.active = true →
          Staging (beginCommand frame.group frame.cmd p) := fun hopen =>
        hbegun.kept.staging (hbegun.kept.state ▸ hopen)
      have hkept := dispatched_nvKept hbegun.sound hstaging (hbegun.active.trans hactive) h hother
        (fun hopen => by
          rw [hbegun.kept.state] at hopen ⊢
          exact htarget hopen) (hworked ▸ hstill)
      rw [← hworked] at hkept
      have hall := hbegun.kept.trans hkept
      obtain ⟨heq, hnext⟩ := perform_nv_end hp h hsound hhosted
        (fun hopen => hall.staging (hall.state ▸ hopen)) hstill
      rw [heq, hall.nv]
      exact ⟨.other hother, hnext⟩
    | false =>
      -- where the session is over the copy doesn't matter
      have hended := endCommand_nvEnded hsound
        (fun h => absurd (hstill.symm.trans h) Bool.false_ne_true) frame.group frame.cmd p.active
      rw [← perform_eq h] at hended
      obtain ⟨hnvOf, hclosed⟩ := hended.ended hactive hstill
      have hleft : nvOf (perform p frame) = { nvOf p with staged := none } := by
        rw [hnvOf, hnv]
        rfl
      rw [hleft]
      exact ⟨.ended hother, .of_ended hready hhosted hended fun _ hopen =>
        absurd (hclosed.symm.trans hopen) Bool.false_ne_true⟩
  | false =>
    -- no transaction is open, and none is opened
    have hclosed : p.nvState.active = false := by
      by_contra hopen
      have hactive' := hp.ready.staged (Bool.not_eq_false _ |>.mp hopen)
      exact absurd (hactive.symm.trans hactive') Bool.false_ne_true
    have hclosed' : (worked p frame).2.nvState.active = false := by
      rw [hworked]
      refine dispatched_staged (hbegun.active.trans hactive) h ?_
      rw [hbegun.kept.state]
      exact hclosed
    have hnone : (worked p frame).2.nvState.active = true → Staging (worked p frame).2 :=
      fun hopen => absurd (hclosed'.symm.trans hopen) Bool.false_ne_true
    have hended := endCommand_nvEnded hsound (fun _ => hnone) frame.group frame.cmd p.active
    rw [← perform_eq h] at hended
    have hkept : NvKept (worked p frame).2 (perform p frame) := by
      cases hstill : (worked p frame).2.active with
      | true => exact hended.still hstill
      | false =>
        rw [hended.idle hactive hstill]
        exact ⟨rfl, rfl, hnone⟩
    have hsame : nvOf (perform p frame) = nvOf p := by
      rw [hkept.nv, nvOf_idle hclosed', hnv, nvOf_idle hclosed]
    rw [hsame]
    refine ⟨.other hother, .of_ended hready hhosted hended fun _ hopen => ?_⟩
    rw [hkept.state, hclosed'] at hopen
    cases hopen

/-! ### Commands of NV storage -/

lemma nvPokeBeginImpl_eq (slot : UInt8) (p : Plugin) : nvPokeBeginImpl slot p = (false, p) ∨
    ∃ base size, p.nvState.active = false ∧ hostSlotValid p slot ∧ slot ≠ p.activeSlot ∧
      stagingFor p slot = some (base, size) ∧
      nvPokeBeginImpl slot p = (true, { p with
        mem := fill p.mem base NV_STORAGE_SIZE p.nv
        nvState := ⟨true, slot, base, size⟩ }) := by
  unfold nvPokeBeginImpl
  by_cases hidle : p.nvState.active = true
  · rw [if_pos hidle]
    exact Or.inl rfl
  rw [if_neg hidle]
  by_cases hslot : hostSlotValid p slot
  swap
  · rw [if_pos hslot]
    exact Or.inl rfl
  rw [if_neg (not_not.mpr hslot)]
  split
  · exact Or.inl rfl
  next hactive =>
  split
  · exact Or.inl rfl
  next base size hstaging =>
    exact Or.inr ⟨base, size, Bool.not_eq_true _ |>.mp hidle, hslot, hactive, hstaging, rfl⟩

lemma nvPokeImpl_eq (byte locLsb locMsb : UInt8) (p : Plugin) :
    (¬(p.nvState.active = true ∧ word16 locLsb locMsb < NV_STORAGE_SIZE) ∧
      nvPokeImpl byte locLsb locMsb p = (false, p)) ∨
      p.nvState.active = true ∧ word16 locLsb locMsb < NV_STORAGE_SIZE ∧
        nvPokeImpl byte locLsb locMsb p = (true, { p with
          mem := Function.update p.mem (p.nvState.stagingBase + word16 locLsb locMsb) byte }) := by
  unfold nvPokeImpl
  by_cases hactive : p.nvState.active = true
  swap
  · rw [if_pos hactive]
    exact Or.inl ⟨fun h => hactive h.1, rfl⟩
  rw [if_neg (not_not.mpr hactive)]
  split
  · next hhigh =>
    have hsize : NV_STORAGE_SIZE = 4096 := rfl
    exact Or.inl ⟨fun h => by have := h.2; unfold word16 at this; omega, rfl⟩
  dsimp only
  split
  · next hloc => exact Or.inl ⟨fun h => absurd h.2 (not_lt.mpr hloc), rfl⟩
  next hloc => exact Or.inr ⟨hactive, not_le.mp hloc, rfl⟩

/-- The copy that is staged is that of NV storage. -/
lemma nvOf_staged (p : Plugin) {slot : UInt8} (base size : ℕ) :
    nvOf { p with
      mem := fill p.mem base NV_STORAGE_SIZE p.nv
      nvState := ⟨true, slot, base, size⟩ } = ⟨cut p.nv, some (cut p.nv)⟩ := by
  have hcopy : cut (fun i => fill p.mem base NV_STORAGE_SIZE p.nv (base + i)) = cut p.nv := by
    refine cut_congr fun i hi => ?_
    unfold fill
    rw [if_pos ⟨Nat.le_add_right _ _, Nat.add_lt_add_left hi _⟩, Nat.add_sub_cancel_left]
  unfold nvOf
  rw [if_pos rfl]
  show (⟨cut p.nv, some (cut fun i => fill p.mem base NV_STORAGE_SIZE p.nv (base + i))⟩ : Nv) = _
  rw [hcopy]

/-- A byte of the copy is poked. -/
lemma nvOf_poked {p : Plugin} (hactive : p.nvState.active = true) {location : ℕ}
    (hloc : location < NV_STORAGE_SIZE) (byte : UInt8) :
    nvOf { p with mem := Function.update p.mem (p.nvState.stagingBase + location) byte } =
      ⟨cut p.nv, some (Function.update (cut fun i => p.mem (p.nvState.stagingBase + i))
        location byte)⟩ := by
  have hcopy : (fun i => Function.update p.mem (p.nvState.stagingBase + location) byte
      (p.nvState.stagingBase + i)) =
      Function.update (fun i => p.mem (p.nvState.stagingBase + i)) location byte := by
    ext1 i
    by_cases hi : i = location
    · subst hi
      rw [Function.update_self, Function.update_self]
    · rw [Function.update_of_ne hi, Function.update_of_ne (by omega)]
  unfold nvOf
  rw [if_pos hactive, ← cut_update hloc, ← hcopy]

lemma nvOf_open {p : Plugin} (hactive : p.nvState.active = true) :
    nvOf p = ⟨cut p.nv, some (cut fun i => p.mem (p.nvState.stagingBase + i))⟩ := by
  unfold nvOf
  rw [if_pos hactive]

lemma nvOf_isSome {p : Plugin} (h : (nvOf p).staged.isSome = true) : p.nvState.active = true := by
  by_contra hclosed
  rw [nvOf_idle (Bool.not_eq_true _ |>.mp hclosed)] at h
  cases h

/-- The copy is written back whole, or the transaction stays as it was. -/
lemma finishDeferred_slot {p : Plugin} (hdeferred : p.nvDeferred = .slot) :
    (∃ nv nvWrites, cut nv = cut (fun i => p.mem (p.nvState.stagingBase + i)) ∧
      finishDeferred true p =
        (true, nvDiscardImpl { p with nvDeferred := .none, nv, nvWrites })) ∨
      ∃ nvWrites, finishDeferred true p = (false, { p with nvDeferred := .none, nvWrites }) := by
  unfold finishDeferred
  rw [hdeferred]
  unfold nvDeferredRun nvFlashWrite
  rw [hdeferred]
  dsimp only
  split
  · refine Or.inl ⟨_, _, ?_, rfl⟩
    refine cut_congr fun i hi => ?_
    rw [if_pos hi, if_pos ⟨Nat.zero_le _, by omega⟩]
    rfl
  · exact Or.inr ⟨_, rfl⟩

/-- The window is written back with its byte, or NV storage stays as it was. -/
lemma finishDeferred_noslot {p : Plugin} {byte : UInt8} {offset : ℕ}
    (hdeferred : p.nvDeferred = .noslot byte offset) :
    (∃ nv nvWrites, (∀ i, NV_NOSLOT_BASE ≤ i → i < NV_STORAGE_SIZE →
        nv i = Function.update p.nv (NV_NOSLOT_BASE + offset) byte i) ∧
      (∀ i < NV_NOSLOT_PAGE, nv i = 0xFF) ∧
      finishDeferred true p = (true, { p with nvDeferred := .none, nv, nvWrites })) ∨
      ∃ nvWrites, finishDeferred true p = (false, { p with nvDeferred := .none, nvWrites }) := by
  unfold finishDeferred
  rw [hdeferred]
  unfold nvDeferredRun nvFlashWrite
  rw [hdeferred]
  dsimp only
  split
  · have hbase : NV_NOSLOT_BASE = 4064 := rfl
    have hsize : NV_STORAGE_SIZE = 4096 := rfl
    have hpage : NV_NOSLOT_PAGE = 3840 := rfl
    have hpageSize : NV_FLASH_PAGE = 256 := rfl
    have hwindow : NV_FLASH_PAGE - NV_NOSLOT_SIZE = 224 := rfl
    refine Or.inl ⟨_, _, fun i hstart hend => ?_, fun i hi => ?_, rfl⟩
    swap
    · rw [if_pos (by omega), if_neg (by omega)]
    rw [if_pos hend, if_pos ⟨by omega, by omega⟩, noslotPage, hwindow, if_neg (by omega)]
    by_cases hi : i = NV_NOSLOT_BASE + offset
    · rw [if_pos (by omega), hi, Function.update_self]
    · rw [if_neg (by omega), Function.update_of_ne hi]
      show p.nv (NV_NOSLOT_PAGE + (i - NV_NOSLOT_PAGE)) = p.nv i
      rw [Nat.add_sub_cancel' (by omega)]
  · exact Or.inr ⟨_, rfl⟩

/-- What a command of NV storage has come to: the session goes on, and its transaction is open where
it may be. -/
structure NvWorked (frame : Frame) (b : Plugin) (u : Bool × Plugin) : Prop where
  step : NvStep frame u.1 (nvOf b) (nvOf u.2)
  staging : u.2.nvState.active = true → Staging u.2

omit [Firmware] in
lemma Nv.not_takes {frame : Frame} {c : Cmd} (hcode : Cmd.ofCode frame.group frame.cmd = some c)
    (hc : c ≠ .nvPoke ∧ c ≠ .nvPokeDiscard) (n : Nv) : ¬n.Takes frame := by
  rintro ⟨-, h⟩
  rw [hcode] at h
  split at h
  · next heq _ => exact hc.1 (Option.some.inj heq)
  · next heq => exact hc.2 (Option.some.inj heq)
  · exact h

lemma NvWorked.same {frame : Frame} {b : Plugin} (h : ¬(nvOf b).Takes frame)
    (hstaging : b.nvState.active = true → Staging b) : NvWorked frame b (false, b) :=
  ⟨.refused h, hstaging⟩

/-- A transaction is opened in a slot apart from the one that is served. -/
lemma staged_staging {b : Plugin} {slot : UInt8} {base size : ℕ} (hb : Sound b)
    (hfollows : Follows b) (hhosted : Hosted b) (hactive : b.active = true)
    (hslot : slot ≠ b.activeSlot) (h : stagingFor b slot = some (base, size)) :
    Staging { b with
      mem := fill b.mem base NV_STORAGE_SIZE b.nv
      nvState := ⟨true, slot, base, size⟩ } where
  apart _ hvalid hne _ hi := stagingFor_apart hb.served h hvalid hne hi
  valid := hhosted _ (hfollows hactive)
  other := hslot.symm

lemma nvPokeBegin_nvWorked {frame : Frame} {b : Plugin} (hb : Sound b) (hfollows : Follows b)
    (hhosted : Hosted b) (hactive : b.active = true) (hdeferred : b.nvDeferred = .none)
    (hstaging : b.nvState.active = true → Staging b)
    (hcode : Cmd.ofCode frame.group frame.cmd = some .nvPokeBegin) (slot : UInt8) :
    NvWorked frame b (finishDeferred (nvPokeBegin slot b).1 (nvPokeBegin slot b).2) := by
  have hrefused : NvWorked frame b (finishDeferred false b) := by
    rw [@finishDeferred_none _ (false, b) hdeferred]
    exact .same (Nv.not_takes hcode (by decide) _) hstaging
  unfold nvPokeBegin
  split
  · exact hrefused
  split
  · exact hrefused
  rcases nvPokeBeginImpl_eq slot b with hno | ⟨base, size, hidle, hvalid, hne, hstage, hyes⟩
  · rw [hno]
    exact hrefused
  · rw [hyes, finishDeferred_none (by exact hdeferred)]
    refine ⟨?_, fun _ => staged_staging hb hfollows hhosted hactive hne hstage⟩
    show NvStep frame true (nvOf b) (nvOf _)
    rw [nvOf_staged, nvOf_idle hidle]
    exact .begun hcode

section

variable {frame : Frame} {b : Plugin} (hdeferred : b.nvDeferred = .none)
  (hstaging : b.nvState.active = true → Staging b)

include hdeferred hstaging

lemma nvPoke_nvWorked {byte locLsb locMsb : UInt8}
    (hcode : Cmd.ofCode frame.group frame.cmd = some .nvPoke)
    (hargs : frame.args = [byte, locLsb, locMsb]) :
    NvWorked frame b (finishDeferred (nvPokeImpl byte locLsb locMsb b).1
      (nvPokeImpl byte locLsb locMsb b).2) := by
  rcases nvPokeImpl_eq byte locLsb locMsb b with ⟨hbad, hno⟩ | ⟨hopen, hloc, hyes⟩
  · rw [hno, @finishDeferred_none _ (false, b) hdeferred]
    refine .same (fun htakes => hbad ?_) hstaging
    obtain ⟨hsome, hloc⟩ := htakes
    rw [hcode, hargs] at hloc
    exact ⟨nvOf_isSome hsome, hloc⟩
  · rw [hyes, finishDeferred_none (by exact hdeferred)]
    refine ⟨?_, fun _ => (hstaging hopen).of_eq rfl rfl rfl rfl⟩
    show NvStep frame true (nvOf b) (nvOf _)
    rw [nvOf_poked hopen hloc, nvOf_open hopen]
    exact .poked hcode hargs hloc

lemma nvPokeDiscard_nvWorked (hcode : Cmd.ofCode frame.group frame.cmd = some .nvPokeDiscard) :
    NvWorked frame b (finishDeferred (nvPokeDiscard b).1 (nvPokeDiscard b).2) := by
  unfold nvPokeDiscard
  by_cases hopen : b.nvState.active = true
  · rw [if_neg (not_not.mpr hopen), @finishDeferred_none _ (true, nvDiscardImpl b) rfl]
    refine ⟨?_, fun h => Bool.noConfusion h⟩
    show NvStep frame true (nvOf b) (nvOf (nvDiscardImpl b))
    rw [nvOf_open hopen, nvOf_idle rfl]
    exact .discarded hcode
  · rw [if_pos hopen, @finishDeferred_none _ (false, b) hdeferred]
    exact .same (fun htakes => hopen (nvOf_isSome htakes.1)) hstaging

omit hdeferred in
lemma nvPokeCommit_nvWorked (hopen : b.nvState.active = true)
    (hcode : Cmd.ofCode frame.group frame.cmd = some .nvPokeCommit) :
    NvWorked frame b (finishDeferred true { b with nvDeferred := .slot }) := by
  rcases @finishDeferred_slot _ { b with nvDeferred := .slot } rfl with
    ⟨nv, nvWrites, hnv, hdone⟩ | ⟨nvWrites, hfailed⟩
  · rw [hdone]
    refine ⟨?_, fun h => Bool.noConfusion h⟩
    show NvStep frame true (nvOf b) (nvOf (nvDiscardImpl _))
    rw [nvOf_open hopen, nvOf_idle rfl]
    show NvStep frame true _ ⟨cut nv, none⟩
    rw [hnv]
    exact .committed hcode
  · rw [hfailed]
    exact ⟨.refused (Nv.not_takes hcode (by decide) _), fun hopen =>
      (hstaging hopen).of_eq rfl rfl rfl rfl⟩

end

/-- A byte that is committed by itself is staged, poked and written back. -/
lemma nvPokeCommitByte_slot_nvWorked {frame : Frame} {b : Plugin} (hb : Sound b)
    (hfollows : Follows b) (hhosted : Hosted b) (hactive : b.active = true)
    (hdeferred : b.nvDeferred = .none) (hstaging : b.nvState.active = true → Staging b)
    {byte locLsb locMsb slot : UInt8} (hslot : slot ≠ 0xFE)
    (hcode : Cmd.ofCode frame.group frame.cmd = some .nvPokeCommitByte)
    (hargs : frame.args = [byte, locLsb, locMsb, slot]) {r : Bool × Plugin}
    (hr : r = match nvPokeBeginImpl slot b with
      | (false, p) => (false, p)
      | (true, p) =>
        match nvPokeImpl byte locLsb locMsb p with
        | (false, p) => (false, nvDiscardImpl p)
        | (true, p) => nvPokeCommit p) :
    NvWorked frame b (finishDeferred r.1 r.2) := by
  have hrefused := Nv.not_takes hcode (by decide)
  rcases nvPokeBeginImpl_eq slot b with hno | ⟨base, size, hidle, hvalid, hne, hstage, hyes⟩
  · rw [hno] at hr
    rw [hr, @finishDeferred_none _ (false, b) hdeferred]
    exact .same (hrefused _) hstaging
  rw [hyes] at hr
  dsimp only at hr
  have hstaged := @nvOf_staged _ b slot base size
  have hstaging' := staged_staging hb hfollows hhosted hactive hne hstage
  set t : Plugin := { b with
    mem := fill b.mem base NV_STORAGE_SIZE b.nv
    nvState := ⟨true, slot, base, size⟩ } with ht
  have hopen : t.nvState.active = true := rfl
  have hb' : nvOf b = ⟨cut b.nv, none⟩ := nvOf_idle hidle
  rcases nvPokeImpl_eq byte locLsb locMsb t with ⟨-, hno⟩ | ⟨-, hloc, hyes⟩
  · rw [hno] at hr
    rw [hr, @finishDeferred_none _ (false, nvDiscardImpl t) rfl]
    refine ⟨?_, fun h => Bool.noConfusion h⟩
    show NvStep frame false (nvOf b) (nvOf (nvDiscardImpl t))
    rw [hb', nvOf_idle rfl]
    exact .refused (hrefused _)
  · have hpoked := nvOf_poked hopen hloc byte
    have hcopy : (cut fun i => t.mem (t.nvState.stagingBase + i)) = cut b.nv :=
      Option.some.inj (Nv.mk.inj ((nvOf_open hopen).symm.trans hstaged)).2
    rw [hcopy] at hpoked
    rw [hyes] at hr
    dsimp only at hr
    set u : Plugin := { t with
      mem := Function.update t.mem (t.nvState.stagingBase + word16 locLsb locMsb) byte } with hu
    have hopen' : u.nvState.active = true := rfl
    have hcopy' : (cut fun i => u.mem (u.nvState.stagingBase + i)) =
        Function.update (cut b.nv) (word16 locLsb locMsb) byte :=
      Option.some.inj (Nv.mk.inj ((nvOf_open hopen').symm.trans hpoked)).2
    rw [nvPokeCommit, if_neg (not_not.mpr hopen')] at hr
    rw [hr]
    rcases @finishDeferred_slot _ { u with nvDeferred := .slot } rfl with
      ⟨nv, nvWrites, hnv, hdone⟩ | ⟨nvWrites, hfailed⟩
    · rw [hdone]
      refine ⟨?_, fun h => Bool.noConfusion h⟩
      show NvStep frame true (nvOf b) (nvOf (nvDiscardImpl _))
      rw [hb', nvOf_idle rfl]
      show NvStep frame true _ ⟨cut nv, none⟩
      rw [hnv]
      show NvStep frame true _ ⟨cut fun i => u.mem (u.nvState.stagingBase + i), none⟩
      rw [hcopy']
      exact .byteWritten hcode hargs hslot hloc
    · rw [hfailed]
      refine ⟨?_, fun _ => hstaging'.of_eq rfl rfl rfl rfl⟩
      show NvStep frame false (nvOf b) (nvOf u)
      rw [hb', hpoked]
      exact .byteLeft hcode hargs hslot hloc

lemma nvPokeCommitByte_nvWorked {frame : Frame} {b : Plugin} (hb : Sound b)
    (hfollows : Follows b) (hhosted : Hosted b) (hactive : b.active = true)
    (hdeferred : b.nvDeferred = .none) (hstaging : b.nvState.active = true → Staging b)
    {byte locLsb locMsb slot : UInt8}
    (hcode : Cmd.ofCode frame.group frame.cmd = some .nvPokeCommitByte)
    (hargs : frame.args = [byte, locLsb, locMsb, slot]) :
    NvWorked frame b (finishDeferred (nvPokeCommitByte byte locLsb locMsb slot b).1
      (nvPokeCommitByte byte locLsb locMsb slot b).2) := by
  have hno := Nv.not_takes hcode (by decide)
  have hrefused : NvWorked frame b (finishDeferred false b) := by
    rw [@finishDeferred_none _ (false, b) hdeferred]
    exact .same (hno _) hstaging
  unfold nvPokeCommitByte
  dsimp only
  split
  · exact hrefused
  split
  · exact hrefused
  next hchecked =>
  split
  · next hthere =>
    rw [@finishDeferred_none _ (true, b) hdeferred]
    refine ⟨.byteThere hcode hargs ?_, hstaging⟩
    show cut b.nv _ = byte
    rw [cut, if_pos hthere.2.1, hthere.2.2]
  split
  · next hslot =>
    have hwindow : noslotRefused b locLsb locMsb = false :=
      Bool.not_eq_true _ |>.mp fun h => hchecked ⟨hslot, h⟩
    simp only [noslotRefused, Bool.or_eq_false_iff, decide_eq_false_iff_not, not_lt, not_le]
      at hwindow
    obtain ⟨⟨⟨-, hstart⟩, hend⟩, hidle⟩ := hwindow
    set t : Plugin := { b with nvDeferred := .noslot byte (word16 locLsb locMsb - NV_NOSLOT_BASE) }
    rcases finishDeferred_noslot (p := t) rfl with
      ⟨nv, nvWrites, hnv, herased, hdone⟩ | ⟨nvWrites, hfailed⟩
    · rw [hdone]
      refine ⟨?_, fun hopen => absurd (hidle.symm.trans hopen) Bool.false_ne_true⟩
      show NvStep frame true (nvOf b) (nvOf { t with nvDeferred := .none, nv, nvWrites })
      rw [nvOf_idle hidle, nvOf_idle (p := { t with nvDeferred := .none, nv, nvWrites }) hidle]
      refine .windowWritten hcode hargs hslot ⟨hstart, hend⟩ (fun i hi hi' => ?_) fun i hi => ?_
      · show cut nv i = _
        rw [cut, if_pos hi', hnv i hi hi', Nat.add_sub_cancel' hstart, ← cut_update hend, cut,
          if_pos hi']
      · show cut nv i = _
        rw [cut, if_pos (hi.trans (by decide)), herased i hi]
    · rw [hfailed]
      exact ⟨.refused (hno _), fun hopen => (hstaging hopen).of_eq rfl rfl rfl rfl⟩
  · next hslot =>
    exact nvPokeCommitByte_slot_nvWorked hb hfollows hhosted hactive hdeferred hstaging hslot hcode
      hargs rfl

/-- A command of NV storage, and the write to flash that it leaves. -/
lemma dispatched_nvWorked {b : Plugin} {frame : Frame} (hb : Sound b) (hfollows : Follows b)
    (hhosted : Hosted b) (hactive : b.active = true) (hdeferred : b.nvDeferred = .none)
    (hstaging : b.nvState.active = true → Staging b) (h : frame.Whole) {c : Cmd}
    (hcode : Cmd.ofCode frame.group frame.cmd = some c) (hwrites : c.writesNv = true) :
    NvWorked frame b (finishDeferred (dispatched b frame).1 (dispatched b frame).2) := by
  obtain ⟨⟨t, hrun, hstate⟩, -⟩ := dispatched_exec h hcode fun _ => hactive
  have hlen : frame.args.length = c.args := by
    rw [h, argBytes, hcode]
    rfl
  have hworks : ∀ r : Bool × Plugin, c.exec ⟨frame.args, b⟩ = (.ok r.1, ⟨[], r.2⟩) →
      NvWorked frame b (finishDeferred r.1 r.2) →
        NvWorked frame b (finishDeferred (dispatched b frame).1 (dispatched b frame).2) := by
    rintro r hr hnv
    obtain ⟨hok, ht⟩ := Prod.mk.inj (hr.symm.trans hrun)
    rw [← hstate, ← ht, ← Except.ok.inj hok]
    exact hnv
  cases c <;> first
    | exact absurd hwrites (by decide)
    | skip
  case nvPokeBegin =>
    match hargs : frame.args, hlen with
    | [slot], _ =>
      rw [hargs] at hworks
      exact hworks (nvPokeBegin slot b) rfl
        (nvPokeBegin_nvWorked hb hfollows hhosted hactive hdeferred hstaging hcode slot)
  case nvPoke =>
    match hargs : frame.args, hlen with
    | [byte, locLsb, locMsb], _ =>
      rw [hargs] at hworks
      exact hworks (nvPokeImpl byte locLsb locMsb b) rfl
        (nvPoke_nvWorked hdeferred hstaging hcode hargs)
  case nvPokeCommit =>
    have hargs := List.length_eq_zero_iff.mp hlen
    rw [hargs] at hworks
    refine hworks (nvPokeCommit b) rfl ?_
    unfold nvPokeCommit
    by_cases hopen : b.nvState.active = true
    · rw [if_neg (not_not.mpr hopen)]
      exact nvPokeCommit_nvWorked hstaging hopen hcode
    · rw [if_pos hopen, @finishDeferred_none _ (false, b) hdeferred]
      exact .same (Nv.not_takes hcode (by decide) _) hstaging
  case nvPokeDiscard =>
    have hargs := List.length_eq_zero_iff.mp hlen
    rw [hargs] at hworks
    exact hworks (nvPokeDiscard b) rfl (nvPokeDiscard_nvWorked hdeferred hstaging hcode)
  case nvPokeCommitByte =>
    match hargs : frame.args, hlen with
    | [byte, locLsb, locMsb, slot], _ =>
      rw [hargs] at hworks
      exact hworks (nvPokeCommitByte byte locLsb locMsb slot b) rfl
        (nvPokeCommitByte_nvWorked hb hfollows hhosted hactive hdeferred hstaging hcode hargs)

/-- A command of NV storage doesn't end the session. -/
lemma dispatched_writesNv_active {b : Plugin} {frame : Frame} (h : frame.Whole) {c : Cmd}
    (hcode : Cmd.ofCode frame.group frame.cmd = some c) (hwrites : c.writesNv = true) :
    (dispatched b frame).2.active = b.active := by
  rcases dispatched_cases b h with hno | ⟨c', hcode', -, -, hworked⟩
  · rw [hno]
  obtain rfl : c = c' := Option.some.inj (hcode.symm.trans hcode')
  have hkinds : ∀ k ∈ [Kind.exit, .enter, .reset], k ∉ c.done ∧ k ∉ c.failed := by
    cases c <;> first
      | exact absurd hwrites (by decide)
      | decide
  refine Work.same Plugin.active (fun k hk q r hact => hact.kept.active fun hmem => ?_) hworked
  exact Cmd.notMem_kinds (hkinds k hmem) _ hk

lemma worked_between {p : Plugin} {frame : Frame} (hp : NvReady p) (h : frame.Whole) :
    Sound (worked p frame).2 ∧ Hosted (worked p frame).2 := by
  have hbegun := beginCommand_begun hp frame.group frame.cmd
  have hsound := (dispatched_between hbegun.sound hbegun.follows h).1
  have hhosted := dispatched_hosted hbegun.sound hbegun.hosted h
  unfold worked
  dsimp only
  generalize dispatched (beginCommand frame.group frame.cmd p) frame = r at hsound hhosted
  obtain ⟨_, _, _, -, heq⟩ := finishDeferred_eq r.1 r.2
  rw [heq]
  exact ⟨⟨hsound.served, hsound.slot, hsound.region⟩, hhosted⟩

/-- A command keeps to the transaction, and so does what comes after it. -/
lemma perform_nv {p : Plugin} {frame : Frame} (hp : NvReady p) (h : frame.Whole)
    (htarget : p.nvState.active = true → frame.target ≠ some p.nvState.stagingSlot) :
    NvStep frame (succeeds p frame) (nvOf p) (nvOf (perform p frame)) ∧
      NvReady (perform p frame) := by
  by_cases hother : ∀ c, Cmd.ofCode frame.group frame.cmd = some c → c.writesNv = false
  · exact perform_nv_other hp h hother htarget
  obtain ⟨c, hcode, hwrites⟩ : ∃ c, Cmd.ofCode frame.group frame.cmd = some c ∧
      c.writesNv = true := by
    simpa using hother
  have hbegun := beginCommand_begun hp frame.group frame.cmd
  have hstaging : (beginCommand frame.group frame.cmd p).nvState.active = true →
      Staging (beginCommand frame.group frame.cmd p) := fun hopen =>
    hbegun.kept.staging (hbegun.kept.state ▸ hopen)
  obtain ⟨hsound, hhosted⟩ := worked_between hp h
  cases hactive : p.active with
  | true =>
    have hnv := dispatched_nvWorked hbegun.sound hbegun.follows hbegun.hosted
      (hbegun.active.trans hactive) hbegun.deferred hstaging h hcode hwrites
    have hstill : (worked p frame).2.active = true := by
      have hkept := dispatched_writesNv_active (b := beginCommand frame.group frame.cmd p) h hcode
        hwrites
      unfold worked
      dsimp only
      obtain ⟨_, _, _, -, heq⟩ := finishDeferred_eq
        (dispatched (beginCommand frame.group frame.cmd p) frame).1
        (dispatched (beginCommand frame.group frame.cmd p) frame).2
      rw [heq]
      exact hkept.trans (hbegun.active.trans hactive)
    obtain ⟨heq, hnext⟩ := perform_nv_end hp h hsound hhosted hnv.staging hstill
    rw [heq, ← hbegun.kept.nv]
    exact ⟨hnv.step, hnext⟩
  | false =>
    -- the command is refused for the mode
    have hbegin : beginCommand frame.group frame.cmd p = p := by
      rw [beginCommand, if_neg fun h => absurd (hactive.symm.trans h.1) Bool.false_ne_true]
    have hmode : c.inSession = true := by
      cases c <;> first
        | exact absurd hwrites (by decide)
        | rfl
    have hno : dispatched p frame = (false, p) := dispatched_refused h fun c' hcode' => by
      rw [← Option.some.inj (hcode.symm.trans hcode'), hactive]
      exact ⟨hmode, Bool.noConfusion⟩
    have hworked : worked p frame = (false, p) := by
      unfold worked
      rw [hbegin, hno]
      exact finishDeferred_none hp.ready.deferred
    have hsame : perform p frame = p := by
      rw [perform_eq h, hworked, hactive]
      exact endCommand_idle hactive
    rw [succeeds, hworked, hsame]
    refine ⟨.refused fun htakes => ?_, hp⟩
    exact absurd (hactive.symm.trans (hp.ready.staged (nvOf_isSome htakes.1))) Bool.false_ne_true

/-! ### Runs -/

/-- What the commands of a run do to NV storage, one after the other. Each succeeds or fails. -/
inductive NvSteps : List (Frame × Bool) → Nv → Nv → Prop
  | nil (n : Nv) : NvSteps [] n n
  | cons {frame : Frame} {ok : Bool} {run : List (Frame × Bool)} {n n' n'' : Nv}
    (hstep : NvStep frame ok n n') (hrest : NvSteps run n' n'') : NvSteps ((frame, ok) :: run) n n''

/-- The commands of a run from `p`, and whether each succeeds. -/
def outcomes (p : Plugin) : List Frame → List (Frame × Bool)
  | [] => []
  | frame :: frames => (frame, succeeds p frame) :: outcomes (perform p frame) frames

/-- While a transaction is open the host doesn't name the slot it lent. -/
def Spares (p : Plugin) : List Frame → Prop
  | [] => True
  | frame :: frames =>
    (p.nvState.active = true → frame.target ≠ some p.nvState.stagingSlot) ∧
      Spares (perform p frame) frames

lemma perform_nvSteps {p : Plugin} (hp : NvReady p) {done : List Frame}
    (h : ∀ frame ∈ done, frame.Whole) (hspares : Spares p done) :
    NvSteps (outcomes p done) (nvOf p) (nvOf (done.foldl perform p)) ∧
      NvReady (done.foldl perform p) := by
  induction done generalizing p with
  | nil => exact ⟨.nil _, hp⟩
  | cons frame done ih =>
    obtain ⟨hstep, hnext⟩ := perform_nv hp (h frame List.mem_cons_self) hspares.1
    obtain ⟨hrest, hready⟩ := ih hnext (fun f hf => h f (List.mem_cons_of_mem _ hf)) hspares.2
    exact ⟨.cons hstep hrest, hready⟩

/-- A session that is served from the slot the host numbers zero. -/
lemma NvReady.of_first {p : Plugin} (hp : Ready p) (hactive : p.active = true)
    (hslot : p.activeSlot = 0) (hclosed : p.nvState.active = false) : NvReady p := by
  refine ⟨hp, fun slot hserved => ?_, fun hopen => absurd (hclosed.symm.trans hopen) Bool.false_ne_true⟩
  have hfirst : slot = p.activeSlot.toNat :=
    Except.ok.inj (hserved.symm.trans (hp.follows hactive))
  have hcount := oraGetRamSlotCount_pos p.rt
  rw [hfirst, hslot]
  show 0 < hostSlotCount p
  unfold hostSlotCount
  dsimp only
  split
  · decide
  · exact hcount

/-- A transaction in slot 1 changes a byte. -/
def nvSession : List UInt8 :=
  [0x03, 0x02, 0x01, 0x03, 0x03, 0x5A, 0x10, 0x00, 0x03, 0x04]

end OneRom.Rbcp
