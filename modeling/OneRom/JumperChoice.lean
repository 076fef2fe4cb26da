import OneRom.JumperRead
import OneRom.SelectJumpers

/-!
The jumpers a description prints against those the firmware reads. Both number the unreserved select
pins from bit 0 on, and both have the plugins in the slots before the images, so that a row's
jumpers choose the row's slot.
-/

namespace OneRom.JumperChoice

open OneRom.Fallible OneRom.Boot OneRom.SelectJumpers OneRom.CheckCs

variable {config : DeviceConfig} {board : SelectBoard} {d : Device} {closed : ℕ → Bool}

def romSlots (d : Device) : UInt32 := d.word (d.metadata + 32)

/-- A device whose flash has what a build of the configuration writes for the board. -/
structure Holds (d : Device) (config : DeviceConfig) (board : SelectBoard) : Prop where
  version : d.word (d.metadata + 16) = metadataGenerationFor config.version
  romSlotCount : d.headerByte 28 = UInt8.ofNat config.chipSets.length
  turboBoot : d.headerByte 31 = if config.turboBoot then 1 else 0
  reservedSelPins : 3 ≤ metadataGenerationFor config.version →
    d.headerByte 36 = config.reservedSelPins
  slotType : ∀ i (h : i < config.chipSets.length),
    d.slotType (slotAt (romSlots d) (UInt8.ofNat i)) = slotType config.chipSets[i]
  rp235x : d.hwByte 4 = board.rp235x
  vbusPin : d.hwByte 7 = board.usbVbusPin.getD GPIO_NONE
  gpioSel : ∀ ii < MAX_IMG_SEL_PINS, d.selPin ii = board.gpioSel ii
  selJumperPull : ∀ ii < board.selPins.length, d.jumperPull ii = board.jumperPull ii

/-- The levels with a combination of jumpers closed: a closed jumper decides its pin's level, and an
open one leaves it to the pad's pull. -/
def Steady (d : Device) (board : SelectBoard) (closed : ℕ → Bool) : Prop :=
  ∀ pulls sample ii, ii < board.selPins.length →
    (closed ii →
      (d.levels pulls sample).toNat.testBit (board.gpioSel ii).toNat = board.jumperPull ii) ∧
    (closed ii = false → ∀ up ∈ pulls (board.gpioSel ii).toNat,
      (d.levels pulls sample).toNat.testBit (board.gpioSel ii).toNat = up)

/-- The firmware goes on to choose a slot. -/
def Boots (d : Device) : Prop := (firmwareMain d start).1 ≠ .error .bootloader

instance : DecidablePred Boots := fun d =>
  match h : (firmwareMain d start).1 with
  | .error .bootloader => isFalse fun hboots => hboots h
  | .error (.limp _) => isTrue fun heq => nomatch h.symm.trans heq
  | .ok _ => isTrue fun heq => nomatch h.symm.trans heq

/-- The firmware serves a slot. -/
def Serves (d : Device) (i : ℕ) : Prop :=
  (firmwareMain d start).2.runtime.romSlotIndex = UInt8.ofNat i ∧
    (firmwareMain d start).2.runtime.currentRomSlot =
      some (slotAt (romSlots d) (UInt8.ofNat i))

/-- What is described of the jumpers and what is done with them agree. -/
structure Agrees (config : DeviceConfig) (board : SelectBoard) (d : Device) (closed : ℕ → Bool) :
    Prop where
  /-- An image is served, and never a plugin. -/
  image : ∃ i, ∃ h : i < config.chipSets.length, ¬ isPlugin config.chipSets[i] ∧ Serves d i
  row : ∀ i (h : i < config.chipSets.length) pins,
    (ImageSelect.new config board).row i config.chipSets[i] = some (.jumpered pins) →
      (∀ ii ∈ (ImageSelect.new config board).read, closed ii ↔ ii ∈ pins) → Serves d i
  cannotBeSelected : ∀ i (h : i < config.chipSets.length),
    (ImageSelect.new config board).row i config.chipSets[i] = some .cannotBeSelected → ¬ Serves d i
  footer : ∀ i, (ImageSelect.new config board).footer = some (.turbo i) → Serves d i
  modulo : config.turboBoot = false →
    Serves d ((ImageSelect.new config board).plugins +
      closedValue (ImageSelect.new config board).read closed %
        (ImageSelect.new config board).images)
  unpulled : ∀ ii < board.selPins.length, config.reservedSelPins.toNat.testBit ii →
    ∀ up, .pull (board.gpioSel ii).toNat up ∉ (firmwareMain d start).2.events
  /-- The reserved pins' jumpers make no difference. -/
  reserved : ∀ d' closed', Holds d' config board → Steady d' board closed' → Boots d' →
    (∀ ii ∈ (ImageSelect.new config board).read, closed' ii = closed ii) →
      ∃ i, Serves d i ∧ Serves d' i

/-! ### What a device that holds the build reads -/

lemma Holds.reserved (hd : Holds d config board) (h : Accepted config) :
    d.reservedSel = config.reservedSelPins := by
  rw [Device.reservedSel, hd.version]
  split_ifs with hversion
  · exact hd.reservedSelPins hversion
  · by_contra hne
    refine h.reserved (Ne.symm hne) ?_
    by_contra hlater
    exact hversion ((if_neg hlater : metadataGenerationFor config.version = 3) ▸ UInt32.le_refl 3)

/-- The select pins read are those of the description. -/
lemma Holds.selRead (hd : Holds d config board) (h : Accepted config)
    (hvariant : d.variant = board.rp235x) {ii : ℕ} (hii : ii < MAX_IMG_SEL_PINS) :
    d.selRead ii ↔ ii ∈ (ImageSelect.new config board).read := by
  rw [Device.selRead, Boot.selRead, hd.reserved h, hd.gpioSel ii hii, ImageSelect.new,
    mem_selectPinsRead, Bool.and_eq_true, Bool.not_eq_true', Runtime.maxGpios, hvariant,
    decide_eq_true_eq]
  refine and_congr_left fun _ => ?_
  rw [SelectBoard.gpioSel]
  by_cases hlen : ii < board.selPins.length
  · rw [List.getD_eq_getElem _ _ hlen]
    exact iff_of_true (board.onChip _ (List.getElem_mem hlen)) hlen
  · rw [List.getD_eq_default _ _ (not_lt.mp hlen)]
    refine iff_of_false ?_ hlen
    split_ifs <;> decide

/-- The GPIOs of a board's select pins, and of none. -/
lemma gpioSel_inj {ii jj : ℕ} (hii : ii < board.selPins.length)
    (h : board.gpioSel ii = board.gpioSel jj) : ii = jj := by
  rw [SelectBoard.gpioSel, SelectBoard.gpioSel, List.getD_eq_getElem _ _ hii] at h
  by_cases hjj : jj < board.selPins.length
  · rw [List.getD_eq_getElem _ _ hjj] at h
    exact board.apart.getElem_inj_iff.mp h
  · rw [List.getD_eq_default _ _ (not_lt.mp hjj)] at h
    have hon := board.onChip _ (List.getElem_mem hii)
    rw [h] at hon
    split_ifs at hon <;> exact absurd hon (by decide)

/-- The pins that aren't those of reserved jumpers. -/
def Free (config : DeviceConfig) (board : SelectBoard) (gpio : ℕ) : Prop :=
  ∀ ii < board.selPins.length, config.reservedSelPins.toNat.testBit ii →
    gpio ≠ (board.gpioSel ii).toNat

lemma Holds.free_selPin (hd : Holds d config board) (h : Accepted config) {ii : ℕ}
    (hii : ii < MAX_IMG_SEL_PINS) (hread : d.reservedSel.toNat.testBit ii = false) :
    Free config board (d.selPin ii).toNat := by
  intro jj hjj hreserved heq
  rw [hd.gpioSel ii hii] at heq
  rw [gpioSel_inj hjj (UInt8.toNat_inj.mp heq.symm)] at hreserved
  rw [hd.reserved h, hreserved] at hread
  cases hread

lemma Holds.free_vbus (hd : Holds d config board) : Free config board (d.hwByte 7).toNat := by
  intro jj hjj _ heq
  have hmem : board.gpioSel jj ∈ board.selPins := by
    rw [SelectBoard.gpioSel, List.getD_eq_getElem _ _ hjj]
    exact List.getElem_mem hjj
  rw [hd.vbusPin, UInt8.toNat_inj] at heq
  cases hvbus : board.usbVbusPin with
  | none =>
    rw [hvbus, Option.getD_none] at heq
    have hon := board.onChip _ hmem
    rw [← heq] at hon
    split_ifs at hon <;> exact absurd hon (by decide)
  | some pin =>
    rw [hvbus, Option.getD_some] at heq
    exact board.vbusApart pin (by rw [hvbus]; rfl) (heq ▸ hmem)

lemma Holds.apart (hd : Holds d config board) (h : Accepted config)
    (hvariant : d.variant = board.rp235x) : d.SelApart := by
  intro ii hii jj hjj hread _ heq
  rw [hd.gpioSel ii hii, hd.gpioSel jj hjj] at heq
  exact gpioSel_inj (mem_selectPinsRead.mp ((hd.selRead h hvariant hii).mp hread)).1 heq

lemma Holds.steady (hd : Holds d config board) (h : Accepted config)
    (hvariant : d.variant = board.rp235x) (hsteady : Steady d board closed) : d.Steady closed := by
  intro pulls sample ii hii hread
  have hlen := (mem_selectPinsRead.mp ((hd.selRead h hvariant hii).mp hread)).1
  rw [hd.gpioSel ii hii, hd.selJumperPull ii hlen]
  exact hsteady pulls sample ii hlen

/-! ### The plugins found -/

section Parse

variable {P : ℕ → Prop} {E : State → Prop}

/-- Finding a plugin in a slot, whatever comes of checking it. -/
lemma parseSlot_spec {I : State → Prop} (hI : Frame d P I) {c : Prop} [Decidable c]
    {x : Firmware Bool} (hx : Framed d P False x) {f : Bool → Bool × UInt8} {y : Bool × UInt8}
    {found missing : UInt8} (hf : ∀ disable, (f disable).2 = found) (hy : y.2 = missing) :
    Triple I (if c then (do let disable ← x; pure (f disable)) else pure y)
      (fun r s => r.2 = (if c then found else missing) ∧ I s) E := by
  split_ifs
  · exact hI.bind_framed hx fun disable => Triple.pure fun s hs => ⟨hf disable, hs⟩
  · exact Triple.pure fun s hs => ⟨hy, hs⟩

lemma parseSystem_spec (hd : Holds d config board) (hplugins : PluginSlots config)
    (hlen : 0 < config.chipSets.length) :
    Triple (Sound d P) (parseSystem d)
      (fun r s => r.2 = (if isPlugin config.chipSets[0] then 1 else 0) ∧ Sound d P s) E := by
  refine sound_reading.bind_header32 ?_
  simp only [← hplugins.system hlen, ← hd.slotType 0 hlen]
  exact parseSlot_spec sound_frame (framed_checkPlugin _ _ _) (fun _ => rfl) rfl

lemma parseUser_spec (hd : Holds d config board) (hplugins : PluginSlots config)
    (hlen : 1 < config.chipSets.length) (disable : Bool) (plugins : UInt8) :
    Triple (Sound d P) (parseUser d disable plugins)
      (fun r s => r.2 = (if isPlugin config.chipSets[1] ∧ plugins &&& 1 ≠ 0 then plugins ||| 2
        else plugins) ∧ Sound d P s) E := by
  refine sound_reading.bind_header32 ?_
  simp only [← hplugins.user hlen, ← hd.slotType 1 hlen]
  exact parseSlot_spec sound_frame (framed_checkPlugin _ _ _) (fun _ => rfl) rfl

/-- The firmware finds as many plugins as the configuration has. -/
lemma initialPluginParse_spec (hd : Holds d config board) (h : Accepted config)
    (hlen : 0 < config.chipSets.length) :
    Triple (Sound d P) (initialPluginParse d)
      (fun r s => (numPlugins r.2).toNat = config.chipSets.countP isPlugin ∧ Sound d P s) E := by
  have hplugins := h.pluginSlots
  have hcount : (UInt8.ofNat config.chipSets.length).toNat = config.chipSets.length :=
    UInt8.toNat_ofNat_of_lt' (Nat.lt_succ_of_le h.count)
  refine sound_reading.bind_header8 ?_
  rw [if_neg (by rw [hd.romSlotCount, ← UInt8.toNat_inj, hcount]; exact hlen.ne')]
  refine (parseSystem_spec hd hplugins hlen).bind fun system s hs => ?_
  obtain ⟨hsystem, hs⟩ := hs
  refine (sound_reading.bind_header8 ?_ : Triple (Sound d P) _ _ E) s hs
  have hlt : 1 < d.headerByte 28 ↔ 1 < config.chipSets.length := by
    rw [hd.romSlotCount, UInt8.lt_iff_toNat_lt, hcount]
    rfl
  have h0 := hplugins.isPlugin hlen
  by_cases hone : 1 < config.chipSets.length
  · rw [if_pos (hlt.mpr hone)]
    have h1 := hplugins.isPlugin hone
    have h2 : config.chipSets.countP isPlugin ≤ 2 := by
      by_contra hmany
      have hlong := List.countP_le_length (p := isPlugin) (l := config.chipSets)
      have := hplugins.first 2 (by omega) ((hplugins.isPlugin (by omega)).mpr (by omega))
      omega
    refine (parseUser_spec hd hplugins hone _ _).mono (fun _ h => h) (fun r t ht => ⟨?_, ht.2⟩)
      fun _ h => h
    rw [ht.1, hsystem]
    by_cases hp0 : isPlugin config.chipSets[0]
    · by_cases hp1 : isPlugin config.chipSets[1]
      · have : config.chipSets.countP isPlugin = 2 := by have := h1.mp hp1; omega
        rw [if_pos hp0, if_pos ⟨hp1, by decide⟩, this]
        rfl
      · have : config.chipSets.countP isPlugin = 1 := by
          have := h0.mp hp0
          have := mt h1.mpr hp1
          omega
        rw [if_pos hp0, if_neg (fun hp => hp1 hp.1), this]
        rfl
    · have : config.chipSets.countP isPlugin = 0 := by have := mt h0.mpr hp0; omega
      rw [if_neg hp0, if_neg (fun hp => hp.2 (by decide)), this]
      rfl
  · rw [if_neg (mt hlt.mp hone)]
    refine Triple.pure fun t ht => ⟨?_, ht⟩
    have hlong := List.countP_le_length (p := isPlugin) (l := config.chipSets)
    rw [hsystem]
    by_cases hp0 : isPlugin config.chipSets[0]
    · have : config.chipSets.countP isPlugin = 1 := by have := h0.mp hp0; omega
      rw [if_pos hp0, this]
      rfl
    · have : config.chipSets.countP isPlugin = 0 := by have := mt h0.mpr hp0; omega
      rw [if_neg hp0, this]
      rfl

end Parse

/-! ### The slot chosen -/

section Choose

variable {P : ℕ → Prop} {E : State → Prop}

/-- The number the firmware makes of the jumpers is theirs. -/
lemma Numbered.compact {sel : UInt32 × UInt32}
    (h : Numbered d closed (List.range MAX_IMG_SEL_PINS) sel) {read : List ℕ}
    (hread : read = (List.range MAX_IMG_SEL_PINS).filter d.selRead) :
    (Boot.compact sel.1 sel.2 0 0 (List.range 32)).toNat = closedValue read closed := by
  have hfilter : (List.range 32).filter sel.2.toNat.testBit = read := by
    have hmask : ∀ jj ∈ List.range 32, sel.2.toNat.testBit jj =
        (d.selRead jj && decide (jj < MAX_IMG_SEL_PINS)) := by
      intro jj _
      rw [Bool.eq_iff_iff, h.mask, List.mem_range, Bool.and_eq_true, decide_eq_true_eq, and_comm]
    rw [List.filter_congr hmask, ← List.filter_filter, hread]
    exact congrArg _ (by decide)
  have hlen : read.length ≤ 7 := hread ▸ List.length_filter_le _ _
  refine Nat.eq_of_testBit_eq fun p => ?_
  by_cases hp : p < 8
  · rw [testBit_compact hp, hfilter, testBit_closedValue]
    simp only [UInt8.toNat_zero, Nat.zero_testBit, Bool.false_or, Nat.zero_le, decide_true,
      Bool.true_and, Nat.sub_zero]
    cases hii : read[p]? with
    | none => rfl
    | some ii =>
      have hmem := List.mem_of_getElem? hii
      rw [hread, List.mem_filter] at hmem
      rw [Option.any_some, Option.any_some, Bool.eq_iff_iff, h.value]
      exact ⟨fun hv => hv.2.2, fun hclosed => ⟨hmem.1, hmem.2, hclosed⟩⟩
  · have hbyte := UInt8.toNat_lt (Boot.compact sel.1 sel.2 0 0 (List.range 32))
    have hpow := Nat.pow_le_pow_right (n := 2) (by decide) (not_lt.mp hp)
    have hvalue := (closedValue_lt read closed).trans_le
      (Nat.pow_le_pow_right (by decide) (hlen.trans (by decide : 7 ≤ 8)))
    rw [Nat.testBit_lt_two_pow (hbyte.trans_le hpow), Nat.testBit_lt_two_pow (hvalue.trans_le hpow)]

/-- Boot has chosen a slot. -/
structure Chosen (d : Device) (P : ℕ → Prop) (i : ℕ) (s : State) : Prop where
  sound : Sound d P s
  romSlotIndex : s.runtime.romSlotIndex = UInt8.ofNat i
  currentRomSlot : s.runtime.currentRomSlot = some (slotAt (romSlots d) (UInt8.ofNat i))

lemma chosen_frame {i : ℕ} : Frame d P (Chosen d P i) where
  deref s base h := ⟨sound_frame.deref s base h.sound, h.romSlotIndex, h.currentRomSlot⟩
  input s gpio h := ⟨sound_frame.input s gpio h.sound, h.romSlotIndex, h.currentRomSlot⟩
  drive s gpio h := ⟨sound_frame.drive s gpio h.sound, h.romSlotIndex, h.currentRomSlot⟩
  unpull s gpio h := ⟨sound_frame.unpull s gpio h.sound, h.romSlotIndex, h.currentRomSlot⟩
  pull s gpio up hP h :=
    ⟨sound_frame.pull s gpio up hP h.sound, h.romSlotIndex, h.currentRomSlot⟩
  runtime s runtime hvariant hindex hslot h :=
    ⟨sound_frame.runtime s runtime hvariant hindex hslot h.sound, hindex.trans h.romSlotIndex,
      hslot.trans h.currentRomSlot⟩

lemma Holds.romSlotCount_toNat (hd : Holds d config board) (h : Accepted config) :
    (d.headerByte 28).toNat = config.chipSets.length := by
  rw [hd.romSlotCount]
  exact UInt8.toNat_ofNat_of_lt' (Nat.lt_succ_of_le h.count)

/-- The slot of a select value: the images in turn, from the first slot that isn't a plugin's. -/
def slotOf (plugins sets value : ℕ) : ℕ := plugins + value % (sets - plugins)

lemma slotOf_lt {plugins sets value : ℕ} (h : plugins < sets) : slotOf plugins sets value < sets := by
  have := Nat.mod_lt value (Nat.sub_pos_of_lt h)
  rw [slotOf]
  omega

lemma getRomSlotIndex_spec (hd : Holds d config board) (h : Accepted config)
    {selPins selMask : UInt32} {plugins : UInt8}
    (himages : (numPlugins plugins).toNat < config.chipSets.length) :
    Triple (Sound d P) (getRomSlotIndex d selPins selMask plugins)
      (fun index s => index = UInt8.ofNat (slotOf (numPlugins plugins).toNat config.chipSets.length
        (Boot.compact selPins selMask 0 0 (List.range 32)).toNat) ∧ Sound d P s) E := by
  unfold getRomSlotIndex
  dsimp only
  generalize Boot.compact selPins selMask 0 0 (List.range 32) = romSel
  have hcount := hd.romSlotCount_toNat h
  have hlt : slotOf _ _ romSel.toNat < _ := slotOf_lt himages
  refine sound_reading.bind_header8 ?_
  rw [if_neg (by rw [UInt8.le_iff_toNat_le, hcount]; exact not_le.mpr himages)]
  have hindex : romSel % (d.headerByte 28 - numPlugins plugins) + numPlugins plugins =
      UInt8.ofNat (slotOf (numPlugins plugins).toNat config.chipSets.length romSel.toNat) := by
    have hle : numPlugins plugins ≤ d.headerByte 28 := by
      rw [UInt8.le_iff_toNat_le, hcount]
      exact himages.le
    refine UInt8.toNat_inj.mp ?_
    rw [UInt8.toNat_add, UInt8.toNat_mod, UInt8.toNat_sub_of_le _ _ hle, hcount,
      UInt8.toNat_ofNat', slotOf, Nat.add_comm]
  have hbound : ¬ d.headerByte 28 ≤
      romSel % (d.headerByte 28 - numPlugins plugins) + numPlugins plugins := by
    rw [hindex, UInt8.le_iff_toNat_le, hcount,
      UInt8.toNat_ofNat_of_lt' (hlt.trans (Nat.lt_succ_of_le h.count))]
    exact not_le.mpr hlt
  rw [if_neg hbound]
  exact sound_frame.bind_framed .LOG fun _ => Triple.pure fun s hs => ⟨hindex, hs⟩

lemma chooseSlot_spec (hd : Holds d config board) (h : Accepted config)
    {selPins selMask : UInt32} {plugins : UInt8}
    (himages : (numPlugins plugins).toNat < config.chipSets.length) :
    Triple (Sound d P) (chooseSlot d selPins selMask plugins)
      (fun _ => Chosen d P (slotOf (numPlugins plugins).toNat config.chipSets.length
        (Boot.compact selPins selMask 0 0 (List.range 32)).toNat)) E := by
  refine sound_reading.bind_header8 ?_
  rw [if_pos (by rw [UInt8.lt_iff_toNat_lt, hd.romSlotCount_toNat h]; exact himages)]
  refine (getRomSlotIndex_spec hd h himages).bind fun index s hs => ?_
  obtain ⟨rfl, hs⟩ := hs
  refine (sound_reading.bind_header32 ?_ : Triple (Sound d P) _ _ E) s hs
  refine Triple.bind (Q := fun _ => Chosen d P _) (fun t ht => ⟨?_, rfl, rfl⟩) fun _ => ?_
  · exact ⟨ht.variant, ht.pulled⟩
  · exact chosen_frame.framed (framed_processFirmwareOverrides _)

lemma filter_range_lt {m n : ℕ} (h : n ≤ m) :
    (List.range m).filter (fun ii => decide (ii < n)) = List.range n := by
  obtain ⟨k, rfl⟩ := Nat.exists_eq_add_of_le h
  rw [List.range_add, List.filter_append, List.filter_eq_self.mpr, List.filter_eq_nil_iff.mpr,
    List.append_nil]
  · intro ii hii
    obtain ⟨j, -, rfl⟩ := List.mem_map.mp hii
    simp
  · exact fun ii hii => decide_eq_true (List.mem_range.mp hii)

/-- The select value boot goes by: turbo boot doesn't read the jumpers. -/
def selectValue (config : DeviceConfig) (board : SelectBoard) (closed : ℕ → Bool) : ℕ :=
  if config.turboBoot then 0 else closedValue (ImageSelect.new config board).read closed

lemma readJumpers_spec (hd : Holds d config board) (h : Accepted config)
    (hvariant : config.turboBoot = false → d.variant = board.rp235x)
    (hsteady : Steady d board closed) :
    Triple (Sound d (Free config board)) (readJumpers d)
      (fun sel s => (Boot.compact sel.1 sel.2 0 0 (List.range 32)).toNat =
        selectValue config board closed ∧ Sound d (Free config board) s) E := by
  refine sound_reading.bind_header8 ?_
  rw [hd.turboBoot, selectValue]
  cases hturbo : config.turboBoot with
  | true =>
    have hnone : (Boot.compact 0 0 0 0 (List.range 32)).toNat = 0 := by decide
    exact Triple.pure fun s hs => ⟨hnone, hs⟩
  | false =>
    have hvariant := hvariant hturbo
    refine (checkSelPins_spec (hd.apart h hvariant) (hd.steady h hvariant hsteady)
      fun ii hii => hd.free_selPin h hii).mono (fun _ h => h) (fun sel s hs => ⟨?_, hs.2⟩)
      fun _ h => h
    refine Numbered.compact hs.1 ?_
    have hfilter : ∀ ii ∈ List.range MAX_IMG_SEL_PINS, d.selRead ii =
        (!config.reservedSelPins.toNat.testBit ii && decide (ii < board.selPins.length)) := by
      intro ii hii
      rw [Bool.eq_iff_iff, hd.selRead h hvariant (List.mem_range.mp hii), ImageSelect.new,
        mem_selectPinsRead, Bool.and_eq_true, Bool.not_eq_true', decide_eq_true_eq, and_comm]
    rw [List.filter_congr hfilter, ← List.filter_filter, filter_range_lt board.atMost]
    rfl

/-- The slot the jumpers come to. -/
def chosenSlot (config : DeviceConfig) (board : SelectBoard) (closed : ℕ → Bool) : ℕ :=
  slotOf (config.chipSets.countP isPlugin) config.chipSets.length (selectValue config board closed)

lemma selectFrom_spec (hd : Holds d config board) (h : Accepted config)
    (hvariant : config.turboBoot = false → d.variant = board.rp235x)
    (hsteady : Steady d board closed) {plugins : UInt8}
    (hplugins : (numPlugins plugins).toNat = config.chipSets.countP isPlugin)
    (himages : config.chipSets.countP isPlugin < config.chipSets.length) :
    Triple (Sound d (Free config board)) (selectFrom d plugins)
      (fun _ => Chosen d (Free config board) (chosenSlot config board closed))
      (Chosen d (Free config board) (chosenSlot config board closed)) := by
  refine sound_frame.bind_framed (framed_whenLogging framed_logRoms) fun _ => ?_
  refine (readJumpers_spec hd h hvariant hsteady).bind fun sel s hs => ?_
  obtain ⟨hvalue, hs⟩ := hs
  have himages : (numPlugins plugins).toNat < config.chipSets.length := hplugins ▸ himages
  have hchoose := @chooseSlot_spec config board d (Free config board)
    (Chosen d (Free config board) (chosenSlot config board closed)) hd h sel.1 sel.2 _ himages
  rw [hvalue, hplugins] at hchoose
  refine (hchoose.bind fun _ => ?_) s hs
  exact (framed_serve _ chosen_frame).mono (fun _ h => h) (fun _ _ h => h) fun _ h => h.2

end Choose

/-! ### Boot up to the choice -/

section Main

variable {α β : Type} {P : ℕ → Prop} {I R : State → Prop} {Q : α → State → Prop}

/-- A program that goes on where `Q` holds, or ends in the bootloader. -/
def Goes (I : State → Prop) (x : Firmware α) (Q : α → State → Prop) : Prop :=
  ∀ s, I s → match x s with
    | (.ok a, t) => Q a t
    | (.error e, _) => e = .bootloader

lemma Goes.of_triple {x : Firmware α} (h : Triple I x Q fun _ => False) : Goes I x Q := by
  intro s hs
  have hx := h s hs
  generalize x s = r at hx ⊢
  rcases r with ⟨_ | _, t⟩
  · exact hx.elim
  · exact hx

lemma Goes.bind {x : Firmware α} {f : α → Firmware β} {S : β → State → Prop} (hx : Goes I x Q)
    (hf : ∀ a, Goes (Q a) (f a) S) : Goes I (x >>= f) S := by
  intro s hs
  have h := hx s hs
  rw [Prog.bind_run]
  generalize x s = r at h ⊢
  rcases r with ⟨_ | a, t⟩
  · exact h
  · exact hf a t h

lemma Goes.framed {x : Firmware α} (hI : Frame d P I) (hx : Framed d P False x) :
    Goes I x fun _ => I := of_triple (hI.framed hx)

/-- Where a program has not ended in the bootloader `R` holds. -/
def Reaches (I : State → Prop) (x : Firmware PUnit) (R : State → Prop) : Prop :=
  ∀ s, I s → (x s).1 ≠ .error .bootloader → R (x s).2

lemma Reaches.of_triple {x : Firmware PUnit} (h : Triple I x (fun _ => R) R) : Reaches I x R :=
  fun _ hs _ => h.final hs

lemma Reaches.bind {x : Firmware α} {f : α → Firmware PUnit} (hx : Goes I x Q)
    (hf : ∀ a, Reaches (Q a) (f a) R) : Reaches I (x >>= f) R := by
  intro s hs hgoes
  have h := hx s hs
  rw [Prog.bind_run] at hgoes ⊢
  generalize x s = r at h hgoes ⊢
  rcases r with ⟨_ | a, t⟩
  · exact absurd (congrArg Except.error h) hgoes
  · exact hf a t h hgoes

lemma goes_vbusDetect (hP : P (d.hwByte 7).toNat) (disable : Bool) :
    Goes (Sound d P) (vbusDetect d disable) fun _ => Sound d P := by
  unfold vbusDetect
  cases disable with
  | true => exact .framed sound_frame .LOG
  | false =>
  refine .bind (.framed sound_frame .getRuntime) fun runtime =>
    .bind (.framed sound_frame (.hw8 6)) fun _ => ?_
  have hvbus : Goes (Sound d P) (hw8 d 7) fun vbus s => vbus = d.hwByte 7 ∧ Sound d P s :=
    .of_triple (sound_reading.bind_hw8 (Triple.pure fun s hs => ⟨rfl, hs⟩))
  refine hvbus.bind fun vbus s hs => ?_
  obtain ⟨rfl, hs⟩ := hs
  refine (?_ : Goes (Sound d P) _ fun _ => Sound d P) s hs
  split_ifs
  · exact Goes.framed sound_frame .LOG
  · refine Goes.bind (.framed sound_frame (.setPull hP _)) fun _ => ?_
    exact Goes.bind (.framed sound_frame .LOG) fun _ _ _ => rfl
  · exact Goes.bind (.framed sound_frame (.setPull hP _)) fun _ => .framed sound_frame (.pure _)

lemma reaches_bootOn (hd : Holds d config board) (h : Accepted config)
    (hvariant : config.turboBoot = false → d.variant = board.rp235x)
    (hsteady : Steady d board closed)
    (himages : config.chipSets.countP isPlugin < config.chipSets.length) :
    Reaches (Sound d (Free config board)) (bootOn d)
      (Chosen d (Free config board) (chosenSlot config board closed)) := by
  refine .bind (.framed sound_frame framed_updateRuntimeFromMetadata) fun _ =>
    .bind (.framed sound_frame framed_otpFlashSizes) fun _ => ?_
  have hrev : Goes (Sound d (Free config board)) (hwRev d) fun rev s =>
      rev = d.pointer .hwRev ∧ Sound d (Free config board) s := .of_triple fun s hs =>
    ⟨rfl, sound_frame.deref _ .HW (sound_frame.deref s .METADATA hs)⟩
  refine Reaches.bind hrev fun rev s hs => ?_
  obtain ⟨rfl, hs⟩ := hs
  refine Reaches.bind (.framed sound_frame framed_otpBoardMismatch) (fun mismatch => ?_) s hs
  cases mismatch with
  | true => exact fun _ _ hgoes => absurd rfl hgoes
  | false =>
    have hfind : Goes (Sound d (Free config board)) (findPlugins d) fun r s =>
        (numPlugins r.2).toNat = config.chipSets.countP isPlugin ∧
          Sound d (Free config board) s := by
      refine .bind (.framed sound_frame framed_setupInitialGpios) fun _ =>
        .bind (.framed sound_frame (framed_whenLogging framed_logInit)) fun _ =>
        .bind (.framed sound_frame framed_logGeneration) fun _ => ?_
      exact .of_triple (initialPluginParse_spec hd h (by omega))
    refine Reaches.bind hfind fun parsed s hs => ?_
    obtain ⟨hplugins, hs⟩ := hs
    exact Reaches.bind (goes_vbusDetect hd.free_vbus _) (fun _ =>
      .of_triple (selectFrom_spec hd h hvariant hsteady hplugins himages)) s hs

/-- Boot that goes on chooses the slot the jumpers come to, and pulls no reserved pin. -/
lemma boot_chooses (hd : Holds d config board) (h : Accepted config)
    (hsteady : Steady d board closed)
    (himages : config.chipSets.countP isPlugin < config.chipSets.length) (hboots : Boots d) :
    Chosen d (Free config board) (chosenSlot config board closed) (firmwareMain d start).2 := by
  obtain ⟨s, hinit, hvariant, hevents⟩ := platformSpecificInit_run d
  obtain ⟨v, hreads, hv⟩ := reads_metadataValid hvariant
  obtain ⟨t, hrun, -, -⟩ := hreads s rfl (by simp [Untouched, hevents])
  have hmain : firmwareMain d start = if v = 0 then enterBootloader t else bootOn d t := by
    unfold firmwareMain
    rw [Prog.bind_of_ok hinit, Prog.bind_of_ok hrun]
    split_ifs <;> rfl
  have hne : v ≠ 0 := by
    intro hzero
    rw [Boots, hmain, if_pos hzero] at hboots
    exact hboots rfl
  have hsound : Sound d (Free config board) t := by
    have hs : Sound d (Free config board) s := ⟨hvariant, by simp [hevents]⟩
    exact (sound_frame.framed (E := fun _ => False) framed_metadataValid).ok hs hrun
  have hcheck : config.turboBoot = false → d.variant = board.rp235x := by
    intro hturbo
    have hchecked := (hv.mp hne).2.resolve_left (by rw [hd.turboBoot, hturbo]; decide)
    rw [← hchecked.variant, hd.rp235x]
  rw [Boots, hmain, if_neg hne] at hboots
  rw [hmain, if_neg hne]
  exact reaches_bootOn hd h hcheck hsteady himages t hsound hboots

end Main

/-! ### The jumpers described and those read -/

lemma serves_chosen (hd : Holds d config board) (h : Accepted config)
    (hsteady : Steady d board closed)
    (himages : config.chipSets.countP isPlugin < config.chipSets.length) (hboots : Boots d) :
    Serves d (chosenSlot config board closed) :=
  have hchosen := boot_chooses hd h hsteady himages hboots
  ⟨hchosen.romSlotIndex, hchosen.currentRomSlot⟩

/-- One slot is served. -/
lemma Serves.eq {i j : ℕ} (hi : Serves d i) (hj : Serves d j) (hi' : i ≤ 255) (hj' : j ≤ 255) :
    i = j := by
  have heq := congrArg UInt8.toNat (hi.1.symm.trans hj.1)
  rwa [UInt8.toNat_ofNat_of_lt' (Nat.lt_succ_of_le hi'),
    UInt8.toNat_ofNat_of_lt' (Nat.lt_succ_of_le hj')] at heq

/-- **The jumpers described choose the images they are described for**, for a configuration with an
image to serve. -/
theorem jumpers_agree {config : DeviceConfig} {board : SelectBoard} {d : Device}
    {closed : ℕ → Bool} (h : Accepted config) (himage : ∃ set ∈ config.chipSets, ¬ isPlugin set)
    (hd : Holds d config board) (hsteady : Steady d board closed) (hboots : Boots d) :
    Agrees config board d closed := by
  have himages : config.chipSets.countP isPlugin < config.chipSets.length := by
    rw [List.countP_lt_length_iff]
    simpa using himage
  have hserves := serves_chosen hd h hsteady himages hboots
  have hlt : chosenSlot config board closed < config.chipSets.length := slotOf_lt himages
  have hcount := h.count
  have hturbo : config.turboBoot = false → chosenSlot config board closed =
      config.chipSets.countP isPlugin + closedValue (ImageSelect.new config board).read closed %
        (config.chipSets.length - config.chipSets.countP isPlugin) := by
    intro hturbo
    rw [chosenSlot, slotOf, selectValue, hturbo]
    rfl
  refine ⟨⟨_, hlt, ?_, hserves⟩, fun i hi pins hrow hclosed => ?_, fun i hi hrow hi' => ?_,
    fun i hi => ?_, fun hturboBoot => ?_, fun ii hii hreserved up hmem => ?_,
    fun d' closed' hd' hsteady' hboots' heq => ⟨_, hserves, ?_⟩⟩
  · rw [h.pluginSlots.isPlugin hlt, chosenSlot, slotOf]
    omega
  · obtain ⟨hturboBoot, hplugins, heq⟩ := row_eq_some hrow
    have hplugins : config.chipSets.countP isPlugin ≤ i := hplugins
    split_ifs at heq with hfew
    obtain rfl := Row.jumpered.inj heq
    have hread : (ImageSelect.new config board).read.Nodup := nodup_selectPinsRead _ _
    have hvalue := closedValue_closedFor hread (not_le.mp hfew) hclosed
    have hi' : chosenSlot config board closed = i := by
      have hlt : i - config.chipSets.countP isPlugin <
          config.chipSets.length - config.chipSets.countP isPlugin := by omega
      rw [hturbo hturboBoot, hvalue]
      exact (congrArg _ (Nat.mod_eq_of_lt hlt)).trans (Nat.add_sub_of_le hplugins)
    rwa [hi'] at hserves
  · obtain ⟨hturboBoot, hplugins, heq⟩ := row_eq_some hrow
    split_ifs at heq with hmany
    have hmany : 2 ^ (ImageSelect.new config board).read.length ≤
      i - config.chipSets.countP isPlugin := hmany
    have hvalue := closedValue_lt (ImageSelect.new config board).read closed
    have hmod := Nat.mod_le (closedValue (ImageSelect.new config board).read closed)
      (config.chipSets.length - config.chipSets.countP isPlugin)
    have hchosen := hturbo hturboBoot
    have := hserves.eq hi' (by omega) (by omega)
    omega
  · rw [ImageSelect.footer] at hi
    split_ifs at hi with hcond
    · obtain rfl := Footer.turbo.inj (Option.some.inj hi)
      have hturboBoot : config.turboBoot := (Bool.and_eq_true_iff.mp hcond).1
      rw [chosenSlot, slotOf, selectValue, if_pos hturboBoot, Nat.zero_mod] at hserves
      exact hserves
    · cases hi
  · rw [hturbo hturboBoot] at hserves
    exact hserves
  · exact (boot_chooses hd h hsteady himages hboots).sound.pulled _ up hmem ii hii hreserved rfl
  · have hsame : chosenSlot config board closed' = chosenSlot config board closed := by
      rw [chosenSlot, chosenSlot, selectValue, selectValue, closedValue_congr heq]
    rw [← hsame]
    exact serves_chosen hd' h hsteady' himages hboots'

/-! ### Devices -/

/-- A device for a board whose two select pins are GPIOs 26 and 27, with the bytes from the metadata
on and its two jumpers open or closed. -/
def deviceOf (bytes : List UInt8) (closed : ℕ → Bool) : Device where
  metadata := 0x1000C000
  flash p := bytes.getD (p - 0x1000C000).toNat 0xFF
  qfn60 := true
  otpReadEcc _ := 0
  otpReadRaw _ := 0
  pluginHeaderAt _ := ⟨0, 0, 0, 0, 0, 0, 0, 0⟩
  disablesVbusDetect _ := false
  version := (0, 8, 0)
  levels pulls _ :=
    (if pulls 26 = some true ∧ closed 0 = false then 0x4000000 else 0) |||
      (if pulls 27 = some true ∧ closed 1 = false then 0x8000000 else 0)
  vbusPresent := false
  sysClockFreqMhz _ := 150
  serving _ := ⟨true, 0, []⟩

/-- The header, the hardware information and the slots of a build for the board. -/
def built (reserved : UInt8) (slotTypes : List UInt8) : List UInt8 :=
  ONEROM_METADATA_MAGIC ++ [3, 0, 0, 0, 0x40, 0xC0, 0, 0x10, 0x40, 0xC0, 0, 0x10,
    UInt8.ofNat slotTypes.length, 0, 0, 0, 0x80, 0xC0, 0, 0x10, reserved] ++ List.replicate 27 0xFF ++
  [0x60, 0xC0, 0, 0x10, 1, 0xFF, 0xFF, 28, 0xFF, 0xFF, 0xFF, 0xFF, 0xFF, 0xFF, 0xFF, 0xFF, 26, 27,
    0xFF, 0xFF, 0xFF, 0xFF, 0xFF, 0] ++ List.replicate 40 0xFF ++
  slotTypes.flatMap fun slotType => List.replicate 13 0xFF ++ [slotType] ++ List.replicate 18 0xFF

lemma testBit_levels (a b : Prop) [Decidable a] [Decidable b] :
    ((if a then 0x4000000 else 0) ||| (if b then 0x8000000 else 0) : UInt64).toNat.testBit 26 =
        decide a ∧
      ((if a then 0x4000000 else 0) ||| (if b then 0x8000000 else 0) : UInt64).toNat.testBit 27 =
        decide b := by
  split_ifs with ha hb hb <;> simp only [ha, hb, decide_true, decide_false] <;> decide

lemma steady_deviceOf (bytes : List UInt8) (closed : ℕ → Bool) :
    Steady (deviceOf bytes closed) fire24c closed := by
  intro pulls sample ii hii
  have hcases : ii = 0 ∨ ii = 1 := by
    have : ii < 2 := hii
    omega
  have hopen : ∀ (pull : Option Bool) (closed : Bool),
      (closed → decide (pull = some true ∧ closed = false) = false) ∧
        (closed = false → ∀ up ∈ pull, decide (pull = some true ∧ closed = false) = up) := by decide
  rcases hcases with rfl | rfl
  · have hbit : ((deviceOf bytes closed).levels pulls sample).toNat.testBit 26 =
        decide (pulls 26 = some true ∧ closed 0 = false) := (testBit_levels _ _).1
    exact hbit ▸ hopen (pulls 26) (closed 0)
  · have hbit : ((deviceOf bytes closed).levels pulls sample).toNat.testBit 27 =
        decide (pulls 27 = some true ∧ closed 1 = false) := (testBit_levels _ _).2
    exact hbit ▸ hopen (pulls 27) (closed 1)

/-- A system plugin and three images, with the second select pin reserved. -/
def pluginAndImages : DeviceConfig where
  chipSets := [⟨.single, [{ chipType := .systemPlugin }]⟩, ⟨.single, [{ chipType := .chip27256 }]⟩,
    ⟨.single, [{ chipType := .chip27256 }]⟩, ⟨.single, [{ chipType := .chip27256 }]⟩]
  version := ⟨0, 8, 0⟩
  turboBoot := false
  reservedSelPins := 2

/-- A system plugin with nothing to serve. -/
def pluginAlone : DeviceConfig where
  chipSets := [⟨.single, [{ chipType := .systemPlugin }]⟩]
  version := ⟨0, 8, 0⟩
  turboBoot := false
  reservedSelPins := 0

/-- With the first jumper closed the second image is served. -/
theorem jumpers_agree_pluginAndImages :
    Agrees pluginAndImages fire24c (deviceOf (built 2 [0, 3, 3, 3]) (· = 0)) (· = 0) := by
  refine jumpers_agree ⟨⟨3, rfl⟩, rfl, by decide, by decide⟩
    ⟨⟨.single, [{ chipType := .chip27256 }]⟩, by decide, by decide⟩ ?_ (steady_deviceOf _ _) ?_
  · refine ⟨by decide +kernel, by decide +kernel, by decide +kernel, by decide +kernel,
      by decide +kernel, by decide +kernel, by decide +kernel, by decide +kernel, by decide +kernel⟩
  · exact by decide +kernel

/-- A plugin alone is accepted, and boots to limp mode. -/
theorem jumpers_disagree_pluginAlone :
    Accepted pluginAlone ∧ Holds (deviceOf (built 0 [0]) fun _ => false) pluginAlone fire24c ∧
      Steady (deviceOf (built 0 [0]) fun _ => false) fire24c (fun _ => false) ∧
      Boots (deviceOf (built 0 [0]) fun _ => false) ∧
      ¬ Agrees pluginAlone fire24c (deviceOf (built 0 [0]) fun _ => false) fun _ => false := by
  refine ⟨⟨⟨0, rfl⟩, rfl, by decide, by decide⟩, ?_, steady_deviceOf _ _, ?_, fun h => ?_⟩
  · refine ⟨by decide +kernel, by decide +kernel, by decide +kernel, by decide +kernel,
      by decide +kernel, by decide +kernel, by decide +kernel, by decide +kernel, by decide +kernel⟩
  · exact by decide +kernel
  · obtain ⟨i, hi, himage, -⟩ := h.image
    obtain rfl : i = 0 := Nat.lt_one_iff.mp hi
    exact himage rfl

end OneRom.JumperChoice
