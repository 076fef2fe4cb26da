import OneRom.PinMaps

/-!
The bits of a captured address that its decoding reads.

The monitor captures the GPIOs of the address window, and nothing compares the select lines' positions
with it. `capture_inside_iff` says when they are all in the captured word.
-/

namespace OneRom.Capture

open OneRom.AlgConfig OneRom.ChipTypes OneRom.DeriveCs OneRom.Hw OneRom.Layout OneRom.PinMaps
open OneRom.RomSlot OneRom.SlotLayout

/-! ### Positions -/

/-- The GPIOs whose positions are computed: of the address lines, of the select lines that are
mapped to, of those that are checked, and of the X pins. -/
def computedPins (slot : OneromRomSlot) (hw : OneromHardwareInfo) : List ℕ :=
  addrPins slot ++ (if slot.slotType = .multiRom then firstRomPins slot else []) ++
    (pinChecks slot).map (·.gpio) ++ (v2GetXPinGpios slot hw (addrBase slot)).toList

/-- The positions that are computed. -/
def computedBits (slot : OneromRomSlot) (hw : OneromHardwareInfo) : List ℕ :=
  (computedPins slot hw).map (bitPos · (addrBase slot)) ++ qualifierBits slot

/-- The positions of the bits that decide a check of the control pins. A pin that is forced decides
without one. -/
def decidingBits (slot : OneromRomSlot) (hw : OneromHardwareInfo) : List ℕ :=
  (((pinChecks slot).map (·.gpio)).filter (fun g => !(v2GetGpioOverride slot g).forced) ++
    xPins slot hw).map (bitPos · (addrBase slot)) ++ qualifierBits slot

/-- Every position is one of a word's, and every bit that decides is captured. -/
def CaptureInside (slot : OneromRomSlot) (hw : OneromHardwareInfo) : Prop :=
  (∀ p ∈ computedBits slot hw, p < 32) ∧
    ∀ p ∈ decidingBits slot hw, p < slot.alg.algAddr.numAddrPins

/-- The decoding reads the captured bits alone. -/
def CapturedOnly (slot : OneromRomSlot) (hw : OneromHardwareInfo) : Prop :=
  ∀ word word' check, (∀ p < slot.alg.algAddr.numAddrPins, word.testBit p = word'.testBit p) →
    pioDemangleObservedAddr slot hw word check = pioDemangleObservedAddr slot hw word' check

/-- The GPIOs of the select lines that are checked: of a Multi set the first chip's own, and of
other sets those of the select span but for its gap. -/
def checkedGpios (cs : CsDataLayout) (setType : ChipSetType) : List ℕ :=
  if cs.algCs2.isSome then [cs.gpioBase + cs.baseCsPin]
  else if setType = .multi then [firstSelect cs]
  else ((List.range cs.numCsPins).filter fun i => cs.csIgnoreIndex ≠ some i).map
    fun i => cs.gpioBase + cs.baseCsPin + i

/-- The GPIOs of the address lines that, all high, deselect the chip. -/
def qualifierGpios (cs : CsDataLayout) : List ℕ :=
  match cs.algCs2 with
  | some cs2 => List.range' (cs.gpioBase + cs2.baseQualifierPin) cs2.numQualifierPins
  | none => []

/-- The GPIO is in the address window, and so it is captured. -/
def InWindow (addr : AddrLayout) (g : ℕ) : Prop :=
  addr.gpioBase ≤ g ∧ g < addr.gpioBase + addr.numAddrPins

/-! ### A word that agrees -/

section Agree

variable {slot : OneromRomSlot} {hw : OneromHardwareInfo} {word word' n : ℕ}

lemma readBit_congr (h : ∀ p < n, word.testBit p = word'.testBit p) {p : ℕ} (hp : p < n) :
    readBit word p = readBit word' p := by
  rw [readBit, readBit, h p hp]

lemma gatherPins_congr {pins : List ℕ} {f f' : ℕ → Bool} (h : ∀ g ∈ pins, f g = f' g) :
    gatherPins pins f = gatherPins pins f' := by
  unfold gatherPins
  refine List.foldl_ext _ _ _ fun acc p hp => ?_
  obtain ⟨g, i⟩ := p
  dsimp only
  rw [h g (List.fst_mem_of_mem_zipIdx hp)]

lemma all_congr_mem {α : Type} {l : List α} {f f' : α → Bool} (h : ∀ x ∈ l, f x = f' x) :
    l.all f = l.all f' := by
  rw [Bool.eq_iff_iff, List.all_eq_true, List.all_eq_true]
  exact forall₂_congr fun x hx => by rw [h x hx]

/-- Where all that is read is captured, words that agree there are decoded alike. -/
lemma capturedOnly_of_bits (h : ∀ p ∈ (addrPins slot).map (bitPos · (addrBase slot)),
      p < slot.alg.algAddr.numAddrPins)
    (hdeciding : ∀ p ∈ decidingBits slot hw, p < slot.alg.algAddr.numAddrPins) :
    CapturedOnly slot hw := by
  intro word word' check hagree
  have hpins : ∀ c ∈ pinChecks slot, c.passes slot word = c.passes slot word' := by
    intro c hc
    unfold PinCheck.passes
    have hread : (v2GetGpioOverride slot c.gpio).forced = false →
        readBit word (bitPos c.gpio (addrBase slot)) =
          readBit word' (bitPos c.gpio (addrBase slot)) := fun hforced =>
      readBit_congr hagree <| hdeciding _ <| List.mem_append_left _ <|
        List.mem_map.mpr ⟨c.gpio, List.mem_append_left _ <| List.mem_filter.mpr
          ⟨List.mem_map.mpr ⟨c, hc, rfl⟩, by simp [hforced]⟩, rfl⟩
    cases hoverride : v2GetGpioOverride slot c.gpio with
    | normal => dsimp only; rw [hread (by rw [hoverride]; rfl)]
    | invert => dsimp only; rw [hread (by rw [hoverride]; rfl)]
    | low => rfl
    | high => rfl
  have hx : ∀ g ∈ xPins slot hw,
      (!readBit word (bitPos g (addrBase slot))) = !readBit word' (bitPos g (addrBase slot)) := by
    intro g hg
    rw [readBit_congr hagree (hdeciding _ (List.mem_append_left _ (List.mem_map.mpr
      ⟨g, List.mem_append_right _ hg, rfl⟩)))]
  have hqual : deselected slot word = deselected slot word' := by
    have hgather : gatherPins (qualifierBits slot) (readBit word) =
        gatherPins (qualifierBits slot) (readBit word') := gatherPins_congr fun p hp =>
      readBit_congr hagree (hdeciding p (List.mem_append_right _ hp))
    unfold deselected
    rw [hgather]
  have hcontrol : controlPinsOk slot hw word = controlPinsOk slot hw word' := by
    rw [controlPinsOk, controlPinsOk, all_congr_mem hpins, all_congr_mem hx, hqual]
  have haddr : ∀ g ∈ addrPins slot, (v2GetGpioOverride slot g).apply
      (readBit word (bitPos g (addrBase slot))) = (v2GetGpioOverride slot g).apply
        (readBit word' (bitPos g (addrBase slot))) := fun g hg => by
    rw [readBit_congr hagree (h _ (List.mem_map.mpr ⟨g, hg, rfl⟩))]
  rw [pioDemangleObservedAddr, pioDemangleObservedAddr, hcontrol, gatherPins_congr haddr]

end Agree

/-! ### The slots that are built -/

section Slots

variable {board : Board} {setType : ChipSetType} {chip0 : Chip} {chips : List Chip}
  {slot : OneromRomSlot} {addr : AddrLayout} {cs : CsDataLayout} {ctx : SlotContext}

lemma multiRom_iff (h : SlotOk board setType chip0 chips slot addr cs ctx) :
    slot.slotType = .multiRom ↔ setType = .multi := by
  rw [h.slotType]
  cases setType with
  | single => rw [romSlotType]; split_ifs <;> simp
  | banked => simp [romSlotType]
  | multi => simp [romSlotType]

/-- A GPIO of the select span is one of the first 48. -/
lemma span_lt (h : SlotOk board setType chip0 chips slot addr cs ctx) {i : ℕ}
    (hi : i < cs.numCsPins) : cs.gpioBase + cs.baseCsPin + i < 48 := by
  have hbase := h.csOk.base
  have hwithin := h.csOk.csWithin
  omega

lemma firstSelect_bounds (h : SlotOk board setType chip0 chips slot addr cs ctx) :
    cs.gpioBase ≤ firstSelect cs ∧ firstSelect cs < 48 ∧
      firstSelect cs ∈ usedGpios addr cs slot.alg.algData := by
  obtain ⟨line, hline, hgpio⟩ := h.csOk.firstSelect_mem
  obtain ⟨i, hi, heq⟩ := h.csOk.spanned line (List.mem_append_left _ hline)
  have hlt := span_lt h hi
  refine ⟨by omega, by omega, ?_⟩
  have hmem : firstSelect cs ∈ cs.selectLines.map (·.gpio) := List.mem_map.mpr ⟨line, hline, hgpio⟩
  simp only [usedGpios, List.mem_append]
  tauto

lemma span_used {i : ℕ} (hi : i < cs.numCsPins) :
    cs.gpioBase + cs.baseCsPin + i ∈ usedGpios addr cs slot.alg.algData := by
  have hmem : cs.gpioBase + cs.baseCsPin + i ∈
      List.range' (cs.gpioBase + cs.baseCsPin) cs.numCsPins :=
    List.mem_range'_1.mpr ⟨by omega, by omega⟩
  simp only [usedGpios, List.mem_append]
  tauto

lemma numCsPins_pos (h : SlotOk board setType chip0 chips slot addr cs ctx) : 0 < cs.numCsPins := by
  obtain ⟨line, hline, -⟩ := h.csOk.firstSelect_mem
  obtain ⟨i, hi, -⟩ := h.csOk.spanned line (List.mem_append_left _ hline)
  omega

lemma pinChecks_gpios (h : SlotOk board setType chip0 chips slot addr cs ctx) :
    (pinChecks slot).map (·.gpio) = checkedGpios cs setType := by
  have hspan : ∀ i < cs.numCsPins, (cs.gpioBase + cs.baseCsPin + i) % 256 =
      cs.gpioBase + cs.baseCsPin + i := fun i hi => by
    have := span_lt h hi
    omega
  obtain ⟨hle, hlt, -⟩ := firstSelect_bounds h
  rw [pinChecks, h.algOk.algCs, buildAlgCs, checkedGpios, h.setType_eq]
  cases hcs2 : cs.algCs2 with
  | some cs2 =>
    have hzero := hspan 0 (numCsPins_pos h)
    rw [Nat.add_zero] at hzero
    simp [hzero]
  | none =>
    cases hgap : cs.csIgnoreIndex with
    | none =>
      by_cases hmulti : setType = .multi
      · have hfirst : firstRomCs cs .multi = (firstSelect cs - cs.gpioBase, 1) := rfl
        have hgpio : (cs.gpioBase + (firstSelect cs - cs.gpioBase)) % 256 = firstSelect cs := by
          omega
        simp [(multiRom_iff h).mpr hmulti, hfirst, hgpio, hmulti]
      · simp only [multiRom_iff h, hmulti, if_false, List.map_map]
        simpa using hspan
    | some j =>
      have hmulti := (h.csOk.gap j hgap).2
      rw [h.setType_eq] at hmulti
      have hfilter : ∀ i, (i ≠ j) = (some j ≠ some i) := fun i => by
        rw [ne_eq, ne_eq, Option.some.injEq, eq_comm (a := i)]
      simp only [hmulti, if_false, List.map_map, hfilter]
      simpa using fun i hi _ => hspan i hi

/-- The positions of the address lines that deselect, of which there are as many as GPIOs. -/
lemma qualifierBits_eq (h : SlotOk board setType chip0 chips slot addr cs ctx) :
    qualifierBits slot =
      match cs.algCs2 with
      | some cs2 => List.range' (bitPos (cs.gpioBase + cs2.baseQualifierPin) addr.gpioBase)
          cs2.numQualifierPins
      | none => [] := by
  rw [qualifierBits, h.algOk.algCs, buildAlgCs]
  cases hcs2 : cs.algCs2 with
  | some cs2 =>
    have hwithin := h.csOk.qualifiers cs2 hcs2
    have hbase := h.csOk.base
    dsimp only
    rw [addrBase_eq h, Nat.mod_eq_of_lt (show cs.gpioBase + cs2.baseQualifierPin < 256 by omega)]
  | none =>
    cases cs.csIgnoreIndex <;> rfl

/-- The lines that deselect are captured exactly where their bits are. -/
lemma qualifierBits_iff (h : SlotOk board setType chip0 chips slot addr cs ctx) :
    (∀ p ∈ qualifierBits slot, p < addr.numAddrPins) ↔ ∀ g ∈ qualifierGpios cs, InWindow addr g := by
  obtain ⟨hn, hle⟩ := window_bounds h.window
  rw [qualifierBits_eq h, qualifierGpios]
  cases hcs2 : cs.algCs2 with
  | none => simp
  | some cs2 =>
    have hwithin := h.csOk.qualifiers cs2 hcs2
    have hbase := h.csOk.base
    dsimp only
    generalize hfirst : cs.gpioBase + cs2.baseQualifierPin = first
    constructor
    · intro hall g hg
      obtain ⟨hge, hlast⟩ := List.mem_range'_1.mp hg
      have hp := hall (bitPos first addr.gpioBase + (g - first))
        (List.mem_range'_1.mpr ⟨by omega, by omega⟩)
      have hin : addr.gpioBase ≤ first ∧ first < addr.gpioBase + addr.numAddrPins :=
        (bitPos_lt_iff (by omega) (by omega) hn).mp (by omega)
      rw [bitPos_of_le hin.1 (by omega)] at hp
      exact ⟨by omega, by omega⟩
    · intro hall p hp
      obtain ⟨hge', hlast⟩ := List.mem_range'_1.mp hp
      obtain ⟨hge, -⟩ := hall first (List.mem_range'_1.mpr ⟨by omega, by omega⟩)
      rw [bitPos_of_le hge (by omega)] at hge' hlast
      obtain ⟨-, hlt⟩ := hall (first + (p - (first - addr.gpioBase)))
        (List.mem_range'_1.mpr ⟨by omega, by omega⟩)
      omega

/-- An X pin that is found is in the address window. -/
lemma xPins_window (h : SlotOk board setType chip0 chips slot addr cs ctx) (hw : OneromHardwareInfo)
    {g : ℕ} (hg : g ∈ (v2GetXPinGpios slot hw (addrBase slot)).toList) : InWindow addr g := by
  obtain ⟨-, hle⟩ := window_bounds h.window
  have hmem : ∀ {f : ℕ → Bool} {f' : ℕ → Bool},
      g ∈ (((List.range' addr.gpioBase ((addr.gpioBase + addr.numAddrPins) % 256 -
        addr.gpioBase)).filter f).filter f').getLast?.toList → InWindow addr g := fun hg => by
    rw [Option.mem_toList] at hg
    have hrange := List.mem_range'_1.mp
      (List.mem_of_mem_filter (List.mem_of_mem_filter (List.mem_of_getLast? hg)))
    rw [Nat.mod_eq_of_lt (show addr.gpioBase + addr.numAddrPins < 256 by omega)] at hrange
    exact ⟨by omega, by omega⟩
  rw [v2GetXPinGpios, addrBase_eq h, numAddrPins_eq h] at hg
  split_ifs at hg
  · cases hg
  · rcases List.mem_append.mp hg with hg | hg
    · exact hmem hg
    · exact hmem hg

/-- A select line that is checked is one of the first 48 GPIOs, and isn't forced. -/
lemma checkedGpios_used (h : SlotOk board setType chip0 chips slot addr cs ctx) {g : ℕ}
    (hg : g ∈ checkedGpios cs setType) : g < 48 ∧ (v2GetGpioOverride slot g).forced = false := by
  unfold checkedGpios at hg
  split_ifs at hg
  · obtain rfl := List.mem_singleton.mp hg
    have hpos := numCsPins_pos h
    exact ⟨span_lt h hpos, override_of_used h (span_used hpos)⟩
  · obtain rfl := List.mem_singleton.mp hg
    obtain ⟨-, hlt, hused⟩ := firstSelect_bounds h
    exact ⟨hlt, override_of_used h hused⟩
  · obtain ⟨i, hi, rfl⟩ := List.mem_map.mp hg
    have hi := List.mem_range.mp (List.mem_of_mem_filter hi)
    exact ⟨span_lt h hi, override_of_used h (span_used hi)⟩

/-- The select line of a Multi set's first chip is the one that is checked. -/
lemma firstRomPins_mem (h : SlotOk board setType chip0 chips slot addr cs ctx) {g : ℕ}
    (hmulti : setType = .multi) (hg : g ∈ firstRomPins slot) : g ∈ checkedGpios cs setType := by
  obtain ⟨hle, hlt, -⟩ := firstSelect_bounds h
  have hgap : cs.csIgnoreIndex = none := by
    by_contra hne
    obtain ⟨j, hj⟩ := Option.ne_none_iff_exists'.mp hne
    exact (h.csOk.gap j hj).2 (h.setType_eq.trans hmulti)
  rw [firstRomPins, h.algOk.algCs, buildAlgCs, h.setType_eq, hgap] at hg
  cases hcs2 : cs.algCs2 with
  | some cs2 =>
    rw [hcs2] at hg
    cases hg
  | none =>
    have hfirst : firstRomCs cs .multi = (firstSelect cs - cs.gpioBase, 1) := rfl
    rw [hcs2, hmulti] at hg
    dsimp only at hg
    rw [hfirst, show (cs.gpioBase + (firstSelect cs - cs.gpioBase)) % 256 = firstSelect cs by omega,
      show (firstSelect cs + 1) % 256 - firstSelect cs = 1 by omega] at hg
    simpa [checkedGpios, hcs2, hmulti] using hg

/-- A slot's bits are inside the captured word exactly where its select lines, and the lines that
deselect, are in the address window. -/
lemma captureInside_iff (h : SlotOk board setType chip0 chips slot addr cs ctx)
    (hw : OneromHardwareInfo) :
    CaptureInside slot hw ↔ ∀ g ∈ checkedGpios cs setType ++ qualifierGpios cs, InWindow addr g := by
  obtain ⟨hn, hle⟩ := window_bounds h.window
  have hlt_iff : ∀ {g : ℕ}, g < 48 →
      (bitPos g addr.gpioBase < addr.numAddrPins ↔ InWindow addr g) := fun hg =>
    bitPos_lt_iff (by omega) hg hn
  rw [CaptureInside, numAddrPins_eq h]
  constructor
  · rintro ⟨-, hdeciding⟩ g hg
    rcases List.mem_append.mp hg with hg | hg
    · obtain ⟨hlt, hforced⟩ := checkedGpios_used h hg
      have hp := hdeciding (bitPos g addr.gpioBase) (List.mem_append_left _ (List.mem_map.mpr
        ⟨g, List.mem_append_left _ (List.mem_filter.mpr
          ⟨(pinChecks_gpios h).symm ▸ hg, by simp [hforced]⟩), by rw [addrBase_eq h]⟩))
      exact (hlt_iff hlt).mp hp
    · exact (qualifierBits_iff h).mp (fun p hp => hdeciding p (List.mem_append_right _ hp)) g hg
  · intro hall
    have hqual := (qualifierBits_iff h).mpr fun g hg => hall g (List.mem_append_right _ hg)
    have hchecked : ∀ g ∈ (pinChecks slot).map (·.gpio), InWindow addr g := fun g hg =>
      hall g (List.mem_append_left _ (pinChecks_gpios h ▸ hg))
    have hpos : ∀ {g : ℕ}, InWindow addr g → bitPos g (addrBase slot) < addr.numAddrPins :=
      fun ⟨hge, hlt⟩ => by
        rw [addrBase_eq h, bitPos_of_le hge (by omega)]
        omega
    refine ⟨fun p hp => ?_, fun p hp => ?_⟩
    · rcases List.mem_append.mp hp with hp | hp
      · obtain ⟨g, hg, rfl⟩ := List.mem_map.mp hp
        refine (hpos ?_).trans_le hn
        simp only [computedPins, List.mem_append] at hg
        rcases hg with ((hg | hg) | hg) | hg
        · exact addr_lt h (addrPins_eq h ▸ hg)
        · split_ifs at hg with hmulti
          · exact hall g (List.mem_append_left _
              (firstRomPins_mem h ((multiRom_iff h).mp hmulti) hg))
          · cases hg
        · exact hchecked g hg
        · exact xPins_window h hw hg
      · exact (hqual p hp).trans_le hn
    · rcases List.mem_append.mp hp with hp | hp
      · obtain ⟨g, hg, rfl⟩ := List.mem_map.mp hp
        refine hpos ?_
        rcases List.mem_append.mp hg with hg | hg
        · exact hchecked g (List.mem_of_mem_filter hg)
        · unfold xPins at hg
          split at hg
          · split_ifs at hg
            · exact xPins_window h hw hg
            · cases hg
          · cases hg
      · exact hqual p hp

/-- The address lines are captured. -/
lemma addrPins_captured (h : SlotOk board setType chip0 chips slot addr cs ctx) :
    ∀ p ∈ (addrPins slot).map (bitPos · (addrBase slot)), p < slot.alg.algAddr.numAddrPins := by
  obtain ⟨hn, hle⟩ := window_bounds h.window
  intro p hp
  obtain ⟨g, hg, rfl⟩ := List.mem_map.mp hp
  obtain ⟨hge, hlt⟩ := addr_lt h (addrPins_eq h ▸ hg)
  rw [addrBase_eq h, numAddrPins_eq h, bitPos_of_le hge (by omega)]
  omega

end Slots

/-- **Captures**: the bits that decoding a slot's captures reads are captured exactly where the
select lines it checks, and the address lines that deselect, are in the address window. There,
decoding reads the captured bits alone. -/
theorem capture_inside_iff {board : Board} {setType : ChipSetType} {chip0 : Chip}
    {chips : List Chip} {force16Bit : Bool} {slot : OneromRomSlot} {addr : AddrLayout}
    {cs : CsDataLayout}
    (h : buildRomSlot board setType chip0 chips force16Bit = .ok (slot, addr, cs)) :
    (CaptureInside slot (buildHardwareInfo board) ↔
      ∀ g ∈ checkedGpios cs setType ++ qualifierGpios cs, InWindow addr g) ∧
    (CaptureInside slot (buildHardwareInfo board) →
      CapturedOnly slot (buildHardwareInfo board)) := by
  obtain ⟨ctx, hslot⟩ := buildRomSlot_ok h
  exact ⟨captureInside_iff hslot _, fun hinside =>
    capturedOnly_of_bits (addrPins_captured hslot) hinside.2⟩

/-! ### A slot of a 28 pin board -/

/-- A 27256, whose select lines are below its address lines on this board. -/
def chip27256 : Chip := ⟨.chip27256, .ceOe, none⟩

/-- The select lines' positions wrap. -/
theorem capture_outside : ∃ slot addr cs,
    buildRomSlot fire28A .single chip27256 [] false = .ok (slot, addr, cs) ∧
      254 ∈ computedBits slot (buildHardwareInfo fire28A) ∧
      ¬CaptureInside slot (buildHardwareInfo fire28A) := by
  have hbits : ∃ slot addr cs,
      buildRomSlot fire28A .single chip27256 [] false = .ok (slot, addr, cs) ∧
        254 ∈ computedBits slot (buildHardwareInfo fire28A) := by
    refine ⟨_, _, _, rfl, ?_⟩
    decide
  obtain ⟨slot, addr, cs, hbuild, hmem⟩ := hbits
  exact ⟨slot, addr, cs, hbuild, hmem, fun hinside => absurd (hinside.1 254 hmem) (by decide)⟩

/-- A 2364, whose select line is among its address lines on the board. -/
def chip2364 : Chip := ⟨.chip2364, .chipSelect .activeLow none none none, none⟩

/-- What `capture_inside_iff` says of a 2364. -/
theorem capture_inside_2364 : ∃ slot addr cs,
    buildRomSlot fire24A .single chip2364 [] false = .ok (slot, addr, cs) ∧
      CaptureInside slot (buildHardwareInfo fire24A) := by
  have hbuild : ∃ slot addr cs,
      buildRomSlot fire24A .single chip2364 [] false = .ok (slot, addr, cs) ∧
        checkedGpios cs .single ++ qualifierGpios cs = [13] ∧
        addr.gpioBase = 0 ∧ addr.numAddrPins = 16 := by
    refine ⟨_, _, _, rfl, ?_, ?_, ?_⟩ <;> decide
  obtain ⟨slot, addr, cs, hslot, hgpios, hbase, hnum⟩ := hbuild
  refine ⟨slot, addr, cs, hslot, (capture_inside_iff hslot).1.mpr ?_⟩
  rw [hgpios]
  rintro g hg
  obtain rfl := List.mem_singleton.mp hg
  exact ⟨by omega, by omega⟩

end OneRom.Capture
