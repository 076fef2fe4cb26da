import OneRom.BitLines
import OneRom.PinMaps

/-!
The overrides of a slot's GPIOs.

Four builders each write overrides of their own. `overrides_apart` says that no GPIO has two, and
that a GPIO of the address window that nothing uses is forced low, so that its level never matters.
-/

namespace OneRom.Overrides

open OneRom.AlgConfig OneRom.BitLines OneRom.Bonds OneRom.Checks OneRom.ChipTypes OneRom.CsConfig
open OneRom.DeriveAddr OneRom.DeriveCs OneRom.Hw OneRom.Layout OneRom.MultiCs OneRom.RomSlot
open OneRom.SlotLayout
open OneRom.PinMaps (addrBase addrBase_eq numAddrPins_eq)

/-! ### Chips -/

/-- A chip's pins are one line's each, and an address line is no control line. -/
lemma pins_apart (t : ChipType) :
    (t.controlLines.map (·.pin)).Nodup ∧ (t.controlLines.map (·.name)).Nodup ∧
      ∀ pin ∈ t.addressPins, pin ∉ t.controlLines.map (·.pin) := by
  cases t <;> decide

lemma controlKinds_nodup (t : ChipType) : (controlKinds t).Nodup := by
  cases t <;> decide

/-- The ROM table has room for all address lines but one. -/
lemma length_addressPins_le (t : ChipType) : t.addressPins.length ≤ 20 := by
  cases t <;> decide

/-- A chip that has words of 8 and of 16 bits has 40 pins, and `/BYTE` at pin 31. -/
lemma byte_pin {t : ChipType} (h8 : t.supportsBitMode 8) (h16 : t.supportsBitMode 16) :
    t.chipPins = 40 ∧ 31 ∉ t.addressPins ∧
      ∀ line ∈ t.controlLines, nameToControlLineKind line.name ≠ none → line.pin ≠ 31 := by
  revert h8 h16
  cases t <;> decide

variable {ctx : SlotContext}

lemma length_excess_le (ctx : SlotContext) :
    (ctx.addressLines.drop ctx.numInRange).length ≤ 1 := by
  have hlen := length_addressPins_le ctx.chip0
  have h8 : Nat.log2 (MAX_IMAGE_SIZE / 1) = 19 := by decide +kernel
  have h16 : Nat.log2 (MAX_IMAGE_SIZE / 2) = 18 := by decide +kernel
  have hmode : ctx.addressLines.length ≤ Nat.log2 (MAX_IMAGE_SIZE / ctx.bitMode.bytesPerWord) + 1 := by
    unfold SlotContext.addressLines SlotContext.addrLineStart
    rw [List.length_drop]
    cases ctx.bitMode with
    | bitMode8 =>
      rw [if_neg (by decide), show BitModes.bitMode8.bytesPerWord = 1 from rfl, h8]
      omega
    | bitMode16 =>
      rw [if_pos rfl, show BitModes.bitMode16.bytesPerWord = 2 from rfl, h16]
      omega
  rw [List.length_drop, SlotContext.numInRange]
  omega

/-! ### Places -/

/-- A pin of the first chip, or an X pin. -/
inductive Place
  | pin (p : ℕ)
  | x (n : ℕ)
  deriving DecidableEq

/-- A GPIO of a place. -/
def At (ctx : SlotContext) : Place → ℕ → Prop
  | .pin p, g => BondedTo ctx p g
  | .x n, g => g ∈ ctx.board.gpiosForXPin n

/-- A GPIO is of one place. -/
lemma at_inj {a b : Place} {g : ℕ} (ha : At ctx a g) (hb : At ctx b g) : a = b := by
  cases a with
  | pin p =>
    cases b with
    | pin q => rw [bondedTo_inj ha hb]
    | x n =>
      obtain ⟨m, -, hg⟩ := ha
      cases Board.pin_eq (show g ∈ ctx.board.gpios (.socket m) from hg)
        (show g ∈ ctx.board.gpios (.x n) from hb)
  | x m =>
    cases b with
    | pin q =>
      obtain ⟨n, -, hg⟩ := hb
      cases Board.pin_eq (show g ∈ ctx.board.gpios (.x m) from ha)
        (show g ∈ ctx.board.gpios (.socket n) from hg)
    | x n =>
      cases Board.pin_eq (show g ∈ ctx.board.gpios (.x m) from ha)
        (show g ∈ ctx.board.gpios (.x n) from hb)
      rfl

lemma at_lt {a : Place} {g : ℕ} (h : At ctx a g) : g < 48 := by
  cases a with
  | pin p =>
    obtain ⟨n, -, hg⟩ := h
    exact Board.lt_of_mem_gpios (show g ∈ ctx.board.gpios (.socket n) from hg)
  | x n => exact Board.lt_of_mem_gpios (show g ∈ ctx.board.gpios (.x n) from h)

/-- The place of a line that selects: a control line's pin, or in a Multi set an X pin. -/
def SelectPlace (ctx : SlotContext) : Place → Prop
  | .pin p => ∃ line ∈ ctx.chip0.controlLines, nameToControlLineKind line.name ≠ none ∧ line.pin = p
  | .x _ => ctx.setType = .multi

/-- The place of an address line: its pin, or in a set of one chip an X pin. -/
def AddressPlace (ctx : SlotContext) : Place → Prop
  | .pin p => p ∈ ctx.chip0.addressPins
  | .x _ => ctx.setType = .single

lemma selectPlace_ne {a b : Place} (ha : SelectPlace ctx a) (hb : AddressPlace ctx b) : a ≠ b := by
  rintro rfl
  cases a with
  | pin p =>
    obtain ⟨line, hline, -, rfl⟩ := ha
    exact (pins_apart ctx.chip0).2.2 _ hb (List.mem_map_of_mem hline)
  | x n =>
    have hset : ChipSetType.multi = .single := Eq.trans (Eq.symm ha) hb
    cases hset

/-- The GPIO of an address line is of its place. -/
lemma place_of_addressAt {pin g : ℕ} (hpin : pin ∈ ctx.addressLines) (h : AddressAt ctx pin g) :
    ∃ a, AddressPlace ctx a ∧ At ctx a g := by
  obtain ⟨p, hp, hg⟩ := h
  cases hp with
  | socket hn => exact ⟨.pin pin, List.mem_of_mem_drop hpin, _, hn, hg⟩
  | flyLead hset => exact ⟨.x _, hset, hg⟩

/-! ### The lines that select -/

/-- The select of a Multi set and the lines its chips share are different lines. -/
def Distinct (ctx : SlotContext) : Prop :=
  ∀ mcc, ctx.multiCsConfig = some mcc → (mcc.perChipSelect :: mcc.commonedLines).Nodup

lemma line_mem {t : ChipType} {name : LineName} {line : ControlLineSpec} (h : t.line name = some line) :
    line ∈ t.controlLines ∧ line.name = name :=
  ⟨List.mem_of_find?_eq_some h, by simpa using List.find?_some h⟩

/-- A control line's pin is the line's alone. -/
lemma kind_of_pin {t : ChipType} {kind kind' : ControlLineKind} {line line' : ControlLineSpec}
    (h : t.line kind.name = some line) (h' : t.line kind'.name = some line')
    (hpin : line.pin = line'.pin) : kind = kind' := by
  obtain ⟨hmem, hname⟩ := line_mem h
  obtain ⟨hmem', hname'⟩ := line_mem h'
  have hline : line = line' := List.inj_on_of_nodup_map (pins_apart t).1 hmem hmem' hpin
  exact name_injective (by rw [← hname, ← hname', hline])

/-- Candidates are at places of their own. -/
def AtPlaces (ctx : SlotContext) (places : List Place) (cs : List Candidate) : Prop :=
  List.Forall₂ (fun a c => ∀ g ∈ c.gpios, At ctx a g) places cs

lemma multiLine_place {kind : ControlLineKind} {c : Candidate} (h : multiLine ctx kind = .ok c) :
    ∃ line, ctx.chip0.line kind.name = some line ∧ SelectPlace ctx (.pin line.pin) ∧
      ∀ g ∈ c.gpios, At ctx (.pin line.pin) g := by
  obtain ⟨line, hline, -, hg⟩ := gpiosForLine_ok (multiLine_ok h).2
  obtain ⟨hmem, hname⟩ := line_mem hline
  exact ⟨line, hline, ⟨line, hmem, by simp [hname], rfl⟩, hg⟩

/-- The places of several lines of a Multi set. -/
lemma multiLines_places {kinds : List ControlLineKind} {cs : List Candidate}
    (hnodup : kinds.Nodup) (h : kinds.mapM (multiLine ctx) = .ok cs) :
    ∃ places : List Place, AtPlaces ctx places cs ∧ places.Nodup ∧
      ∀ a ∈ places, SelectPlace ctx a ∧ ∃ kind ∈ kinds, ∃ line,
        ctx.chip0.line kind.name = some line ∧ a = .pin line.pin := by
  have hall := mapM_eq_ok h
  clear h
  induction hall with
  | nil => exact ⟨[], .nil, List.nodup_nil, by simp⟩
  | @cons kind c kinds cs hc _ ih =>
    obtain ⟨hout, hnodup⟩ := List.nodup_cons.mp hnodup
    obtain ⟨places, hat, hplaces, hkinds⟩ := ih hnodup
    obtain ⟨line, hline, hselect, hg⟩ := multiLine_place hc
    refine ⟨.pin line.pin :: places, .cons hg hat, List.nodup_cons.mpr ⟨fun hin => ?_, hplaces⟩, ?_⟩
    · obtain ⟨-, kind', hkind', line', hline', heq⟩ := hkinds _ hin
      cases kind_of_pin hline hline' (Place.pin.inj heq)
      exact hout hkind'
    · rintro a (_ | ⟨_, ha⟩)
      · exact ⟨hselect, kind, List.mem_cons_self, line, hline, rfl⟩
      · obtain ⟨hsel, kind', hkind', hrest⟩ := hkinds a ha
        exact ⟨hsel, kind', List.mem_cons_of_mem _ hkind', hrest⟩

lemma multiX_places {role : SelectRole} {n : ℕ} {cs : List Candidate}
    (h : multiX ctx role n = .ok cs) :
    ∃ places : List Place, AtPlaces ctx places cs ∧ places.Nodup ∧ ∀ a ∈ places, a = .x n := by
  rw [multiX_ok h]
  split_ifs
  · exact ⟨[.x n], .cons (fun _ hg => hg) .nil, List.nodup_singleton _, by simp⟩
  · exact ⟨[], .nil, List.nodup_nil, by simp⟩

/-- The select pins of a set whose chips share them. -/
lemma selectPhysPins_eq {pins : List (SelectRole × ℕ)}
    (h : selectPhysPins ctx.board ctx.chip0 ctx.csConfig = .ok pins) :
    (pins.map (·.2)).Nodup ∧ ∀ p ∈ pins.map (·.2), SelectPlace ctx (.pin p) := by
  unfold selectPhysPins at h
  dsimp only at h
  split_ifs at h
  cases h
  have hsub : ∀ l : List ControlLineSpec, ((l.filterMap fun line => do
      let kind ← nameToControlLineKind line.name
      if controlLineLogic line.name ctx.csConfig = .ignore then none
      else some (controlLineKindToSelectRole kind, line.pin)).map (·.2)).Sublist
        ((l.filter fun line => nameToControlLineKind line.name ≠ none).map (·.pin)) := fun l => by
    induction l with
    | nil => exact List.Sublist.refl _
    | cons line l ih =>
      cases hkind : nameToControlLineKind line.name with
      | none => simpa [hkind] using ih
      | some kind =>
        by_cases hig : controlLineLogic line.name ctx.csConfig = .ignore
        · simpa [hkind, hig] using ih.cons line.pin
        · simpa [hkind, hig] using ih.cons_cons line.pin
  have hcontrol := hsub ctx.chip0.controlLines
  refine ⟨(hcontrol.trans (List.filter_sublist.map _)).nodup (pins_apart _).1, fun p hp => ?_⟩
  obtain ⟨line, hline, rfl⟩ := List.mem_map.mp (hcontrol.subset hp)
  obtain ⟨hmem, hkind⟩ := List.mem_filter.mp hline
  exact ⟨line, hmem, by simpa using hkind, rfl⟩

lemma zipWith_places {pins : List (SelectRole × ℕ)} {gpios : List (List ℕ)}
    (h : List.Forall₂ (fun pin opts => gpiosForPin ctx pin.2 = .ok opts) pins gpios) :
    AtPlaces ctx ((pins.map (·.2)).map .pin)
      (List.zipWith (fun (role, _) gpios => ⟨role, gpios⟩) pins gpios) := by
  induction h with
  | nil => exact .nil
  | cons hopts _ ih => exact .cons (fun g hg => (gpiosForPin_ok hopts).2 g hg) ih

lemma singleCandidates_places {lines : SelectCandidates} (h : singleCandidates ctx = .ok lines) :
    lines.commoned = [] ∧ ∃ places : List Place, AtPlaces ctx places lines.select ∧ places.Nodup ∧
      ∀ a ∈ places, SelectPlace ctx a := by
  obtain ⟨pins, hpins, h⟩ := bind_eq_ok.mp h
  obtain ⟨gpios, hgpios, h⟩ := bind_eq_ok.mp h
  cases pure_eq_ok.mp h
  obtain ⟨hnodup, hselect⟩ := selectPhysPins_eq hpins
  refine ⟨rfl, (pins.map (·.2)).map Place.pin, ?_, hnodup.map fun _ _ => Place.pin.inj, ?_⟩
  · exact zipWith_places (mapM_eq_ok hgpios)
  · intro a ha
    obtain ⟨p, hp, rfl⟩ := List.mem_map.mp ha
    exact hselect p hp

lemma multiCandidates_places {mcc : MultiChipCsConfig} {lines : SelectCandidates}
    (hmulti : ctx.setType = .multi) (hnodup : (mcc.perChipSelect :: mcc.commonedLines).Nodup)
    (h : multiCandidates ctx mcc = .ok lines) :
    ∃ places shared : List Place, AtPlaces ctx places lines.select ∧
      AtPlaces ctx shared lines.commoned ∧ (places ++ shared).Nodup ∧
      ∀ a ∈ places ++ shared, SelectPlace ctx a := by
  obtain ⟨select, hselect, h⟩ := bind_eq_ok.mp h
  obtain ⟨commoned, hcommoned, h⟩ := bind_eq_ok.mp h
  obtain ⟨ignored, -, h⟩ := bind_eq_ok.mp h
  obtain ⟨x1, hx1, h⟩ := bind_eq_ok.mp h
  obtain ⟨x2, hx2, h⟩ := bind_eq_ok.mp h
  cases pure_eq_ok.mp h
  obtain ⟨hout, hkinds⟩ := List.nodup_cons.mp hnodup
  obtain ⟨line, hline, hsel, hat⟩ := multiLine_place hselect
  obtain ⟨shared, hshared, hsharedNodup, hsharedAll⟩ := multiLines_places hkinds hcommoned
  obtain ⟨p1, hp1, hp1Nodup, hp1All⟩ := multiX_places hx1
  obtain ⟨p2, hp2, hp2Nodup, hp2All⟩ := multiX_places hx2
  have hnot : Place.pin line.pin ∉ shared := fun hin => by
    obtain ⟨-, kind, hkind, line', hline', heq⟩ := hsharedAll _ hin
    cases kind_of_pin hline hline' (Place.pin.inj heq)
    exact hout hkind
  have hx : ∀ a ∈ p1 ++ p2, ∃ n, a = Place.x n := fun a ha => by
    rcases List.mem_append.mp ha with ha | ha
    · exact ⟨1, hp1All a ha⟩
    · exact ⟨2, hp2All a ha⟩
  refine ⟨.pin line.pin :: p1 ++ p2, shared, ?_, hshared, ?_, ?_⟩
  · rw [List.cons_append, List.cons_append]
    exact .cons hat (List.rel_append hp1 hp2)
  · rw [List.cons_append, List.cons_append, List.nodup_cons, List.nodup_append, List.nodup_append]
    refine ⟨fun hin => ?_, ⟨hp1Nodup, hp2Nodup, fun a ha b hb hab => ?_⟩, hsharedNodup,
      fun a ha b hb hab => ?_⟩
    · rcases List.mem_append.mp hin with hin | hin
      · obtain ⟨n, hn⟩ := hx _ hin
        cases hn
      · exact hnot hin
    · rw [hp1All a ha, hp2All b hb] at hab
      cases hab
    · obtain ⟨n, rfl⟩ := hx a ha
      obtain ⟨-, kind, -, line', -, rfl⟩ := hsharedAll b hb
      cases hab
  · intro a ha
    rw [List.cons_append, List.cons_append, List.mem_cons, List.mem_append] at ha
    rcases ha with rfl | ha | ha
    · exact hsel
    · obtain ⟨n, rfl⟩ := hx a ha
      exact hmulti
    · exact (hsharedAll a ha).1

/-- The lines that select are at places of their own. -/
lemma selectCandidates_places {lines : SelectCandidates} (hdistinct : Distinct ctx)
    (h : selectCandidates ctx = .ok lines) :
    ∃ places shared : List Place, AtPlaces ctx places lines.select ∧
      AtPlaces ctx shared lines.commoned ∧ (places ++ shared).Nodup ∧
      ∀ a ∈ places ++ shared, SelectPlace ctx a := by
  unfold selectCandidates at h
  split at h
  · cases h
  · next mcc hset hmcc => exact multiCandidates_places hset (hdistinct mcc hmcc) h
  · obtain ⟨hnil, places, hat, hnodup, hall⟩ := singleCandidates_places h
    rw [hnil]
    exact ⟨places, [], hat, .nil, by rwa [List.append_nil], by rwa [List.append_nil]⟩

/-! ### A Multi set's lines -/

section Sorting

variable {chip0Config secondary : CsConfig}

/-- The lines that are sorted are the secondary's ignored ones, and the select isn't. -/
lemma sortLine_foldl_sublist (kinds : List ControlLineKind) (s : Sorted) :
    (kinds.foldl (sortLine chip0Config secondary) s).commonedLines.Sublist (s.commonedLines ++
      kinds.filter fun kind => controlLineLogic kind.name secondary = .ignore) ∧
    ∀ select, (kinds.foldl (sortLine chip0Config secondary) s).perChipSelect = some select →
      s.perChipSelect = some select ∨ controlLineLogic select.name secondary ≠ .ignore := by
  induction kinds generalizing s with
  | nil => exact ⟨by simp, fun _ h => Or.inl h⟩
  | cons kind kinds ih =>
    obtain ⟨hsub, hselect⟩ := ih (sortLine chip0Config secondary s kind)
    rw [List.foldl_cons]
    by_cases hsec : controlLineLogic kind.name secondary = .ignore
    · -- an ignored line of the secondary goes to one of the two lists
      have hstep : (sortLine chip0Config secondary s kind).perChipSelect = s.perChipSelect ∧
          (sortLine chip0Config secondary s kind).commonedLines.Sublist
            (s.commonedLines ++ [kind]) := by
        by_cases h0 : controlLineLogic kind.name chip0Config = .ignore
        · simp [sortLine, hsec, h0]
        · simp [sortLine, hsec, h0]
      refine ⟨hsub.trans ?_, fun select hs => ?_⟩
      · rw [List.filter_cons_of_pos (by simpa using hsec), ← List.singleton_append,
          ← List.append_assoc]
        exact hstep.2.append (List.Sublist.refl _)
      · rw [← hstep.1]
        exact hselect select hs
    · have hstep : sortLine chip0Config secondary s kind = { s with perChipSelect := some kind } :=
        if_pos hsec
      refine ⟨?_, fun select hs => ?_⟩
      · rw [List.filter_cons_of_neg (by simpa using hsec)]
        refine hsub.trans ?_
        rw [hstep]
      · rcases hselect select hs with heq | hne
        · rw [hstep] at heq
          cases heq
          exact Or.inr hsec
        · exact Or.inr hne

lemma deriveMultiCsConfig_nodup {t : ChipType} {mcc : MultiChipCsConfig}
    (h : deriveMultiCsConfig t chip0Config secondary = some mcc) :
    (mcc.perChipSelect :: mcc.commonedLines).Nodup := by
  unfold deriveMultiCsConfig at h
  split at h
  · cases h
    exact List.nodup_singleton _
  · dsimp only at h
    obtain ⟨select, hselect, rfl⟩ := Option.map_eq_some_iff.mp h
    obtain ⟨hsub, hactive⟩ :=
      @sortLine_foldl_sublist chip0Config secondary (controlKinds t) {}
    rcases hactive select hselect with hnone | hactive
    · cases hnone
    rw [List.nil_append] at hsub
    refine List.nodup_cons.mpr ⟨fun hin => ?_, hsub.nodup ((controlKinds_nodup t).filter _)⟩
    exact hactive (by simpa using (List.mem_filter.mp (hsub.subset hin)).2)

end Sorting

variable {board : Board} {setType : ChipSetType} {chip0 : Chip} {chips : List Chip}
  {force16Bit : Bool} {slot : OneromRomSlot} {addr : AddrLayout} {cs : CsDataLayout}

lemma slotContext_distinct (h : slotContext board setType chip0 chips force16Bit = .ok ctx) :
    Distinct ctx := by
  unfold slotContext at h
  split at h
  · cases h
  · obtain ⟨multi, hmulti, h⟩ := bind_eq_ok.mp h
    cases pure_eq_ok.mp h
    intro mcc hmcc
    dsimp only at hmcc
    subst hmcc
    unfold RomSlot.multiConfig at hmulti
    split at hmulti
    · cases hmulti
    · split at hmulti
      · cases hmulti
      · next hderive =>
        cases hmulti
        exact deriveMultiCsConfig_nodup hderive
    · cases hmulti

/-! ### What is inverted -/

/-- The GPIOs that the builders may invert. -/
def invertible (ctx : SlotContext) (addr : AddrLayout) (cs : CsDataLayout)
    (algData : OneromAlgDataConfig) : List ℕ :=
  cs.selectLines.map (·.gpio) ++ cs.commonedLines.map (·.gpio) ++ (byteGpio algData cs).toList ++
    if ctx.setType = .banked then addr.x1Gpio.toList ++ addr.x2Gpio.toList else []

lemma filterMap_zip_sublist (required : CsLogic) (lines : List SelectLine) (logics : List CsLogic) :
    ∃ gpios : List ℕ, gpios.Sublist (lines.map (·.gpio)) ∧
      ((lines.zip logics).filterMap fun (line, configured) =>
        if configured = required then none else some (encodeOverride line.gpio .invert)) =
          gpios.map (encodeOverride · .invert) := by
  induction lines generalizing logics with
  | nil => exact ⟨[], List.Sublist.refl _, rfl⟩
  | cons line lines ih =>
    cases logics with
    | nil => exact ⟨[], List.nil_sublist _, rfl⟩
    | cons configured logics =>
      obtain ⟨gpios, hsub, heq⟩ := ih logics
      by_cases hreq : configured = required
      · refine ⟨gpios, hsub.cons _, ?_⟩
        rw [List.zip_cons_cons, List.filterMap_cons_none (by simp [hreq]), heq]
      · refine ⟨line.gpio :: gpios, hsub.cons_cons _, ?_⟩
        rw [List.zip_cons_cons,
          List.filterMap_cons_some (b := encodeOverride line.gpio .invert) (by simp [hreq]), heq,
          List.map_cons]

lemma invertedLines_sublist {required : CsLogic} {logic : SelectLine → Option CsLogic}
    {lines : List SelectLine} {params : List ℕ}
    (h : invertedLines required logic lines = some params) :
    ∃ gpios : List ℕ, gpios.Sublist (lines.map (·.gpio)) ∧
      params = gpios.map (encodeOverride · .invert) := by
  obtain ⟨logics, -, h⟩ := Option.bind_eq_some_iff.mp h
  obtain rfl := Option.some.inj h
  exact filterMap_zip_sublist required lines logics

lemma buildGpioXOverrides_sublist (addr : AddrLayout) (setType : ChipSetType) (n : ℕ)
    (board : Board) :
    ∃ gpios : List ℕ, gpios.Sublist
        (if setType = .banked then addr.x1Gpio.toList ++ addr.x2Gpio.toList else []) ∧
      buildGpioXOverrides addr setType n board = gpios.map (encodeOverride · .invert) := by
  unfold buildGpioXOverrides
  by_cases hset : setType = .banked
  · rw [if_neg (not_not.mpr hset), if_pos hset]
    by_cases hpull : board.xJumperPull ≠ 0
    · rw [if_pos hpull]
      exact ⟨[], List.nil_sublist _, rfl⟩
    · rw [if_neg hpull]
      refine ⟨_, (List.Sublist.refl _).append ?_, rfl⟩
      split_ifs
      · exact List.Sublist.refl _
      · exact List.nil_sublist _
  · rw [if_pos hset]
    exact ⟨[], List.nil_sublist _, rfl⟩

/-- A slot's overrides: GPIOs that are inverted, and then the unused ones that are forced low. -/
lemma overrides_eq {secondaries : List CsConfig} {alg : OneromAlgConfig}
    (h : buildAlgConfig ctx addr cs secondaries = some alg) :
    ∃ gpios : List ℕ, gpios.Sublist (invertible ctx addr cs alg.algData) ∧
      alg.gpioOverrideConfig.getD [] = gpios.map (encodeOverride · .invert) ++
        buildUnusedAddrOverrides addr cs alg.algData := by
  obtain ⟨csOverrides, hoverrides, h⟩ := Option.bind_eq_some_iff.mp h
  obtain rfl := Option.some.inj h
  obtain ⟨select, hselect, hoverrides⟩ := Option.bind_eq_some_iff.mp hoverrides
  obtain ⟨commoned, hcommoned, hoverrides⟩ := Option.bind_eq_some_iff.mp hoverrides
  obtain rfl := Option.some.inj hoverrides
  obtain ⟨s, hs, rfl⟩ := invertedLines_sublist hselect
  obtain ⟨c, hc, rfl⟩ := invertedLines_sublist hcommoned
  obtain ⟨x, hx, heq⟩ :=
    buildGpioXOverrides_sublist addr ctx.setType ctx.chipTypes.length ctx.board
  refine ⟨s ++ c ++ (byteGpio (buildAlgData cs ctx.board ctx.chip0 ctx.bitMode ctx.force16Bit)
    cs).toList ++ x, ((hs.append hc).append (List.Sublist.refl _)).append hx, ?_⟩
  have hgetD : ∀ l : List ℕ, (if l = [] then none else some l).getD [] = l := fun l => by
    split_ifs with hl
    · exact hl.symm
    · rfl
  dsimp only
  rw [hgetD, heq, List.map_append, List.map_append, List.map_append]

/-! ### Their places -/

lemma line_places {candidates : List Candidate} {lines : List SelectLine} {places : List Place}
    (hat : AtPlaces ctx places candidates) (h : List.Forall₂ LineAt candidates lines) :
    List.Forall₂ (At ctx) places (lines.map (·.gpio)) := by
  rw [List.forall₂_map_right_iff]
  refine (forall₂_comp hat h).imp ?_
  rintro a line ⟨c, hc, hline⟩
  exact hc _ hline.2

lemma excess_places (h : AddrOk ctx addr) :
    ∃ places, List.Forall₂ (At ctx) places addr.excessAddrPinGpios ∧ places.Nodup ∧
      ∀ a ∈ places, AddressPlace ctx a := by
  have hlen := h.excess.length_eq ▸ length_excess_le ctx
  have hall := h.excess
  match hgpios : addr.excessAddrPinGpios with
  | [] => exact ⟨[], .nil, List.nodup_nil, by simp⟩
  | [g] =>
    rw [hgpios] at hall
    obtain ⟨pin, hpin, hg⟩ := exists_left hall (List.mem_singleton_self g)
    obtain ⟨a, ha, hag⟩ := place_of_addressAt (List.mem_of_mem_drop hpin) hg
    exact ⟨[a], .cons hag .nil, List.nodup_singleton _, by simpa using ha⟩
  | _ :: _ :: _ =>
    rw [hgpios] at hlen
    simp at hlen

lemma x_places (h : AddrOk ctx addr) :
    ∃ places, List.Forall₂ (At ctx) places (addr.x1Gpio.toList ++ addr.x2Gpio.toList) ∧
      places.Nodup ∧ ∀ a ∈ places, ∃ n, a = .x n := by
  have hx := h.x
  have hpins : ∃ ns : List ℕ, xPins ctx = ns.map Pin.x ∧ ns.Nodup := by
    unfold xPins
    split_ifs
    · exact ⟨[], rfl, List.nodup_nil⟩
    · exact ⟨[1], rfl, List.nodup_singleton _⟩
    · exact ⟨[1, 2], rfl, by decide⟩
  obtain ⟨ns, hns, hnodup⟩ := hpins
  rw [hns, List.forall₂_map_left_iff] at hx
  refine ⟨ns.map Place.x, List.forall₂_map_left_iff.mpr hx, hnodup.map fun _ _ => Place.x.inj, ?_⟩
  intro a ha
  obtain ⟨n, -, rfl⟩ := List.mem_map.mp ha
  exact ⟨n, rfl⟩

/-- The GPIOs of the select, the excess, the commoned and a Banked set's X lines all differ. -/
lemma lines_nodup (hdistinct : Distinct ctx) (haddr : AddrOk ctx addr) (hcs : CsOk ctx addr cs) :
    ∃ places, List.Forall₂ (At ctx) places
        (cs.selectLines.map (·.gpio) ++ cs.commonedLines.map (·.gpio) ++
          if ctx.setType = .banked then addr.x1Gpio.toList ++ addr.x2Gpio.toList else []) ∧
      places.Nodup ∧
      ∀ a ∈ places, SelectPlace ctx a ∨ AddressPlace ctx a ∨ ∃ n, a = .x n := by
  obtain ⟨lines, hlines, hcommoned, select, hselect, heq⟩ := hcs.lines
  obtain ⟨ps, shared, hps, hshared, hnodup, hplaces⟩ := selectCandidates_places hdistinct hlines
  obtain ⟨es, hes, hesNodup, hesAll⟩ := excess_places haddr
  have hgpios : cs.selectLines.map (·.gpio) = select.map (·.gpio) ++ addr.excessAddrPinGpios := by
    rw [heq, List.map_append, halfSelects, List.map_map]
    simp [Function.comp_def]
  have hx : ∃ xs, List.Forall₂ (At ctx) xs
      (if ctx.setType = .banked then addr.x1Gpio.toList ++ addr.x2Gpio.toList else []) ∧
      xs.Nodup ∧ ∀ a ∈ xs, ctx.setType = .banked ∧ ∃ n, a = .x n := by
    by_cases hset : ctx.setType = .banked
    · obtain ⟨xs, hxs, hxsNodup, hxsAll⟩ := x_places haddr
      rw [if_pos hset]
      exact ⟨xs, hxs, hxsNodup, fun a ha => ⟨hset, hxsAll a ha⟩⟩
    · rw [if_neg hset]
      exact ⟨[], .nil, List.nodup_nil, by simp⟩
  obtain ⟨xs, hxs, hxsNodup, hxsAll⟩ := hx
  obtain ⟨hpsNodup, hsharedNodup, hapart⟩ := List.nodup_append.mp hnodup
  rw [hgpios]
  refine ⟨ps ++ es ++ shared ++ xs, ?_, ?_, ?_⟩
  · exact List.rel_append (List.rel_append (List.rel_append (line_places hps hselect) hes)
      (line_places hshared hcommoned)) hxs
  · -- an X pin has one part to play in each type of set
    have hxApart : ∀ a ∈ xs, ¬SelectPlace ctx a ∧ ¬AddressPlace ctx a := fun a ha => by
      obtain ⟨hset, n, rfl⟩ := hxsAll a ha
      refine ⟨fun hs => ?_, fun hs => ?_⟩
      · cases (show ChipSetType.banked = .multi from hset.symm.trans hs)
      · cases (show ChipSetType.banked = .single from hset.symm.trans hs)
    have hsel : ∀ a ∈ ps, SelectPlace ctx a := fun a ha => hplaces a (List.mem_append_left _ ha)
    have hcom : ∀ a ∈ shared, SelectPlace ctx a := fun a ha =>
      hplaces a (List.mem_append_right _ ha)
    refine List.nodup_append.mpr ⟨List.nodup_append.mpr ⟨List.nodup_append.mpr
      ⟨hpsNodup, hesNodup, fun a ha b hb => selectPlace_ne (hsel a ha) (hesAll b hb)⟩,
      hsharedNodup, fun a ha b hb => ?_⟩, hxsNodup, fun a ha b hb => ?_⟩
    · rcases List.mem_append.mp ha with ha | ha
      · exact hapart a ha b hb
      · exact (selectPlace_ne (hcom b hb) (hesAll a ha)).symm
    · rintro rfl
      obtain ⟨hns, hna⟩ := hxApart a hb
      rw [List.mem_append, List.mem_append] at ha
      rcases ha with (ha | ha) | ha
      · exact hns (hsel a ha)
      · exact hna (hesAll a ha)
      · exact hns (hcom a ha)
  · intro a ha
    rw [List.mem_append, List.mem_append, List.mem_append] at ha
    rcases ha with ((ha | ha) | ha) | ha
    · exact Or.inl (hplaces a (List.mem_append_left _ ha))
    · exact Or.inr (Or.inl (hesAll a ha))
    · exact Or.inl (hplaces a (List.mem_append_right _ ha))
    · exact Or.inr (Or.inr (hxsAll a ha).2)

/-! ### The `/BYTE` line -/

lemma slotContext_offset (h : slotContext board setType chip0 chips force16Bit = .ok ctx) :
    socketPinOffset chip0.chipType.chipPins board.chipPins = some ctx.pinOffset := by
  unfold slotContext at h
  split at h
  · cases h
  · next offset hoffset =>
    obtain ⟨multi, -, h⟩ := bind_eq_ok.mp h
    cases pure_eq_ok.mp h
    exact hoffset

lemma offset_of_40 {boardPins : ℕ} {offset : ℤ} (h : socketPinOffset 40 boardPins = some offset) :
    offset = 0 := by
  unfold socketPinOffset at h
  split at h <;> simp_all

/-- Where `/BYTE` is read, its GPIO is the board's for it, and no line of the chip is at its pin. -/
lemma byte_apart (h : slotContext board setType chip0 chips force16Bit = .ok ctx)
    (hbase : cs.gpioBase = 0 ∨ cs.gpioBase = 16) {g : ℕ}
    (hg : byteGpio (buildAlgData cs ctx.board ctx.chip0 ctx.bitMode ctx.force16Bit) cs = some g) :
    g < 48 ∧ ∀ a, At ctx a g → ¬(SelectPlace ctx a ∨ AddressPlace ctx a ∨ ∃ n, a = .x n) := by
  obtain ⟨hboard, -, -, -, hmode, -⟩ := slotContext_ok h
  have hchip := chip0_eq h
  obtain ⟨pin, hpin, rfl⟩ := Option.map_eq_some_iff.mp hg
  have hdata : readsBytePin ctx.chip0 ctx.bitMode ctx.force16Bit = true ∧
      pin = (ctx.board.pinByte + 256 - cs.gpioBase) % 256 := by
    unfold buildAlgData at hpin
    cases hmode' : ctx.bitMode with
    | bitMode8 =>
      rw [hmode'] at hpin
      cases hpin
    | bitMode16 =>
      rw [hmode'] at hpin
      dsimp only at hpin
      split_ifs at hpin with hreads
      · cases hpin
      · cases hpin
        exact ⟨by simpa using hreads, rfl⟩
  obtain ⟨hreads, rfl⟩ := hdata
  simp only [readsBytePin, decide_eq_true_eq] at hreads
  obtain ⟨h16, h8, -⟩ := hreads
  -- a chip with both sizes of word has those of 16 bits only where the board has the pin
  rw [hmode] at h16
  unfold bitModeFor at h16
  dsimp only at h16
  split_ifs at h16 with hcond
  rw [← hchip] at hcond
  obtain ⟨hsupports, hword | hnone⟩ := hcond
  · exact absurd h8 hword
  obtain ⟨h40, hout, hcontrol⟩ := byte_pin h8 hsupports
  have hzero : ctx.pinOffset = 0 :=
    offset_of_40 (by rw [← h40, hchip]; exact slotContext_offset h)
  rw [← hboard] at hnone
  have hlt : ctx.board.pinByte < 48 := by
    rcases ctx.board.byte with heq | ⟨entry, hentry, -, hmem⟩
    · exact absurd heq hnone
    · exact ctx.board.exposed entry (List.mem_append_left _ hentry) _ hmem
  have hpinByte : ((ctx.board.pinByte + 256 - cs.gpioBase) % 256 + cs.gpioBase) % 256 =
      ctx.board.pinByte := by
    omega
  rw [hpinByte]
  refine ⟨hlt, fun a ha hplace => ?_⟩
  cases a with
  | pin p =>
    obtain ⟨n, hn, hmem⟩ := ha
    have h31 := Board.pin_of_byte (show ctx.board.pinByte ∈ ctx.board.gpios (.socket n) from hmem)
    cases h31
    have hp : p = 31 := by
      unfold SlotContext.socketPin at hn
      dsimp only at hn
      rw [hzero] at hn
      split_ifs at hn
      simp only [Option.some.injEq] at hn
      omega
    subst hp
    rcases hplace with ⟨line, hline, hkind, hpin⟩ | haddress | ⟨n, hx⟩
    · exact hcontrol line hline hkind hpin
    · exact hout haddress
    · cases hx
  | x n =>
    cases Board.pin_of_byte (show ctx.board.pinByte ∈ ctx.board.gpios (.x n) from ha)

/-- **What may be inverted is inverted once.** -/
lemma invertible_nodup (h : slotContext board setType chip0 chips force16Bit = .ok ctx)
    (haddr : AddrOk ctx addr) (hcs : CsOk ctx addr cs) {algData : OneromAlgDataConfig}
    (hdata : algData = buildAlgData cs ctx.board ctx.chip0 ctx.bitMode ctx.force16Bit) :
    (invertible ctx addr cs algData).Nodup ∧ ∀ g ∈ invertible ctx addr cs algData, g < 48 := by
  obtain ⟨places, hall, hnodup, hplaces⟩ := lines_nodup (slotContext_distinct h) haddr hcs
  have hlines := nodup_of_forall₂ hall hnodup fun _ _ _ => at_inj
  have hlt : ∀ g ∈ cs.selectLines.map (·.gpio) ++ cs.commonedLines.map (·.gpio) ++
      (if ctx.setType = .banked then addr.x1Gpio.toList ++ addr.x2Gpio.toList else []), g < 48 :=
    fun g hg => by
      obtain ⟨a, -, ha⟩ := exists_left hall hg
      exact at_lt ha
  -- the lines' GPIOs, with that of `/BYTE` in between
  have hperm : (invertible ctx addr cs algData).Perm ((byteGpio algData cs).toList ++
      (cs.selectLines.map (·.gpio) ++ cs.commonedLines.map (·.gpio) ++
        if ctx.setType = .banked then addr.x1Gpio.toList ++ addr.x2Gpio.toList else [])) := by
    rw [invertible, ← List.append_assoc]
    exact List.perm_append_comm.append_right _
  cases hbyte : byteGpio algData cs with
  | none =>
    rw [hbyte, Option.toList_none, List.nil_append] at hperm
    exact ⟨hperm.nodup_iff.mpr hlines, fun g hg => hlt g (hperm.subset hg)⟩
  | some b =>
    rw [hbyte, Option.toList_some, List.singleton_append] at hperm
    subst hdata
    obtain ⟨hb, hapart⟩ := byte_apart h hcs.base hbyte
    refine ⟨hperm.nodup_iff.mpr (List.nodup_cons.mpr ⟨fun hin => ?_, hlines⟩), fun g hg => ?_⟩
    · obtain ⟨a, ha, hat⟩ := exists_left hall hin
      exact hapart a hat (hplaces a ha)
    · rcases List.mem_cons.mp (hperm.subset hg) with rfl | hg
      · exact hb
      · exact hlt g hg

/-! ### GPIOs with a use -/

/-- The GPIO is an address, an X, a select or a commoned line's, is in the gap of the select lines,
or is a data line's or that of `/BYTE`. -/
def Used (addr : AddrLayout) (cs : CsDataLayout) (algData : OneromAlgDataConfig) (g : ℕ) : Prop :=
  g ∈ addr.addrPinGpios ∨ g ∈ addr.x1Gpio.toList ++ addr.x2Gpio.toList ∨
    (∃ line ∈ cs.selectLines ++ cs.commonedLines, line.gpio = g) ∨
    (∃ i, cs.csIgnoreIndex = some i ∧ g = cs.gpioBase + cs.baseCsPin + i) ∨
    g ∈ cs.dataPinGpios ∨ byteGpio algData cs = some g

/-- The GPIOs that aren't forced low are those with a use. -/
lemma mem_usedGpios (hcs : CsOk ctx addr cs) {algData : OneromAlgDataConfig} {g : ℕ} :
    g ∈ usedGpios addr cs algData ↔ Used addr cs algData g := by
  have hspan : g ∈ List.range' (cs.gpioBase + cs.baseCsPin) cs.numCsPins ↔
      (∃ line ∈ cs.selectLines ++ cs.commonedLines, line.gpio = g) ∨
        ∃ i, cs.csIgnoreIndex = some i ∧ g = cs.gpioBase + cs.baseCsPin + i := by
    rw [List.mem_range'_1]
    constructor
    · rintro ⟨hlo, hhi⟩
      by_cases hgap : cs.csIgnoreIndex = some (g - (cs.gpioBase + cs.baseCsPin))
      · exact Or.inr ⟨_, hgap, by omega⟩
      · obtain ⟨line, hline, heq⟩ := (hcs.span _ (by omega)).mp hgap
        exact Or.inl ⟨line, hline, by omega⟩
    · rintro (⟨line, hline, rfl⟩ | ⟨i, hi, rfl⟩)
      · obtain ⟨i, hi, heq⟩ := hcs.spanned line hline
        omega
      · have := (hcs.gap i hi).1
        omega
  have hselect : ∀ line ∈ cs.selectLines, ∃ line' ∈ cs.selectLines ++ cs.commonedLines,
      line'.gpio = line.gpio := fun line hline => ⟨line, List.mem_append_left _ hline, rfl⟩
  have hexcess : g ∈ addr.excessAddrPinGpios → ∃ line ∈ cs.selectLines ++ cs.commonedLines,
      line.gpio = g := fun hg => by
    obtain ⟨lines, -, -, select, -, heq⟩ := hcs.lines
    refine ⟨⟨.halfSelect, g⟩, List.mem_append_left _ ?_, rfl⟩
    rw [heq]
    exact List.mem_append_right _ (List.mem_map.mpr ⟨g, hg, rfl⟩)
  unfold usedGpios Used
  simp only [List.mem_append, Option.mem_toList, hspan, List.mem_map] at *
  constructor
  · rintro (((((((h | h) | h) | h) | h) | ⟨line, hline, rfl⟩) | h | h) | h)
    · exact Or.inl h
    · exact Or.inr (Or.inl (Or.inl h))
    · exact Or.inr (Or.inl (Or.inr h))
    · exact Or.inr (Or.inr (Or.inl (hexcess h)))
    · exact Or.inr (Or.inr (Or.inr (Or.inr (Or.inl h))))
    · exact Or.inr (Or.inr (Or.inl ⟨line, Or.inl hline, rfl⟩))
    · exact Or.inr (Or.inr (Or.inl h))
    · exact Or.inr (Or.inr (Or.inr (Or.inl h)))
    · exact Or.inr (Or.inr (Or.inr (Or.inr (Or.inr h))))
  · rintro (h | (h | h) | h | h | h | h)
    · exact Or.inl (Or.inl (Or.inl (Or.inl (Or.inl (Or.inl (Or.inl h))))))
    · exact Or.inl (Or.inl (Or.inl (Or.inl (Or.inl (Or.inl (Or.inr h))))))
    · exact Or.inl (Or.inl (Or.inl (Or.inl (Or.inl (Or.inr h)))))
    · exact Or.inl (Or.inr (Or.inl h))
    · exact Or.inl (Or.inr (Or.inr h))
    · exact Or.inl (Or.inl (Or.inl (Or.inr h)))
    · exact Or.inr h

/-- What is inverted has a use. -/
lemma used_of_invertible {algData : OneromAlgDataConfig} {g : ℕ}
    (hg : g ∈ invertible ctx addr cs algData) : Used addr cs algData g := by
  unfold invertible at hg
  rw [List.mem_append, List.mem_append, List.mem_append] at hg
  rcases hg with ((hg | hg) | hg) | hg
  · obtain ⟨line, hline, rfl⟩ := List.mem_map.mp hg
    exact Or.inr (Or.inr (Or.inl ⟨line, List.mem_append_left _ hline, rfl⟩))
  · obtain ⟨line, hline, rfl⟩ := List.mem_map.mp hg
    exact Or.inr (Or.inr (Or.inl ⟨line, List.mem_append_right _ hline, rfl⟩))
  · exact Or.inr (Or.inr (Or.inr (Or.inr (Or.inr (Option.mem_toList.mp hg)))))
  · split_ifs at hg
    · exact Or.inr (Or.inl hg)
    · cases hg

/-! ### The ROM table's index -/

def overrideGpio (entry : ℕ) : ℕ := entry &&& 0x3F

def overrideMode (entry : ℕ) : GpioOverride := .ofCode (entry >>> 6 &&& 3)

/-- The overrides of the GPIOs, each written over what was there. A normal one isn't written. -/
def setupOverrides (overrides : List ℕ) : ℕ → GpioOverride :=
  overrides.foldl (fun gpios entry =>
    if overrideMode entry = .normal then gpios
    else Function.update gpios (overrideGpio entry) (overrideMode entry)) fun _ => .normal

/-- The index the address PIO reads, where a host drives the GPIOs. -/
def romTableIndex (slot : OneromRomSlot) (drive : ℕ → Bool) : ℕ :=
  let gpios := setupOverrides (slot.alg.gpioOverrideConfig.getD [])
  sample (fun g => (gpios g).apply (drive g)) (addrBase slot) slot.alg.algAddr.numAddrPins

@[simp] lemma overrideGpio_encode {g : ℕ} (hg : g < 48) (ov : GpioOverride) :
    overrideGpio (encodeOverride g ov) = g := by
  rw [overrideGpio, encodeOverride_gpio, Nat.mod_eq_of_lt (by omega)]

@[simp] lemma overrideMode_encode (g : ℕ) (ov : GpioOverride) :
    overrideMode (encodeOverride g ov) = ov := ofCode_encodeOverride g ov

lemma setup_of_notMem {overrides : List ℕ} {gpios : ℕ → GpioOverride} {g : ℕ}
    (h : g ∉ overrides.map overrideGpio) :
    overrides.foldl (fun gpios entry =>
      if overrideMode entry = .normal then gpios
      else Function.update gpios (overrideGpio entry) (overrideMode entry)) gpios g = gpios g := by
  induction overrides generalizing gpios with
  | nil => rfl
  | cons entry overrides ih =>
    rw [List.map_cons, List.mem_cons, not_or] at h
    rw [List.foldl_cons, ih h.2]
    split_ifs
    · rfl
    · exact Function.update_of_ne h.1 _ _

/-- Where no GPIO has two overrides, a GPIO's is the one it has. -/
lemma setupOverrides_of_mem {overrides : List ℕ} {entry : ℕ}
    (hnodup : (overrides.map overrideGpio).Nodup) (h : entry ∈ overrides)
    (hmode : overrideMode entry ≠ .normal) :
    setupOverrides overrides (overrideGpio entry) = overrideMode entry := by
  obtain ⟨before, after, rfl⟩ := List.append_of_mem h
  rw [List.map_append, List.map_cons, List.nodup_append, List.nodup_cons] at hnodup
  rw [setupOverrides, List.foldl_append, List.foldl_cons, if_neg hmode,
    setup_of_notMem hnodup.2.1.1, Function.update_self]

/-- Where no two elements have the same key, an element is all there is with its key. -/
lemma filter_key {α : Type} {f : α → ℕ} {l : List α} (hnodup : (l.map f).Nodup) {a : α}
    (ha : a ∈ l) : l.filter (f · = f a) = [a] := by
  obtain ⟨before, after, rfl⟩ := List.append_of_mem ha
  rw [List.map_append, List.map_cons, List.nodup_append, List.nodup_cons] at hnodup
  obtain ⟨-, ⟨hout, -⟩, hapart⟩ := hnodup
  have hbefore : before.filter (f · = f a) = [] := List.filter_eq_nil_iff.mpr fun b hb => by
    simpa using hapart (f b) (List.mem_map_of_mem hb) (f a) List.mem_cons_self
  have hafter : after.filter (f · = f a) = [] := List.filter_eq_nil_iff.mpr fun b hb => by
    simpa using fun heq : f b = f a => hout (heq ▸ List.mem_map_of_mem hb)
  rw [List.filter_append, List.filter_cons_of_pos (by simp), hbefore, hafter, List.nil_append]

/-- The keys of a slot's overrides. -/
lemma overrideGpios_nodup (h : slotContext board setType chip0 chips force16Bit = .ok ctx)
    (haddr : AddrOk ctx addr) (hcs : CsOk ctx addr cs)
    (hfits : fitsPioWindow addr.gpioBase addr.numAddrPins) {secondaries : List CsConfig}
    {alg : OneromAlgConfig} (halg : buildAlgConfig ctx addr cs secondaries = some alg) :
    ((alg.gpioOverrideConfig.getD []).map overrideGpio).Nodup := by
  obtain ⟨gpios, hsub, heq⟩ := overrides_eq halg
  obtain ⟨hnodup, hlt⟩ := invertible_nodup h haddr hcs (buildAlgConfig_ok halg).algData
  have hend := lt_of_fitsPioWindow hfits
  have hinverted : (gpios.map (encodeOverride · .invert)).map overrideGpio = gpios := by
    rw [List.map_map, List.map_congr_left (g := id), List.map_id]
    exact fun g hg => overrideGpio_encode (hlt g (hsub.subset hg)) _
  set unused := (List.range' addr.gpioBase addr.numAddrPins).filter
    (· ∉ usedGpios addr cs alg.algData) with hunused
  have hmem : ∀ g ∈ unused, g < 48 ∧ ¬Used addr cs alg.algData g := fun g hg => by
    obtain ⟨hwindow, hout⟩ := List.mem_filter.mp hg
    rw [List.mem_range'_1] at hwindow
    rw [decide_eq_true_eq, mem_usedGpios hcs] at hout
    exact ⟨by omega, hout⟩
  have hforced : (buildUnusedAddrOverrides addr cs alg.algData).map overrideGpio = unused := by
    rw [buildUnusedAddrOverrides, List.map_map, List.map_congr_left (g := id), List.map_id]
    exact fun g hg => overrideGpio_encode (hmem g hg).1 _
  rw [heq, List.map_append, hinverted, hforced, List.nodup_append]
  refine ⟨hsub.nodup hnodup, (List.nodup_range' ).filter _, ?_⟩
  rintro a ha b hb rfl
  exact (hmem a hb).2 (used_of_invertible (hsub.subset ha))

/-- A GPIO of the window that has no use is forced low. -/
lemma forced_low (hcs : CsOk ctx addr cs) {secondaries : List CsConfig} {alg : OneromAlgConfig}
    (halg : buildAlgConfig ctx addr cs secondaries = some alg) {g : ℕ} (hlo : addr.gpioBase ≤ g)
    (hhi : g < addr.gpioBase + addr.numAddrPins) (hout : ¬Used addr cs alg.algData g) :
    encodeOverride g .low ∈ alg.gpioOverrideConfig.getD [] := by
  obtain ⟨gpios, -, heq⟩ := overrides_eq halg
  rw [heq]
  refine List.mem_append_right _ (List.mem_map.mpr ⟨g, List.mem_filter.mpr ⟨?_, ?_⟩, rfl⟩)
  · exact List.mem_range'_1.mpr ⟨hlo, hhi⟩
  · rw [decide_eq_true_eq, mem_usedGpios hcs]
    exact hout

/-- **A GPIO has one override at most**, those of the address window that nothing uses are forced
low, and the index into the ROM table is that of the others' levels. -/
theorem overrides_apart
    (h : buildRomSlot board setType chip0 chips force16Bit = .ok (slot, addr, cs)) :
    ((slot.alg.gpioOverrideConfig.getD []).map overrideGpio).Nodup ∧
      (∀ g, addr.gpioBase ≤ g → g < addr.gpioBase + addr.numAddrPins →
        ¬Used addr cs slot.alg.algData g →
        (slot.alg.gpioOverrideConfig.getD []).filter (overrideGpio · = g) =
          [encodeOverride g .low]) ∧
      ∀ drive drive' : ℕ → Bool, (∀ g, Used addr cs slot.alg.algData g → drive g = drive' g) →
        romTableIndex slot drive = romTableIndex slot drive' := by
  obtain ⟨ctx, hok⟩ := buildRomSlot_ok h
  obtain ⟨ctx', secondaries, hctx, haddr, hcs, halg, -⟩ := buildRomSlot_steps h
  have hcsOk := deriveCsDataLayout_ok hcs
  have hfits := deriveAddrLayout_fits haddr
  have hend := lt_of_fitsPioWindow hfits
  have hnodup := overrideGpios_nodup hctx (deriveAddrLayout_ok haddr) hcsOk hfits halg
  refine ⟨hnodup, fun g hlo hhi hout => ?_, fun drive drive' hagree => ?_⟩
  · have hone := filter_key hnodup (forced_low hcsOk halg hlo hhi hout)
    rwa [overrideGpio_encode (by omega)] at hone
  · refine Nat.eq_of_testBit_eq fun i => ?_
    unfold romTableIndex
    dsimp only
    by_cases hi : i < slot.alg.algAddr.numAddrPins
    · rw [testBit_sample hi, testBit_sample hi]
      have hlow := hi
      rw [numAddrPins_eq hok] at hlow
      rw [addrBase_eq hok]
      by_cases hused : Used addr cs slot.alg.algData (addr.gpioBase + i)
      · rw [hagree _ hused]
      · -- a GPIO that is forced reads low whatever drives it
        have hforced := setupOverrides_of_mem hnodup
          (forced_low hcsOk halg (Nat.le_add_right _ i) (by omega) hused)
          (by rw [overrideMode_encode]; decide)
        rw [overrideGpio_encode (by omega), overrideMode_encode] at hforced
        rw [hforced]
        rfl
    · rw [Nat.testBit_lt_two_pow, Nat.testBit_lt_two_pow]
      · exact (sample_lt _ _ _).trans_le (Nat.pow_le_pow_right (by decide) (not_lt.mp hi))
      · exact (sample_lt _ _ _).trans_le (Nat.pow_le_pow_right (by decide) (not_lt.mp hi))

/-- A 23QL384, whose pin 1 isn't connected. -/
def chip23QL384 : Chip := ⟨.chip23QL384, .chipSelect .activeLow none none none, none⟩

/-- On a fire-28-a that pin's GPIO is the one that is forced. -/
theorem overrides_apart_23QL384 : ∃ slot addr cs,
    buildRomSlot fire28A .single chip23QL384 [] false = .ok (slot, addr, cs) ∧
      slot.alg.gpioOverrideConfig = some [encodeOverride 16 .low] ∧
      ∀ drive drive' : ℕ → Bool, (∀ g, Used addr cs slot.alg.algData g → drive g = drive' g) →
        romTableIndex slot drive = romTableIndex slot drive' := by
  have hbuild : ∃ slot addr cs,
      buildRomSlot fire28A .single chip23QL384 [] false = .ok (slot, addr, cs) ∧
        slot.alg.gpioOverrideConfig = some [encodeOverride 16 .low] := ⟨_, _, _, rfl, rfl⟩
  obtain ⟨slot, addr, cs, hslot, hparams⟩ := hbuild
  exact ⟨slot, addr, cs, hslot, hparams, (overrides_apart hslot).2.2⟩

end OneRom.Overrides
