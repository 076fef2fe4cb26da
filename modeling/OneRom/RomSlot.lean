import OneRom.AlgConfig

/-!
A slot as the metadata describes it, built from a set's chips.

`build_rom_slot` derives the layouts of the set and the algorithms from them. `buildRomSlot_ok` says
what holds of a slot it builds.
-/

namespace OneRom.RomSlot

open OneRom.AlgConfig OneRom.Checks OneRom.Hw OneRom.ChipTypes OneRom.CsConfig OneRom.SlotLayout
open OneRom.MultiCs OneRom.Layout OneRom.DeriveAddr OneRom.DeriveCs

def MAX_ADDR_PINS : ℕ := 24
def MAX_DATA_PINS : ℕ := 16

inductive RomSlotType
  | singleRom | bankedRom | multiRom | singleRam
  deriving DecidableEq, Repr

/-- The GPIOs of a ROM's address and data lines, in arrays that end in `GPIO_NONE`. -/
structure OneromRomPinMap where
  addr : List ℕ
  data : List ℕ
  deriving DecidableEq, Repr

structure OneromRomInfo where
  pinMap : OneromRomPinMap
  chipSize : ℕ
  deriving DecidableEq, Repr

structure OneromRomSlot where
  size : ℕ
  roms : List OneromRomInfo
  slotType : RomSlotType
  alg : OneromAlgConfig
  deriving DecidableEq, Repr

/-- An array of `n` GPIOs that begins with those of `gpios`. -/
def pinArray (n : ℕ) (gpios : List ℕ) : List ℕ :=
  gpios ++ List.replicate (n - gpios.length) GPIO_NONE

def buildRomPinMap (addr : AddrLayout) (cs : CsDataLayout) : OneromRomPinMap where
  addr := pinArray MAX_ADDR_PINS addr.addrPinGpios
  data := pinArray MAX_DATA_PINS cs.dataPinGpios

def buildRomInfo (chip : Chip) (addr : AddrLayout) (cs : CsDataLayout) : OneromRomInfo where
  pinMap := buildRomPinMap addr cs
  chipSize := chip.chipType.sizeBytes

def romSlotType (setType : ChipSetType) (chip0 : ChipType) : RomSlotType :=
  match setType with
  | .multi => .multiRom
  | .banked => .bankedRom
  | .single => if chip0 = .chip6116 then .singleRam else .singleRom

/-- The select lines of a Multi set, which a set with one chip panics over. -/
def multiConfig (setType : ChipSetType) (chip0 : Chip) (chips : List Chip) :
    Except LayoutError (Option MultiChipCsConfig) :=
  match setType, chips with
  | .multi, [] => .error .panic
  | .multi, chip1 :: _ =>
    match deriveMultiCsConfig chip0.chipType chip0.csConfig chip1.csConfig with
    | none => .error .panic
    | some mcc => .ok (some mcc)
  | _, _ => .ok none

/-- What a set's slot is derived from. -/
def slotContext (board : Board) (setType : ChipSetType) (chip0 : Chip) (chips : List Chip)
    (force16Bit : Bool) : Except LayoutError SlotContext :=
  match socketPinOffset chip0.chipType.chipPins board.chipPins with
  | none => .error (.incompatiblePinCount board chip0.chipType)
  | some pinOffset => do
    let multiCsConfig ← multiConfig setType chip0 chips
    return {
      board := board
      setType := setType
      chipTypes := chip0.chipType :: chips.map (·.chipType)
      chipTypes_ne := List.cons_ne_nil _ _
      csConfig := chip0.csConfig
      bitMode := bitModeFor chip0.chipType board
      pinOffset := pinOffset
      force16Bit := force16Bit
      multiCsConfig := multiCsConfig }

/-- The slot of a set that has `chip0` first and then `chips`, and the layouts it is served from. -/
def buildRomSlot (board : Board) (setType : ChipSetType) (chip0 : Chip) (chips : List Chip)
    (force16Bit : Bool) : Except LayoutError (OneromRomSlot × AddrLayout × CsDataLayout) := do
  let ctx ← slotContext board setType chip0 chips force16Bit
  let addr ← deriveAddrLayout ctx
  let cs ← deriveCsDataLayout ctx addr
  let secondaries := if setType = .multi then chips.map (·.csConfig) else []
  match buildAlgConfig ctx addr cs secondaries with
  | none => .error .panic
  | some alg =>
    let size := romTableSize addr alg.algDma
    refuse (MAX_IMAGE_SIZE < size)
      (.romTableTooLarge board chip0.chipType setType ctx.chipTypes.length addr.numAddrPins size)
    return ({
      size := size
      roms := (chip0 :: chips).map fun chip => buildRomInfo chip addr cs
      slotType := romSlotType setType chip0.chipType
      alg := alg }, addr, cs)

/-! ### A slot that is built -/

variable {board : Board} {setType : ChipSetType} {chip0 : Chip} {chips : List Chip}
  {force16Bit : Bool} {slot : OneromRomSlot} {addr : AddrLayout} {cs : CsDataLayout}

lemma slotContext_ok {ctx : SlotContext}
    (h : slotContext board setType chip0 chips force16Bit = .ok ctx) :
    ctx.board = board ∧ ctx.setType = setType ∧ ctx.csConfig = chip0.csConfig ∧
      ctx.chipTypes = chip0.chipType :: chips.map (·.chipType) ∧
      ctx.bitMode = bitModeFor chip0.chipType board ∧ ctx.force16Bit = force16Bit := by
  unfold slotContext at h
  split at h
  · cases h
  · obtain ⟨mcc, -, h⟩ := bind_eq_ok.mp h
    cases pure_eq_ok.mp h
    exact ⟨rfl, rfl, rfl, rfl, rfl, rfl⟩

/-- What is inverted are lines' GPIOs. -/
lemma invertedLines_eq {required : CsLogic} {logic : SelectLine → Option CsLogic}
    {lines : List SelectLine} {params : List ℕ} (h : invertedLines required logic lines = some params) :
    ∃ inverted : List ℕ, params = inverted.map (encodeOverride · .invert) := by
  obtain ⟨logics, -, h⟩ := Option.bind_eq_some_iff.mp h
  obtain rfl := Option.some.inj h
  refine ⟨(lines.zip logics).filterMap fun p =>
    if p.2 = required then none else some p.1.gpio, ?_⟩
  rw [List.map_filterMap]
  congr 1
  funext ⟨line, configured⟩
  dsimp only
  split_ifs <;> rfl

lemma buildCsOverrides_eq {csConfig : CsConfig} {secondaries : List CsConfig} {params : List ℕ}
    (h : buildCsOverrides cs setType csConfig secondaries = some params) :
    ∃ inverted : List ℕ, params = inverted.map (encodeOverride · .invert) := by
  obtain ⟨select, hselect, h⟩ := Option.bind_eq_some_iff.mp h
  obtain ⟨commoned, hcommoned, h⟩ := Option.bind_eq_some_iff.mp h
  obtain ⟨s, rfl⟩ := invertedLines_eq hselect
  obtain ⟨c, rfl⟩ := invertedLines_eq hcommoned
  exact ⟨s ++ c, by rw [List.map_append]; exact (Option.some.inj h).symm⟩

lemma buildGpioXOverrides_eq (addr : AddrLayout) (setType : ChipSetType) (n : ℕ) (board : Board) :
    ∃ inverted : List ℕ,
      buildGpioXOverrides addr setType n board = inverted.map (encodeOverride · .invert) := by
  unfold buildGpioXOverrides
  split_ifs
  · exact ⟨[], rfl⟩
  · exact ⟨[], rfl⟩
  · exact ⟨_, rfl⟩
  · exact ⟨_, rfl⟩

/-- The algorithms of a slot, in which no GPIO that has a use is forced. -/
structure AlgOk (ctx : SlotContext) (addr : AddrLayout) (cs : CsDataLayout) (alg : OneromAlgConfig) :
    Prop where
  algData : alg.algData = buildAlgData cs ctx.board ctx.chip0 ctx.bitMode ctx.force16Bit
  algAddr : alg.algAddr = buildAlgAddr addr alg.algData
  algCs : alg.algCs = buildAlgCs cs ctx.setType alg.algData
  algDma : alg.algDma = buildAlgDma ctx.bitMode
  overrides : ∃ inverted : List ℕ, alg.gpioOverrideConfig.getD [] =
    inverted.map (encodeOverride · .invert) ++ buildUnusedAddrOverrides addr cs alg.algData

lemma buildAlgConfig_ok {ctx : SlotContext} {secondaries : List CsConfig} {alg : OneromAlgConfig}
    (h : buildAlgConfig ctx addr cs secondaries = some alg) : AlgOk ctx addr cs alg := by
  obtain ⟨csOverrides, hoverrides, h⟩ := Option.bind_eq_some_iff.mp h
  obtain rfl := Option.some.inj h
  obtain ⟨inverted, rfl⟩ := buildCsOverrides_eq hoverrides
  obtain ⟨x, hx⟩ := buildGpioXOverrides_eq addr ctx.setType ctx.chipTypes.length ctx.board
  set algData := buildAlgData cs ctx.board ctx.chip0 ctx.bitMode ctx.force16Bit
  refine ⟨rfl, rfl, rfl, rfl, inverted ++ (byteGpio algData cs).toList ++ x, ?_⟩
  have hgetD : ∀ l : List ℕ, (if l = [] then none else some l).getD [] = l := fun l => by
    split_ifs with hl
    · exact hl.symm
    · rfl
  dsimp only
  rw [hgetD, hx, ← List.map_append, ← List.map_append]

/-- A slot, and the layouts and the set it is built from. -/
structure SlotOk (board : Board) (setType : ChipSetType) (chip0 : Chip) (chips : List Chip)
    (slot : OneromRomSlot) (addr : AddrLayout) (cs : CsDataLayout) (ctx : SlotContext) : Prop where
  board_eq : ctx.board = board
  setType_eq : ctx.setType = setType
  chip0_eq : ctx.chip0 = chip0.chipType
  chipTypes_eq : ctx.chipTypes = chip0.chipType :: chips.map (·.chipType)
  bitMode_eq : ctx.bitMode = bitModeFor chip0.chipType board
  addrOk : AddrOk ctx addr
  window : fitsPioWindow addr.gpioBase addr.numAddrPins
  csOk : CsOk ctx addr cs
  algOk : AlgOk ctx addr cs slot.alg
  size : slot.size = romTableSize addr slot.alg.algDma
  fits : slot.size ≤ MAX_IMAGE_SIZE
  roms : slot.roms = (chip0 :: chips).map fun chip => buildRomInfo chip addr cs
  slotType : slot.slotType = romSlotType setType chip0.chipType

/-- What a slot is built from. -/
lemma buildRomSlot_steps
    (h : buildRomSlot board setType chip0 chips force16Bit = .ok (slot, addr, cs)) :
    ∃ ctx secondaries, slotContext board setType chip0 chips force16Bit = .ok ctx ∧
      deriveAddrLayout ctx = .ok addr ∧ deriveCsDataLayout ctx addr = .ok cs ∧
      buildAlgConfig ctx addr cs secondaries = some slot.alg ∧
      slot.size = romTableSize addr slot.alg.algDma ∧ slot.size ≤ MAX_IMAGE_SIZE ∧
      slot.roms = (chip0 :: chips).map (fun chip => buildRomInfo chip addr cs) ∧
      slot.slotType = romSlotType setType chip0.chipType := by
  obtain ⟨ctx, hctx, h⟩ := bind_eq_ok.mp h
  obtain ⟨addr', haddr, h⟩ := bind_eq_ok.mp h
  obtain ⟨cs', hcs, h⟩ := bind_eq_ok.mp h
  dsimp only at h
  split at h
  · cases h
  next alg halg =>
  rw [seq_eq_ok, refuse_eq_ok] at h
  obtain ⟨hsize, h⟩ := h
  cases pure_eq_ok.mp h
  exact ⟨ctx, _, hctx, haddr, hcs, halg, rfl, not_lt.mp hsize, rfl, rfl⟩

lemma chip0_eq {ctx : SlotContext} (h : slotContext board setType chip0 chips force16Bit = .ok ctx) :
    ctx.chip0 = chip0.chipType := by
  obtain ⟨-, -, -, htypes, -, -⟩ := slotContext_ok h
  rw [SlotContext.chip0]
  simp only [htypes, List.head_cons]

lemma buildRomSlot_layouts
    (h : buildRomSlot board setType chip0 chips force16Bit = .ok (slot, addr, cs)) :
    ∃ ctx, slotContext board setType chip0 chips force16Bit = .ok ctx ∧
      deriveAddrLayout ctx = .ok addr ∧ deriveCsDataLayout ctx addr = .ok cs ∧
      SlotOk board setType chip0 chips slot addr cs ctx := by
  obtain ⟨ctx, _, hctx, haddr, hcs, halg, hsize, hfits, hroms, htype⟩ := buildRomSlot_steps h
  obtain ⟨hboard, hset, hconfig, htypes, hmode, -⟩ := slotContext_ok hctx
  exact ⟨ctx, hctx, haddr, hcs,
    { board_eq := hboard
      setType_eq := hset
      chip0_eq := chip0_eq hctx
      chipTypes_eq := htypes
      bitMode_eq := hmode
      addrOk := deriveAddrLayout_ok haddr
      window := deriveAddrLayout_fits haddr
      csOk := deriveCsDataLayout_ok hcs
      algOk := buildAlgConfig_ok halg
      size := hsize
      fits := hfits
      roms := hroms
      slotType := htype }⟩

/-- **A slot that is built** is made of layouts that are what its set needs. -/
theorem buildRomSlot_ok
    (h : buildRomSlot board setType chip0 chips force16Bit = .ok (slot, addr, cs)) :
    ∃ ctx, SlotOk board setType chip0 chips slot addr cs ctx := by
  obtain ⟨ctx, -, -, -, hok⟩ := buildRomSlot_layouts h
  exact ⟨ctx, hok⟩

end OneRom.RomSlot
