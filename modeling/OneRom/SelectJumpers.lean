import OneRom.BootFrame
import OneRom.MultiCs

/-!
The image select jumpers as the builder describes them. A configuration's sets are its images, after
any plugins; the select pins that are not reserved number the images, the lowest bit first. The
description says for each image which jumpers to close, and what is served where they are not read.
-/

namespace OneRom.SelectJumpers

open OneRom.Checks OneRom.ChipTypes OneRom.SlotLayout OneRom.CheckCs OneRom.Boot

/-! ### Boards -/

/-- What a board's image select pins are wired to, and where a closed jumper takes each. -/
structure SelectBoard where
  rp235x : UInt8
  selPins : List UInt8
  /-- Whether a closed jumper pulls the pin up. -/
  selJumperPulls : List Bool
  usbVbusPin : Option UInt8
  atMost : selPins.length ≤ MAX_IMG_SEL_PINS := by decide
  pulls : selJumperPulls.length = selPins.length := by decide
  apart : selPins.Nodup := by decide
  onChip : ∀ pin ∈ selPins, pin.toNat < if rp235x = RP235XB then 48 else 30 := by decide +kernel
  vbusApart : ∀ pin ∈ usbVbusPin, pin ∉ selPins := by decide +kernel

def fire24a : SelectBoard where
  rp235x := RP235XA
  selPins := [27, 28, 29]
  selJumperPulls := [false, false, false]
  usbVbusPin := none

def fire24c : SelectBoard where
  rp235x := RP235XA
  selPins := [26, 27]
  selJumperPulls := [false, false]
  usbVbusPin := some 28

/-- Revisions d and e, and the board for application developers. -/
def fire24d : SelectBoard where
  rp235x := RP235XA
  selPins := [25, 24, 26, 27]
  selJumperPulls := [false, false, false, true]
  usbVbusPin := some 28

def fire24f : SelectBoard where
  rp235x := RP235XA
  selPins := [26, 27, 25, 24]
  selJumperPulls := [false, false, false, true]
  usbVbusPin := some 28

def fire24UsbB : SelectBoard where
  rp235x := RP235XA
  selPins := [25, 24, 26, 27]
  selJumperPulls := [false, false, false, false]
  usbVbusPin := some 28

def fire32a : SelectBoard where
  rp235x := RP235XB
  selPins := [38, 39, 36, 37]
  selJumperPulls := [false, false, false, true]
  usbVbusPin := some 46

/-- The other boards with an RP2350B. -/
def fire40a : SelectBoard where
  rp235x := RP235XB
  selPins := [40, 41, 38, 39]
  selJumperPulls := [false, false, false, true]
  usbVbusPin := some 46

/-- The boards by name. -/
def boards : List (String × SelectBoard) :=
  [("fire-24-a", fire24a), ("fire-24-c", fire24c), ("fire-24-d", fire24d), ("fire-24-e", fire24d),
    ("fire-24-eadb01", fire24d), ("fire-24-f", fire24f), ("fire-24-g", fire24f),
    ("fire-24-usb-b", fire24UsbB), ("fire-28-a", fire24c), ("fire-28-b", fire24c),
    ("fire-28-c", fire40a), ("fire-28-d", fire40a), ("fire-32-a", fire32a), ("fire-32-b", fire40a),
    ("fire-32-c", fire40a), ("fire-40-a", fire40a), ("fire-40-b", fire40a),
    ("fire-40-c", fire40a)]

/-! ### Configurations -/

structure FirmwareVersion where
  major : ℕ
  minor : ℕ
  patch : ℕ
  deriving DecidableEq

def FirmwareVersion.Before (a b : FirmwareVersion) : Prop :=
  a.major < b.major ∨ (a.major = b.major ∧ (a.minor < b.minor ∨
    (a.minor = b.minor ∧ a.patch < b.patch)))

instance (a b : FirmwareVersion) : Decidable (a.Before b) := inferInstanceAs (Decidable (_ ∨ _))

/-- A configuration with what the image select jumpers depend on besides the sets. -/
structure DeviceConfig extends Config where
  version : FirmwareVersion
  turboBoot : Bool
  /-- The reserved image select pins, one bit each. -/
  reservedSelPins : UInt8

def MIN_RESERVED_PINS_VERSION : FirmwareVersion := ⟨0, 8, 0⟩

/-- The generation metadata is written at for a firmware version. -/
def metadataGenerationFor (version : FirmwareVersion) : UInt32 :=
  if version.Before ⟨0, 8, 0⟩ then 2 else 3

/-- The oldest firmware that supports a chip type. A PIO plugin is not supported yet. -/
def minSupportedFirmwareVersion : ChipType → Option FirmwareVersion
  | .pioPlugin | .chip62256 => none
  | .systemPlugin | .userPlugin => some ⟨0, 6, 7⟩
  | .chip2316 | .chip2332 | .chip2364 => some ⟨0, 4, 4⟩
  | .chip2716 | .chip2732 => some ⟨0, 5, 6⟩
  | .chip23128 | .chip23256 | .chip23512 | .chip2764 | .chip27128 | .chip27256
  | .chip27512 => some ⟨0, 5, 8⟩
  | .chip6116 => some ⟨0, 6, 2⟩
  | .chip231024 => some ⟨0, 6, 4⟩
  | .chip27C400 => some ⟨0, 6, 5⟩
  | .chip2704 | .chip2708 | .chip27C301 | .chip27C010 | .chip27C020 | .chip27C040 => some ⟨0, 6, 6⟩
  | .chip27C080 | .chip28C16 | .chip28C64 | .chip28C256 | .chip28C512 => some ⟨0, 6, 8⟩
  | .chip23QL512 => some ⟨0, 6, 11⟩
  | .chip23QL384 => some ⟨0, 6, 12⟩
  | .chip23C1010 | .chipSST39SF040 | .chip27C200 => some ⟨0, 6, 13⟩
  | .chipHM7641 | .chip23C1001 => some ⟨0, 7, 0⟩
  | .chip27C200Pin31NC | .chip27C400Pin31A17 => some ⟨0, 7, 2⟩

/-- The chip types the builder for this firmware implements. -/
def supportedChipType (t : ChipType) : Bool := t ≠ .chip6116 && t ≠ .chip62256

inductive ChipSetsError
  | noChips (id : ℕ)
  | tooManyChips (id expected actual : ℕ)
  | unsupportedToolChipType (chipType : ChipType)
  | firmwareTooOld (feat : String) (version minimum : FirmwareVersion)
  | invalidConfig (error : String)

def checkSetSize (id : ℕ) (set : ChipSetConfig) : Except ChipSetsError Unit := do
  refuse (set.chips = []) (.noChips id)
  refuse (1 < set.chips.length ∧ set.setType = .single) (.tooManyChips id 1 set.chips.length)
  refuse (3 < set.chips.length ∧ set.setType = .multi) (.tooManyChips id 3 set.chips.length)
  refuse (4 < set.chips.length ∧ set.setType = .banked) (.tooManyChips id 4 set.chips.length)

/-- A chip type that no firmware supports is refused whatever the target. -/
def checkChipType (version : FirmwareVersion) (t : ChipType) : Except ChipSetsError Unit := do
  refuse (supportedChipType t = false) (.unsupportedToolChipType t)
  match minSupportedFirmwareVersion t with
  | none => .error (.unsupportedToolChipType t)
  | some minimum => refuse (version.Before minimum) (.firmwareTooOld t.name version minimum)

/-- The type of the first set's first chip. -/
def firstType (sets : List ChipSetConfig) : Option ChipType :=
  sets.head?.bind fun set => set.chips.head?.map (·.chipType)

def checkPluginPlace (sets : List ChipSetConfig) (setId : ℕ) (t : ChipType) :
    Except ChipSetsError Unit := do
  refuse (t = .systemPlugin ∧ setId ≠ 0)
    (.invalidConfig "System plugins must be in the first slot")
  refuse (t = .userPlugin ∧ setId ≠ 1) (.invalidConfig "User plugins must be in the second slot")
  refuse (t = .userPlugin ∧ firstType sets ≠ some .systemPlugin)
    (.invalidConfig ("User plugins must be in the second slot, and the first slot must be a " ++
      "system plugin"))

/-- Chips of a bank have one type. -/
def checkBankType (set : ChipSetConfig) (chip : ChipConfig) : Except ChipSetsError Unit :=
  match set.chips.head? with
  | none => .ok ()
  | some chip0 => refuse (set.setType = .banked ∧ chip.chipType ≠ chip0.chipType)
      (.invalidConfig s!"All Chips in a banked set must be of the same type ({chip.chipType.name
        } != {chip0.chipType.name})")

def checkChipSet (config : DeviceConfig) (set : ChipSetConfig) (setId : ℕ) :
    Except ChipSetsError Unit := do
  checkSetSize setId set
  set.chips.forM fun chip => do
    checkChipType config.version chip.chipType
    checkBankType set chip
    checkPluginPlace config.chipSets setId chip.chipType

def isPlugin (set : ChipSetConfig) : Bool := set.chips.any (·.chipType.isPlugin)

/-- The structural checks on the sets, and how many are no plugin. The checks of a chip's file and of
a set's overrides are left out: they refuse more. -/
def checkChipSets (config : DeviceConfig) : Except ChipSetsError ℕ := do
  config.chipSets.zipIdx.forM fun (set, setId) => checkChipSet config set setId
  return config.chipSets.countP fun set => !isPlugin set

/-! ### The description -/

structure ImageSelect where
  /-- The image select pins the firmware reads, the lowest bit first. -/
  read : List ℕ
  /-- How many plugin sets come before the images. -/
  plugins : ℕ
  images : ℕ
  turboBoot : Bool

/-- The image select bits are assigned to the unreserved pins in order. -/
def selectPinsRead (reserved : UInt8) (board : SelectBoard) : List ℕ :=
  (List.range board.selPins.length).filter fun ii => !reserved.toNat.testBit ii

def ImageSelect.new (config : DeviceConfig) (board : SelectBoard) : ImageSelect :=
  let plugins := config.chipSets.countP isPlugin
  { read := selectPinsRead config.reservedSelPins board
    plugins
    images := config.chipSets.length - plugins
    turboBoot := config.turboBoot }

/-- What an image's row says of its jumpers: that it cannot be selected, or those to close. -/
inductive Row
  | cannotBeSelected
  | jumpered (pins : List ℕ)
  deriving DecidableEq

inductive Footer
  | turbo (image : ℕ)
  | single
  deriving DecidableEq

namespace ImageSelect

variable (select : ImageSelect)

/-- The jumpers are not read with turbo boot, and a single image is served whatever they are. -/
def annotated : Bool := !select.turboBoot && 1 < select.images

/-- The select pins of the bits that are set in an image's number. -/
def closedFor (image : ℕ) : List ℕ :=
  (select.read.zipIdx.filter fun pin => image.testBit pin.2).map (·.1)

def row (index : ℕ) (set : ChipSetConfig) : Option Row :=
  if !select.annotated || isPlugin set then none
  else if index < select.plugins then none
  else
    let image := index - select.plugins
    if 2 ^ select.read.length ≤ image then some .cannotBeSelected
    else some (.jumpered (select.closedFor image))

def footer : Option Footer :=
  if select.turboBoot && 0 < select.images then some (.turbo select.plugins)
  else if select.images = 1 then some .single
  else none

end ImageSelect

/-! ### What the build writes -/

/-- The type of the slot a set is written to. -/
def slotType (set : ChipSetConfig) : UInt8 :=
  match set.chips.head?.map ChipConfig.chipType, set.setType with
  | some .systemPlugin, _ => 0
  | some .userPlugin, _ => 1
  | some .pioPlugin, _ => 2
  | _, .multi => 4
  | _, .banked => 5
  | some .chip6116, .single => 6
  | _, .single => 3

/-- The GPIO of each image select pin, as the hardware information has it. -/
def SelectBoard.gpioSel (board : SelectBoard) (ii : ℕ) : UInt8 := board.selPins.getD ii GPIO_NONE

def SelectBoard.jumperPull (board : SelectBoard) (ii : ℕ) : Bool := board.selJumperPulls.getD ii false

/-- A build goes through where its checks pass: of the sets, of their control lines, and of the
number of slots, which the metadata's writer has a byte for. Pins are reserved for firmware that
knows of them. -/
structure Accepted (config : DeviceConfig) : Prop where
  sets : ∃ images, checkChipSets config = .ok images
  lines : checkCsV2 config.toConfig = .ok ()
  count : config.chipSets.length ≤ 255
  reserved : config.reservedSelPins ≠ 0 → ¬ config.version.Before MIN_RESERVED_PINS_VERSION

/-! ### Where the plugins are -/

section Placed

variable {config : DeviceConfig} {images setId : ℕ} {set : ChipSetConfig}

/-- What the structural checks establish of a set. -/
structure Placed (config : DeviceConfig) (setId : ℕ) (set : ChipSetConfig) : Prop where
  ne : set.chips ≠ []
  single : set.setType = .single → set.chips.length ≤ 1
  banked : set.setType = .banked → ∀ chip0 ∈ set.chips.head?, ∀ chip ∈ set.chips,
    chip.chipType = chip0.chipType
  pio : ∀ chip ∈ set.chips, chip.chipType ≠ .pioPlugin
  system : ∀ chip ∈ set.chips, chip.chipType = .systemPlugin → setId = 0
  user : ∀ chip ∈ set.chips, chip.chipType = .userPlugin →
    setId = 1 ∧ firstType config.chipSets = some .systemPlugin

lemma checkChipSet_ok (h : checkChipSet config set setId = .ok ()) : Placed config setId set := by
  simp only [checkChipSet, checkSetSize, checkPluginPlace, seq_eq_ok, refuse_eq_ok, forM_eq_ok] at h
  obtain ⟨⟨hne, hsingle, -, -⟩, hchips⟩ := h
  refine ⟨hne, fun hs => ?_, fun hs chip0 h0 chip hchip => ?_, fun chip hchip hpio => ?_,
    fun chip hchip hsystem => ?_, fun chip hchip huser => ?_⟩
  · by_contra hlen
    exact hsingle ⟨by omega, hs⟩
  · have hbank := (hchips chip hchip).2.1
    rw [Option.mem_def] at h0
    rw [checkBankType, h0] at hbank
    by_contra hdiffers
    exact refuse_eq_ok.mp hbank ⟨hs, hdiffers⟩
  · have htype := (hchips chip hchip).1
    rw [checkChipType, hpio] at htype
    have hfail := (seq_eq_ok.mp htype).2
    cases hfail
  · by_contra hid
    exact (hchips chip hchip).2.2.1 ⟨hsystem, hid⟩
  · obtain ⟨-, -, -, hid, hfirst⟩ := hchips chip hchip
    exact ⟨by_contra fun hno => hid ⟨huser, hno⟩, by_contra fun hno => hfirst ⟨huser, hno⟩⟩

lemma checkChipSets_ok (h : checkChipSets config = .ok images) (hi : setId < config.chipSets.length) :
    Placed config setId config.chipSets[setId] := by
  refine checkChipSet_ok (forM_eq_ok.mp (seq_eq_ok.mp h).1 (config.chipSets[setId], setId) ?_)
  exact List.mem_zipIdx_iff_getElem?.mpr (List.getElem?_eq_getElem hi)

lemma controlNames_plugin {t : ChipType} (hp : t.isPlugin) : controlNames t = [] := by
  refine List.eq_nil_iff_forall_not_mem.mpr fun name hname => ?_
  have hline := (MultiCs.mem_controlNames.mp hname).2
  rw [StatedLines.plugin_line hp] at hline
  cases hline

/-- Where a chip of a set is a plugin, its first chip is. -/
lemma plugin_head (hplaced : Placed config setId set)
    (hlines : set.chips.all (·.chipType.isPlugin) ∨ SetOk set) (hp : isPlugin set)
    {chip0 : ChipConfig} (h0 : chip0 ∈ set.chips.head?) : chip0.chipType.isPlugin := by
  obtain ⟨chip, hchip, hplugin⟩ := List.any_eq_true.mp hp
  rcases hlines with hall | hok
  · exact List.all_eq_true.mp hall chip0 (List.mem_of_head? h0)
  cases hcs : set.chips with
  | nil => exact absurd hcs hplaced.ne
  | cons c rest =>
    rw [hcs, List.head?_cons, Option.mem_def, Option.some.injEq] at h0
    subst h0
    rw [hcs] at hchip
    rcases List.mem_cons.mp hchip with rfl | hrest
    · exact hplugin
    cases htype : set.setType with
    | single =>
      have hlen := hplaced.single htype
      rw [hcs] at hlen
      cases rest with
      | nil => exact nomatch hrest
      | cons => simp at hlen
    | banked =>
      rw [← hplaced.banked htype c (by rw [hcs]; rfl) chip (by rw [hcs]; exact hchip)]
      exact hplugin
    | multi =>
      cases rest with
      | nil => exact nomatch hrest
      | cons chip1 chips =>
        -- A secondary selects on a line, which a plugin has none of.
        obtain ⟨select, hsecondaries, -⟩ := hok.multi c chip1 chips htype hcs
        have hactive := (hsecondaries chip hrest).active
        rw [activeLines, controlNames_plugin hplugin] at hactive
        cases hactive

lemma isPlugin_iff {t : ChipType} :
    t.isPlugin ↔ t = .systemPlugin ∨ t = .userPlugin ∨ t = .pioPlugin := by
  cases t <;> decide

lemma slotType_system {chip0 : ChipConfig} (h0 : set.chips.head? = some chip0) :
    slotType set = 0 ↔ chip0.chipType = .systemPlugin := by
  rw [slotType, h0, Option.map_some]
  cases chip0.chipType <;> cases set.setType <;> decide

lemma slotType_user {chip0 : ChipConfig} (h0 : set.chips.head? = some chip0) :
    slotType set = 1 ↔ chip0.chipType = .userPlugin := by
  rw [slotType, h0, Option.map_some]
  cases chip0.chipType <;> cases set.setType <;> decide

/-- The slots of plugins are the first, for the system plugin, and the second, for the user plugin
that goes with one. -/
structure PluginSlots (config : DeviceConfig) : Prop where
  system : ∀ h : 0 < config.chipSets.length,
    slotType config.chipSets[0] = 0 ↔ isPlugin config.chipSets[0]
  user : ∀ h : 1 < config.chipSets.length,
    slotType config.chipSets[1] = 1 ↔ isPlugin config.chipSets[1]
  first : ∀ i (h : i < config.chipSets.length), isPlugin config.chipSets[i] →
    i = 0 ∨ (i = 1 ∧ isPlugin config.chipSets[0])

lemma Accepted.pluginSlots (h : Accepted config) : PluginSlots config := by
  obtain ⟨images, hsets⟩ := h.sets
  have hhead : ∀ i (hi : i < config.chipSets.length), ∃ chip0,
      config.chipSets[i].chips.head? = some chip0 ∧
        (isPlugin config.chipSets[i] ↔ chip0.chipType.isPlugin) ∧
        (chip0.chipType = .systemPlugin → i = 0) ∧ chip0.chipType ≠ .pioPlugin ∧
        (chip0.chipType = .userPlugin → i = 1 ∧ firstType config.chipSets = some .systemPlugin) := by
    intro i hi
    have hplaced := checkChipSets_ok hsets hi
    obtain ⟨chip0, h0⟩ := Option.isSome_iff_exists.mp (List.isSome_head?.mpr hplaced.ne)
    have hmem := List.mem_of_head? h0
    have hlines := checkCsV2_ok h.lines _ (List.getElem_mem hi)
    exact ⟨chip0, h0, ⟨fun hp => plugin_head hplaced hlines hp h0,
      fun hp => List.any_eq_true.mpr ⟨chip0, hmem, hp⟩⟩, hplaced.system chip0 hmem,
      hplaced.pio chip0 hmem, hplaced.user chip0 hmem⟩
  refine ⟨fun hi => ?_, fun hi => ?_, fun i hi hp => ?_⟩
  · obtain ⟨chip0, h0, hp, -, hpio, huser⟩ := hhead 0 hi
    rw [slotType_system h0, hp, isPlugin_iff]
    simp only [hpio, or_false]
    exact ⟨Or.inl, fun h => h.resolve_right fun h => absurd (huser h).1 (by decide)⟩
  · obtain ⟨chip0, h0, hp, hsystem, hpio, -⟩ := hhead 1 hi
    rw [slotType_user h0, hp, isPlugin_iff]
    simp only [hpio, or_false]
    exact ⟨Or.inr, fun h => h.resolve_left fun h => absurd (hsystem h) (by decide)⟩
  · obtain ⟨chip0, h0, hplugin, hsystem, hpio, huser⟩ := hhead i hi
    rcases isPlugin_iff.mp (hplugin.mp hp) with ht | ht | ht
    · exact .inl (hsystem ht)
    · obtain ⟨hone, hfirst⟩ := huser ht
      refine .inr ⟨hone, ?_⟩
      obtain ⟨chip1, h1, hfirstPlugin, -⟩ := hhead 0 (by omega)
      rw [hfirstPlugin, isPlugin_iff]
      rw [firstType, List.head?_eq_getElem?, List.getElem?_eq_getElem (by omega : 0 < _)] at hfirst
      rw [Option.bind_some, h1, Option.map_some, Option.some.injEq] at hfirst
      exact .inl hfirst
    · exact absurd ht hpio

/-- Where those that pass come first, they are as many as pass. -/
lemma countP_of_first {α : Type} {p : α → Bool} :
    ∀ {l : List α}, (∀ i j (hij : i < j) (hj : j < l.length), p l[j] → p l[i]) →
      ∀ i (hi : i < l.length), p l[i] ↔ i < l.countP p
  | [], _, _, hi => absurd hi (Nat.not_lt_zero _)
  | a :: l, h, i, hi => by
    have htail : ∀ i (hi : i < l.length), p l[i] ↔ i < l.countP p :=
      countP_of_first fun i j hij hj => h (i + 1) (j + 1) (by omega) (Nat.succ_lt_succ hj)
    by_cases ha : p a
    · rw [List.countP_cons_of_pos ha]
      cases i with
      | zero => simp [ha]
      | succ i => simpa using htail i (by simpa using hi)
    · have hnone : ∀ b ∈ l, ¬ p b := by
        intro b hb hp
        obtain ⟨j, hj, rfl⟩ := List.getElem_of_mem hb
        exact ha (h 0 (j + 1) (Nat.succ_pos j) (Nat.succ_lt_succ hj) hp)
      rw [List.countP_cons_of_neg ha, List.countP_eq_zero.mpr hnone]
      refine iff_of_false ?_ (Nat.not_lt_zero i)
      rcases List.mem_cons.mp (List.getElem_mem hi) with heq | hmem
      · rwa [heq]
      · exact hnone _ hmem

/-- The sets before the images are the plugins. -/
lemma PluginSlots.isPlugin (h : PluginSlots config) {i : ℕ} (hi : i < config.chipSets.length) :
    SelectJumpers.isPlugin config.chipSets[i] ↔ i < config.chipSets.countP SelectJumpers.isPlugin := by
  refine countP_of_first (fun i j hij hj hp => ?_) i hi
  rcases h.first j hj hp with rfl | ⟨rfl, hp⟩
  · exact absurd hij (Nat.not_lt_zero i)
  · obtain rfl : i = 0 := by omega
    exact hp

end Placed

/-! ### What the rows say -/

section Rows

variable {select : ImageSelect} {index : ℕ} {set : ChipSetConfig} {closed : ℕ → Bool}

/-- The value of the jumpers that are closed, as their pins are numbered. -/
def closedValue (read : List ℕ) (closed : ℕ → Bool) : ℕ :=
  Nat.ofBits fun bit : Fin read.length => closed read[bit]

lemma testBit_closedValue {read : List ℕ} {bit : ℕ} :
    (closedValue read closed).testBit bit = read[bit]?.any closed := by
  by_cases hbit : bit < read.length
  · rw [closedValue, Nat.testBit_ofBits_lt _ _ hbit, List.getElem?_eq_getElem hbit, Option.any_some]
    rfl
  · rw [closedValue, Nat.testBit_ofBits_ge _ _ (not_lt.mp hbit),
      List.getElem?_eq_none (not_lt.mp hbit), Option.any_none]

lemma closedValue_lt (read : List ℕ) (closed : ℕ → Bool) :
    closedValue read closed < 2 ^ read.length := Nat.ofBits_lt_two_pow _

lemma closedValue_congr {read : List ℕ} {closed' : ℕ → Bool}
    (h : ∀ ii ∈ read, closed ii = closed' ii) : closedValue read closed = closedValue read closed' :=
  congrArg Nat.ofBits (funext fun bit => h _ (List.getElem_mem bit.isLt))

lemma mem_closedFor {image ii : ℕ} :
    ii ∈ select.closedFor image ↔ ∃ bit, select.read[bit]? = some ii ∧ image.testBit bit := by
  simp only [ImageSelect.closedFor, List.mem_map, List.mem_filter, Prod.exists,
    List.mem_zipIdx_iff_getElem?]
  constructor
  · rintro ⟨_, bit, hbit, rfl⟩
    exact ⟨bit, hbit⟩
  · rintro ⟨bit, hbit⟩
    exact ⟨ii, bit, hbit, rfl⟩

/-- The jumpers closed for an image have its number. -/
lemma closedValue_closedFor {image : ℕ} (hread : select.read.Nodup)
    (himage : image < 2 ^ select.read.length)
    (h : ∀ ii ∈ select.read, closed ii ↔ ii ∈ select.closedFor image) :
    closedValue select.read closed = image := by
  refine Nat.eq_of_testBit_eq fun bit => ?_
  rw [testBit_closedValue]
  cases hii : select.read[bit]? with
  | none =>
    have hle := Nat.pow_le_pow_right (n := 2) (by decide) (List.getElem?_eq_none_iff.mp hii)
    rw [Option.any_none, Nat.testBit_lt_two_pow (himage.trans_le hle)]
  | some ii =>
    rw [Option.any_some, Bool.eq_iff_iff, h ii (List.mem_of_getElem? hii), mem_closedFor]
    refine ⟨fun ⟨bit', hbit', htest⟩ => ?_, fun htest => ⟨bit, hii, htest⟩⟩
    obtain ⟨hlt, hget⟩ := List.getElem?_eq_some_iff.mp hii
    obtain ⟨hlt', hget'⟩ := List.getElem?_eq_some_iff.mp hbit'
    rwa [← hread.getElem_inj_iff.mp (hget'.trans hget.symm)]

lemma row_eq_some {row : Row} (h : select.row index set = some row) :
    select.turboBoot = false ∧ select.plugins ≤ index ∧
      row = if 2 ^ select.read.length ≤ index - select.plugins then .cannotBeSelected
        else .jumpered (select.closedFor (index - select.plugins)) := by
  unfold ImageSelect.row at h
  dsimp only at h
  split at h
  · cases h
  next hshown =>
  split at h
  · cases h
  next hindex =>
  refine ⟨?_, not_lt.mp hindex, ?_⟩
  · rw [Bool.or_eq_true, not_or, Bool.not_eq_true', Bool.not_eq_false, ImageSelect.annotated,
      Bool.and_eq_true, Bool.not_eq_true'] at hshown
    exact hshown.1.1
  · split_ifs at h ⊢ <;> exact (Option.some.inj h).symm

lemma nodup_selectPinsRead (reserved : UInt8) (board : SelectBoard) :
    (selectPinsRead reserved board).Nodup := List.nodup_range.filter _

lemma mem_selectPinsRead {reserved : UInt8} {board : SelectBoard} {ii : ℕ} :
    ii ∈ selectPinsRead reserved board ↔
      ii < board.selPins.length ∧ reserved.toNat.testBit ii = false := by
  simp [selectPinsRead]

end Rows

end OneRom.SelectJumpers
