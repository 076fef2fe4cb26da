import OneRom.PluginImages

/-!
What a build puts into flash of the plugins' files, and where.

The checks read a file's header as the file is, and `arrange` is what the location and the
transforms leave of it. `sound_iff` says that a build is sound exactly where every plugin is its
set's first chip and what is left of its file still has a header that passes.
-/

namespace OneRom.PluginFlash

open OneRom.Checks OneRom.CheckCs OneRom.ChipTypes OneRom.Flash OneRom.ImageFile
open OneRom.PluginImages OneRom.SelectJumpers OneRom.SlotArg OneRom.SlotLayout
open OneRom.Plugins (flashCs0BaseAddr systemPluginOffset systemPluginSize)

/-! ### What a build promises -/

/-- The bytes of flash that are a chip's own: of a plugin set, the slot is its first chip's. -/
def chipFlash (chips : FlashChips) (out : List Pointer × List UInt8) (setId chipIdx : ℕ)
    (t : ChipType) : Option (List UInt8) :=
  match chipIdx, out.1[setId]? with
  | 0, some (.addr32 addr) => some ((out.2.drop (chips.offset addr)).take t.sizeBytes)
  | _, _ => none

/-- Where the firmware expects a plugin to run, from the plugin's index. -/
def launchRegion (index : UInt32) : ℕ :=
  (flashCs0BaseAddr + systemPluginOffset + index * systemPluginSize).toNat

/-- A chip of a builder's configuration, and where it is. -/
def ChipAt (b : Builder) (setId chipIdx : ℕ) (chip : FileChip) : Prop :=
  ∃ set, b.sets[setId]? = some set ∧ set.chips[chipIdx]? = some chip

/-- Every plugin in flash has a header that the firmware runs, and lies where it runs from. -/
structure Sound (b : Builder) (props : Props) (out : List Pointer × List UInt8) : Prop where
  header : ∀ setId chipIdx chip, ChipAt b setId chipIdx chip → chip.chipType.isPlugin →
    ∃ image, chipFlash (FlashChips.new props.variant props.size) out setId chipIdx chip.chipType =
        some image ∧
      256 ≤ image.length ∧ HeaderOk (fun i => image.getD i 0) props.version
  system : ∀ chip, ChipAt b 0 0 chip → chip.chipType = .systemPlugin →
    out.1[0]? = some (.addr32 (launchRegion 0))
  user : ∀ chip, ChipAt b 1 0 chip → chip.chipType = .userPlugin →
    out.1[1]? = some (.addr32 (launchRegion 1))

/-- What the location and the transforms leave of a plugin's file. -/
def arrange (chip : FileChip) (data : List UInt8) : Except ImageError Transformed := do
  let located ← locate chip.file chip.location data
  (applyTransforms located chip.transform chip.sizeHandling PAD_BLANK_BYTE).mapError
    (.transform chip.file)

/-- Every plugin is its set's first chip, and what is left of its file, followed by the blank byte or
by itself again, has a header that passes. -/
def Keeps (b : Builder) (props : Props) : Prop :=
  ∀ setId chipIdx chip, ChipAt b setId chipIdx chip → chip.chipType.isPlugin → chipIdx = 0 ∧
    ∃ data source, b.chipData (firstId b.sets setId + chipIdx) = some data ∧
      arrange chip data = .ok source ∧ HeaderOk (laid source.data chip.sizeHandling) props.version

/-! ### The checks of the plugins' files -/

lemma checkHeader_ok {built : FirmwareVersion} {chip : FileChip} {data : List UInt8} :
    checkHeader built chip data = .ok () ↔
      256 ≤ data.length ∧ HeaderOk (fun i => data.getD i 0) built := by
  simp only [checkHeader, seq_eq_ok, refuse_eq_ok]
  constructor
  · rintro ⟨hlen, hmagic, hapi, hversion⟩
    exact ⟨by omega, not_not.mp hmagic, not_not.mp hapi, hversion⟩
  · rintro ⟨hlen, hmagic, hapi, hversion⟩
    exact ⟨by omega, not_not.mpr hmagic, not_not.mpr hapi, hversion⟩

lemma checkHeader_error {built : FirmwareVersion} {chip : FileChip} {data : List UInt8}
    {e : BuildError} (h : checkHeader built chip data = .error e) :
    e ≠ .unwrapNone ∧ ∀ slot, e ≠ .flash (.pluginMoved slot) := by
  simp only [checkHeader, bind_eq_error, refuse_eq_error] at h
  obtain ⟨-, rfl⟩ | ⟨-, -, ⟨-, rfl⟩ | ⟨-, -, ⟨-, rfl⟩ | ⟨-, -, -, rfl⟩⟩⟩ := h <;>
    exact ⟨by simp, by simp⟩

/-- What validation establishes of a plugin chip: its file is there and has a header. -/
lemma buildValidation_ok {b : Builder} {built : FirmwareVersion}
    (h : buildValidation b built = .ok ()) {n : ℕ} {chip : FileChip}
    (hchip : (b.sets.flatMap (·.chips))[n]? = some chip) (ht : chip.chipType.isPlugin) :
    ∃ data, b.chipData n = some data ∧ checkHeader built chip data = .ok () := by
  rw [buildValidation, seq_eq_ok, seq_eq_ok] at h
  have hplugin := forM_eq_ok.mp h.2.2 _ (mem_numberedChips.mpr hchip)
  dsimp only at hplugin
  rw [if_pos ht] at hplugin
  cases hdata : b.chipData n with
  | none => rw [hdata] at hplugin; cases hplugin
  | some data => exact ⟨data, rfl, by simpa [hdata] using hplugin⟩

/-- Validation finds every plugin's file, and has no say in where plugins are. -/
lemma buildValidation_error {b : Builder} {built : FirmwareVersion} (hb : Ready b) {e : BuildError}
    (h : buildValidation b built = .error e) :
    e ≠ .unwrapNone ∧ ∀ slot, e ≠ .flash (.pluginMoved slot) := by
  rw [buildValidation] at h
  rcases bind_eq_error.mp h with hnames | ⟨_, hnames, h⟩
  · obtain ⟨⟨chip, n⟩, -, hfail⟩ := forM_eq_error hnames
    dsimp only at hfail
    split at hfail
    · cases hfail
    · cases hfail
      exact ⟨by simp, by simp⟩
  rcases bind_eq_error.mp h with hfiles | ⟨_, hfiles, h⟩
  · obtain ⟨id, -, hfail⟩ := forM_eq_error hfiles
    obtain ⟨-, rfl⟩ := refuse_eq_error.mp hfail
    exact ⟨by simp, by simp⟩
  obtain ⟨⟨chip, n⟩, hmem, hfail⟩ := forM_eq_error h
  have hchip := mem_numberedChips.mp hmem
  dsimp only at hfail
  split at hfail
  swap
  · cases hfail
  next ht =>
  have hunnamed : chip.plugin = none := by
    have hname := forM_eq_ok.mp hnames _ hmem
    dsimp only at hname
    cases hplugin : chip.plugin with
    | none => rfl
    | some name => rw [hplugin] at hname; cases hname
  obtain ⟨id, hid⟩ := Option.isSome_iff_exists.mp (hb.keyed n chip hchip ht hunnamed)
  have hlt : id < totalFileCount b.fileIdMap := by
    obtain ⟨l₁, l₂, hl, -⟩ := List.lookup_eq_some_iff.mp hid
    exact hb.closed.lt_card (by simp [hl])
  have hloaded := refuse_eq_ok.mp (forM_eq_ok.mp hfiles id (List.mem_range.mpr hlt))
  obtain ⟨data, hdata⟩ := Option.ne_none_iff_exists'.mp hloaded
  have hchipData : b.chipData n = some data := by rw [Builder.chipData, hid, Option.bind_some, hdata]
  rw [hchipData] at hfail
  exact checkHeader_error hfail

/-! ### A plugin's image -/

/-- A file with a plugin's header is no record file. -/
lemma decode_plugin {chip : FileChip} {data : List UInt8} {source : Option (List UInt8)}
    {blankByte : UInt8} (hmagic : HasMagic fun i => data.getD i 0)
    (h : decode chip (some data) = .ok (source, blankByte)) :
    source = some data ∧ blankByte = PAD_BLANK_BYTE := by
  obtain ⟨h0, -⟩ := hmagic
  cases data with
  | nil => simp at h0
  | cons c rest =>
    obtain rfl : c = 0x4F := by simpa using h0
    unfold decode at h
    split at h
    · next raw _ hraw =>
      cases hraw
      rw [decodeIhex_refused (by decide) (by decide)] at h
      obtain ⟨-, h⟩ := seq_eq_ok.mp h
      cases h
    · next raw _ hraw =>
      cases hraw
      rw [decodeSrec_refused (by decide) (by decide) (by decide)] at h
      obtain ⟨-, h⟩ := seq_eq_ok.mp h
      cases h
    · cases h
      exact ⟨rfl, rfl⟩

/-- **A plugin's image** is what is left of its file, laid out to the size of a plugin. -/
lemma chipImage_plugin {standby : Bool} {chip : FileChip} {chipId : ℕ} {data : List UInt8}
    {image : Option (List UInt8)} (ht : chip.chipType.isPlugin)
    (hmagic : HasMagic fun i => data.getD i 0)
    (h : chipImage standby chip chipId (some data) = .ok image) :
    ∃ source bytes, arrange chip data = .ok source ∧ image = some bytes ∧
      bytes.length = chip.chipType.sizeBytes ∧
      ∀ i < chip.chipType.sizeBytes, bytes.getD i 0 = laid source.data chip.sizeHandling i := by
  rw [chipImage, seq_eq_ok] at h
  obtain ⟨-, h⟩ := h
  obtain ⟨⟨file, blankByte⟩, hdecode, h⟩ := bind_eq_ok.mp h
  obtain ⟨rfl, rfl⟩ := decode_plugin hmagic hdecode
  dsimp only at h
  rw [if_neg (by simp), fromRawRomImage, seq_eq_ok] at h
  obtain ⟨-, h⟩ := h
  obtain ⟨located, hlocated, h⟩ := bind_eq_ok.mp h
  obtain ⟨source, hsource, h⟩ := bind_eq_ok.mp h
  obtain ⟨bytes, hbytes, h⟩ := bind_eq_ok.mp h
  cases h
  obtain ⟨hlen, hbyte⟩ := reconcile_plugin ht hbytes
  refine ⟨source, bytes, ?_, ?_, hlen, hbyte⟩
  · rw [arrange, hlocated]
    exact hsource
  · rw [hlen, Nat.sub_self, List.replicate_zero, List.append_nil]

/-! ### The sets -/

/-- A builder that passed validation, and the sets and slots that were built. -/
structure Built (layOut : ChipSet → Except String Slot) (b : Builder) (props : Props)
    (sets : List ChipSet) (slots : List Slot) : Prop where
  valid : buildValidation b props.version = .ok ()
  chipSets : buildChipSets b = .ok sets
  slotsOf : sets.mapM (slotOf layOut) = .ok slots

section Slots

variable {layOut : ChipSet → Except String Slot} {b : Builder} {props : Props}
  {sets : List ChipSet} {slots : List Slot}

/-- A plugin's file and what is left of it, and its image. -/
structure PluginImage (b : Builder) (props : Props) (n : ℕ) (chip : FileChip)
    (data : List UInt8) (source : Transformed) (bytes : List UInt8) : Prop where
  data_eq : b.chipData n = some data
  arranged : arrange chip data = .ok source
  length : bytes.length = chip.chipType.sizeBytes
  byte : ∀ i < chip.chipType.sizeBytes, bytes.getD i 0 = laid source.data chip.sizeHandling i

/-- The images that were built of a set. -/
lemma Built.set_images (h : Built layOut b props sets slots) {setId : ℕ} {set : FileSet}
    (hset : b.sets[setId]? = some set) : ∃ images, sets[setId]? = some ⟨set, images⟩ ∧
      ∀ (j : ℕ) chip, set.chips[j]? = some chip → chip.chipType.isPlugin →
        ∃ data source bytes, images[j]? = some (some bytes) ∧
          PluginImage b props (firstId b.sets setId + j) chip data source bytes := by
  have hmem : ((numbered 0 b.sets).zipIdx)[setId]? = some ((set, firstId b.sets setId), setId) := by
    rw [List.getElem?_zipIdx, numbered_getElem?, hset]
    simp
  obtain ⟨built, hbuilt, hbuild⟩ := mapM_getElem? h.chipSets hmem
  dsimp only at hbuild
  rw [buildChipSet] at hbuild
  obtain ⟨images, himages, hrest⟩ := bind_eq_ok.mp hbuild
  obtain ⟨-, hpure⟩ := seq_eq_ok.mp hrest
  cases hpure
  refine ⟨images, hbuilt, fun j chip hchip ht => ?_⟩
  have hj : (set.chips.zipIdx (firstId b.sets setId))[j]? =
      some (chip, firstId b.sets setId + j) := by
    rw [List.getElem?_zipIdx, hchip]
    rfl
  obtain ⟨image, himage, hmade⟩ := mapM_getElem? himages hj
  rw [mapError_eq_ok] at hmade
  obtain ⟨data, hdata, hheader⟩ := buildValidation_ok h.valid (flatMap_chips_getElem? hset hchip) ht
  rw [hdata] at hmade
  obtain ⟨source, bytes, harranged, rfl, hlen, hbyte⟩ :=
    chipImage_plugin ht (checkHeader_ok.mp hheader).2.magic hmade
  exact ⟨data, source, bytes, himage, hdata, harranged, hlen, hbyte⟩

/-- The slot of a set whose first chip is a plugin. -/
lemma Built.plugin_slot (h : Built layOut b props sets slots) {setId : ℕ} {chip : FileChip}
    (hchip : ChipAt b setId 0 chip) (ht : chip.chipType.isPlugin) :
    ∃ data source bytes, slots[setId]? = some (pluginSlot chip.chipType (some bytes)) ∧
      PluginImage b props (firstId b.sets setId) chip data source bytes := by
  obtain ⟨set, hset, hfirst⟩ := hchip
  obtain ⟨images, hbuilt, himages⟩ := h.set_images hset
  obtain ⟨data, source, bytes, himage, hplugin⟩ := himages 0 chip hfirst ht
  obtain ⟨slot, hslot, hmade⟩ := mapM_getElem? h.slotsOf hbuilt
  have hhead : set.chips.head?.map (·.chipType) = some chip.chipType := by
    rw [List.head?_eq_getElem?, hfirst, Option.map_some]
  rw [slotOf] at hmade
  dsimp only at hmade
  rw [hhead] at hmade
  dsimp only at hmade
  rw [if_pos ht, List.head?_eq_getElem?, himage] at hmade
  cases hmade
  exact ⟨data, source, bytes, hslot, hplugin⟩

/-- A slot that is linked is that of a set whose first chip is a system or user plugin. -/
lemma Built.linked_slot (h : Built layOut b props sets slots) {setId : ℕ} {slot : Slot}
    (hslot : slots[setId]? = some slot) (hlinked : slot.linked = true) :
    ∃ chip, ChipAt b setId 0 chip ∧
      (chip.chipType = .systemPlugin ∨ chip.chipType = .userPlugin) := by
  have hlt : setId < b.sets.length := by
    have hlen := (mapM_eq_ok h.slotsOf).length_eq
    have hlen' := (mapM_eq_ok h.chipSets).length_eq
    obtain ⟨hi, -⟩ := List.getElem?_eq_some_iff.mp hslot
    have hnumbered : (numbered 0 b.sets).length = b.sets.length := by
      refine Nat.le_antisymm ?_ ?_
      · by_contra hgt
        have hnone := numbered_getElem? 0 b.sets b.sets.length
        rw [List.getElem?_eq_none le_rfl, Option.map_none, List.getElem?_eq_none_iff] at hnone
        omega
      · by_contra hgt
        have hsome := numbered_getElem? 0 b.sets (numbered 0 b.sets).length
        rw [List.getElem?_eq_none le_rfl, List.getElem?_eq_getElem (by omega)] at hsome
        cases hsome
    rw [List.length_zipIdx, hnumbered] at hlen'
    omega
  obtain ⟨set, hset⟩ : ∃ set, b.sets[setId]? = some set := ⟨_, List.getElem?_eq_getElem hlt⟩
  obtain ⟨images, hbuilt, -⟩ := h.set_images hset
  obtain ⟨slot', hslot', hmade⟩ := mapM_getElem? h.slotsOf hbuilt
  cases hslot.symm.trans hslot'
  rw [slotOf] at hmade
  dsimp only at hmade
  split at hmade
  · cases hmade
  next t hhead =>
  obtain ⟨chip, hchip, rfl⟩ := Option.map_eq_some_iff.mp hhead
  split at hmade
  · cases hmade
    exact ⟨chip, ⟨set, hset, by rw [← List.head?_eq_getElem?, hchip]⟩, of_decide_eq_true hlinked⟩
  · obtain ⟨made, -, rfl⟩ := map_eq_ok.mp hmade
    cases hlinked

end Slots

/-! ### Where plugins are placed -/

/-- The slots before one, in order, take what is between its address and `contiguous`. -/
lemma slotPointers_ok (contiguous n : ℕ) {placed : List (Slot × ℕ)}
    (h : ∀ i p, placed[i]? = some p → p.1.linked = true →
      p.2 = contiguous + ((placed.take i).map (·.1.occupied)).sum) :
    slotPointers contiguous n placed = .ok (placed.map fun p => p.1.pointer p.2) := by
  induction placed generalizing contiguous n with
  | nil => rfl
  | cons p placed ih =>
    obtain ⟨slot, addr⟩ := p
    have hrest := ih (contiguous + slot.occupied) (n + 1) fun i p hp hlinked => by
      have hnext := h (i + 1) p hp hlinked
      rw [List.take_succ_cons, List.map_cons, List.sum_cons, ← Nat.add_assoc] at hnext
      exact hnext
    have hfirst : ¬(slot.linked = true ∧ addr ≠ contiguous) := by
      rintro ⟨hlinked, hne⟩
      exact hne (by simpa using h 0 (slot, addr) rfl hlinked)
    rw [slotPointers, if_neg hfirst, hrest]
    rfl

/-- The size of a plugin. -/
def pluginSize : ℕ := 65536

lemma sizeBytes_plugin {t : ChipType} (ht : t.isPlugin) : t.sizeBytes = pluginSize := by
  rcases isPlugin_iff.mp ht with rfl | rfl | rfl <;> rfl

/-- A board's first chip has room for two plugins, or is its only chip. -/
lemma new_room (variant : Variant) (size : BoardSize) :
    (FlashChips.new variant size).second = none ∨
      (FlashChips.new variant size).romDataStart + 2 * pluginSize ≤
        (FlashChips.new variant size).first.stop := by
  cases variant <;> cases size <;> decide

/-- A slot for which the first chip has room, if any, is placed there. -/
lemma take_first {spaces spaces' : Spaces} {size addr : ℕ}
    (hroom : spaces.second = none ∨ spaces.first.Fits size)
    (h : spaces.take size = some (addr, spaces')) :
    addr = spaces.first.next ∧
      spaces' = ⟨⟨spaces.first.next + size, spaces.first.stop⟩, spaces.second⟩ := by
  rcases Spaces.take_cases h with ⟨-, rfl, rfl⟩ | ⟨hno, second, hsecond, -⟩
  · exact ⟨rfl, rfl⟩
  · rcases hroom with hnone | hfits
    · rw [hnone] at hsecond
      cases hsecond
    · exact absurd hfits hno

/-- Plugins that come first are placed one after the other. -/
lemma plugin_addrs {variant : Variant} {size : BoardSize} {sizes addrs : List ℕ}
    (h : slotAddresses (FlashChips.new variant size) sizes = .ok addrs) :
    (sizes[0]? = some pluginSize →
      addrs[0]? = some (FlashChips.new variant size).romDataStart) ∧
    (sizes[0]? = some pluginSize → sizes[1]? = some pluginSize →
      addrs[1]? = some ((FlashChips.new variant size).romDataStart + pluginSize)) := by
  have hbelow := (FlashChips.new variant size).below
  have hroom := new_room variant size
  generalize FlashChips.new variant size = chips at h hbelow hroom ⊢
  rw [show FLASH_CS1_BASE_ADDR = 0x11000000 from rfl] at hbelow
  have hstop : chips.first.stop < 0x11000000 := hbelow
  have hsecond : chips.spaces.second = none ∨
      chips.romDataStart + 2 * pluginSize ≤ chips.first.stop := by
    refine hroom.imp_left fun hnone => ?_
    rw [FlashChips.spaces, hnone]
    rfl
  have hsize : pluginSize = 65536 := rfl
  cases sizes with
  | nil => simp
  | cons size sizes =>
    obtain ⟨addr, spaces, rest, htake, hrest, rfl⟩ := (place_cons size sizes).mp h
    have hfirst : size = pluginSize → addr = chips.romDataStart ∧
        spaces = ⟨⟨chips.romDataStart + size, chips.first.stop⟩, chips.spaces.second⟩ := by
      rintro rfl
      refine take_first (hsecond.imp_right fun hle => ?_) htake
      exact (⟨by omega, by omega⟩ : chips.romDataStart + pluginSize < 2 ^ 32 ∧
        chips.romDataStart + pluginSize ≤ chips.first.stop)
    refine ⟨fun h0 => ?_, fun h0 h1 => ?_⟩
    · obtain ⟨rfl, -⟩ := hfirst (Option.some.inj h0)
      rfl
    · obtain rfl : size = pluginSize := Option.some.inj h0
      obtain ⟨rfl, rfl⟩ := hfirst rfl
      cases sizes with
      | nil => cases h1
      | cons size sizes =>
        obtain rfl : size = pluginSize := Option.some.inj h1
        obtain ⟨addr, spaces, rest, htake, -, rfl⟩ := (place_cons _ sizes).mp hrest
        let after : Spaces :=
          ⟨⟨chips.romDataStart + pluginSize, chips.first.stop⟩, chips.spaces.second⟩
        have hfits : after.second = none ∨ after.first.Fits pluginSize :=
          hsecond.imp_right fun hle => And.intro
            (show chips.romDataStart + pluginSize + pluginSize < 2 ^ 32 by omega)
            (show chips.romDataStart + pluginSize + pluginSize ≤ chips.first.stop by omega)
        obtain ⟨rfl, -⟩ := take_first hfits htake
        rfl

section Placed

variable {layOut : ChipSet → Except String Slot} {b : Builder} {props : Props}
  {sets : List ChipSet} {slots : List Slot}

/-- Where a plugin is first in its set: the system plugin in the first set, and the user plugin in
the second, after it. -/
lemma plugin_set (hb : Ready b) {setId : ℕ} {chip : FileChip} (hchip : ChipAt b setId 0 chip) :
    (chip.chipType = .systemPlugin → setId = 0) ∧
    (chip.chipType = .userPlugin → setId = 1 ∧
      ∃ first, ChipAt b 0 0 first ∧ first.chipType = .systemPlugin) := by
  obtain ⟨images, hsets⟩ := hb.sets
  obtain ⟨set, hset, hfirst⟩ := hchip
  obtain ⟨hi, rfl⟩ := List.getElem?_eq_some_iff.mp hset
  have hi' : setId < (deviceConfig b.version b.sets).chipSets.length := by
    simpa [deviceConfig] using hi
  have hplaced := checkChipSets_ok hsets hi'
  have hmem : chip.toChipConfig ∈ (deviceConfig b.version b.sets).chipSets[setId].chips := by
    simp only [deviceConfig, List.getElem_map, FileSet.toConfig]
    exact List.mem_map_of_mem (List.mem_of_getElem? hfirst)
  refine ⟨hplaced.system _ hmem, fun ht => ?_⟩
  obtain ⟨hone, hsystem⟩ := hplaced.user _ hmem ht
  refine ⟨hone, ?_⟩
  obtain ⟨set0, hset0, hhead⟩ := Option.bind_eq_some_iff.mp hsystem
  obtain ⟨config0, hconfig0, htype⟩ := Option.map_eq_some_iff.mp hhead
  rw [List.head?_eq_getElem?, deviceConfig, List.getElem?_map] at hset0
  obtain ⟨fileSet, hfile, rfl⟩ := Option.map_eq_some_iff.mp hset0
  rw [List.head?_eq_getElem?, FileSet.toConfig, List.getElem?_map] at hconfig0
  obtain ⟨first, hfirstChip, rfl⟩ := Option.map_eq_some_iff.mp hconfig0
  exact ⟨first, ⟨fileSet, hfile, hfirstChip⟩, htype⟩

lemma occupied_pluginSlot (t : ChipType) (bytes : List UInt8) :
    (pluginSlot t (some bytes)).occupied = bytes.length := rfl

/-- What a plugin that is first in its set takes of flash. -/
lemma Built.occupied (h : Built layOut b props sets slots) {setId : ℕ} {chip : FileChip}
    (hchip : ChipAt b setId 0 chip) (ht : chip.chipType.isPlugin) :
    (slots.map Slot.occupied)[setId]? = some pluginSize := by
  obtain ⟨data, source, bytes, hslot, hplugin⟩ := h.plugin_slot hchip ht
  rw [List.getElem?_map, hslot, Option.map_some, occupied_pluginSlot, hplugin.length,
    sizeBytes_plugin ht]

/-- The address of each plugin that is first in its set. -/
lemma Built.plugin_addr (hb : Ready b) (h : Built layOut b props sets slots) {addrs : List ℕ}
    (haddrs : slotAddresses (FlashChips.new props.variant props.size) (slots.map Slot.occupied) =
      .ok addrs) {setId : ℕ} {chip : FileChip} (hchip : ChipAt b setId 0 chip)
    (ht : chip.chipType = .systemPlugin ∨ chip.chipType = .userPlugin) :
    addrs[setId]? = some ((FlashChips.new props.variant props.size).romDataStart +
      ((slots.map Slot.occupied).take setId).sum) := by
  obtain ⟨hfirst, hsecond⟩ := plugin_addrs haddrs
  have hplugin : chip.chipType.isPlugin := isPlugin_iff.mpr (by tauto)
  rcases ht with ht | ht
  · obtain rfl := (plugin_set hb hchip).1 ht
    rw [hfirst (h.occupied hchip hplugin)]
    simp
  · obtain ⟨rfl, system, hsystem, hsystemType⟩ := (plugin_set hb hchip).2 ht
    have h0 := h.occupied hsystem (isPlugin_iff.mpr (Or.inl hsystemType))
    rw [hsecond h0 (h.occupied hchip hplugin)]
    obtain ⟨hlt, h0⟩ := List.getElem?_eq_some_iff.mp h0
    rw [List.take_one, List.head?_eq_getElem?, List.getElem?_eq_getElem hlt, h0]
    simp

/-- No plugin is moved. -/
lemma Built.pointers (hb : Ready b) (h : Built layOut b props sets slots) {addrs : List ℕ}
    (haddrs : slotAddresses (FlashChips.new props.variant props.size) (slots.map Slot.occupied) =
      .ok addrs) :
    slotPointers (FlashChips.new props.variant props.size).romDataStart 0 (slots.zip addrs) =
      .ok ((slots.zip addrs).map fun p => p.1.pointer p.2) := by
  refine slotPointers_ok _ _ fun i p hp hlinked => ?_
  obtain ⟨hslot, haddr⟩ := List.getElem?_zip_eq_some.mp hp
  obtain ⟨chip, hchip, ht⟩ := h.linked_slot hslot hlinked
  have hplace := h.plugin_addr hb haddrs hchip ht
  rw [haddr, Option.some.injEq] at hplace
  have hlen : (slots.zip addrs).map (·.1.occupied) = slots.map Slot.occupied := by
    have hfst : (slots.zip addrs).map Prod.fst = slots := by
      rw [List.map_fst_zip]
      rw [length_place haddrs, List.length_map]
    conv_rhs => rw [← hfst, List.map_map]
    rfl
  rw [hplace, ← hlen, List.map_take]

end Placed

/-! ### The build -/

section Build

variable {layOut : ChipSet → Except String Slot} {b : Builder} {props : Props}
  {sets : List ChipSet} {slots : List Slot} {out : List Pointer × List UInt8}

lemma build_ok_iff : build layOut b props = .ok out ↔
    (¬MAX_FW_VERSION.Before props.version ∧ ¬(props.size ≠ .m ∧ b.version.Before ⟨0, 8, 0⟩) ∧
      props.variant.family = .rp2350) ∧
    ∃ sets slots, Built layOut b props sets slots ∧
      buildSlots (FlashChips.new props.variant props.size) slots = .ok out := by
  rw [build, seq_eq_ok, seq_eq_ok, seq_eq_ok, refuse_eq_ok, refuse_eq_ok, buildV2, bind_eq_ok]
  constructor
  · rintro ⟨hversion, hvalid, hsize, sets, hsets, h⟩
    obtain ⟨slots, hslots, h⟩ := bind_eq_ok.mp h
    obtain ⟨made, hmade, h⟩ := bind_eq_ok.mp h
    rw [seq_eq_ok, refuse_eq_ok, pure_eq_ok] at h
    obtain ⟨hfamily, rfl⟩ := h
    exact ⟨⟨hversion, hsize, not_not.mp hfamily⟩, sets, slots, ⟨hvalid, hsets, hslots⟩,
      mapError_eq_ok.mp hmade⟩
  · rintro ⟨⟨hversion, hsize, hfamily⟩, sets, slots, ⟨hvalid, hsets, hslots⟩, hmade⟩
    refine ⟨hversion, hvalid, hsize, sets, hsets, bind_eq_ok.mpr ⟨slots, hslots, ?_⟩⟩
    refine bind_eq_ok.mpr ⟨out, mapError_eq_ok.mpr hmade, ?_⟩
    rw [seq_eq_ok, refuse_eq_ok]
    exact ⟨not_not.mpr hfamily, rfl⟩

/-- Slots that can be placed are built: every plugin is where it is linked to run. -/
lemma Built.build_eq (hb : Ready b) (h : Built layOut b props sets slots) {addrs : List ℕ}
    (haddrs : slotAddresses (FlashChips.new props.variant props.size) (slots.map Slot.occupied) =
      .ok addrs) :
    ∃ buf, WellFilled (FlashChips.new props.variant props.size) (slots.zip addrs) buf ∧
      buildSlots (FlashChips.new props.variant props.size) slots =
        .ok ((slots.zip addrs).map fun p => p.1.pointer p.2, buf) := by
  refine ⟨_, wellFilled haddrs, ?_⟩
  rw [buildSlots_eq haddrs, h.pointers hb haddrs]
  rfl

lemma Built.not_moved (hb : Ready b) (h : Built layOut b props sets slots) (slot : ℕ) :
    buildSlots (FlashChips.new props.variant props.size) slots ≠ .error (.pluginMoved slot) := by
  intro hmoved
  rcases buildSlots_cases (FlashChips.new props.variant props.size) slots with
    ⟨n, -, hbuild⟩ | ⟨addrs, haddrs, -⟩
  · rw [hbuild] at hmoved
    cases hmoved
  · obtain ⟨buf, -, hbuild⟩ := h.build_eq hb haddrs
    rw [hbuild] at hmoved
    cases hmoved

/-- **No panic**: no build fails in the checks of the plugins' files or in the placement of
plugins, however it is called. -/
lemma build_panics (hb : Ready b) {e : BuildError} (h : build layOut b props = .error e) :
    e ≠ .unwrapNone ∧ ∀ slot, e ≠ .flash (.pluginMoved slot) := by
  rw [build] at h
  rcases bind_eq_error.mp h with h | ⟨_, -, h⟩
  · obtain ⟨-, rfl⟩ := refuse_eq_error.mp h
    exact ⟨by simp, by simp⟩
  rcases bind_eq_error.mp h with hvalid | ⟨_, hvalid, h⟩
  · exact buildValidation_error hb hvalid
  rcases bind_eq_error.mp h with h | ⟨_, -, h⟩
  · obtain ⟨-, rfl⟩ := refuse_eq_error.mp h
    exact ⟨by simp, by simp⟩
  rw [buildV2] at h
  rcases bind_eq_error.mp h with h | ⟨sets, hsets, h⟩
  · rw [buildChipSets] at h
    obtain ⟨⟨⟨set, chipId⟩, setId⟩, -, h⟩ := mapM_eq_error h
    dsimp only at h
    rw [buildChipSet] at h
    rcases bind_eq_error.mp h with h | ⟨images, -, h⟩
    · obtain ⟨⟨chip, id⟩, -, h⟩ := mapM_eq_error h
      dsimp only at h
      obtain ⟨-, -, rfl⟩ := mapError_eq_error.mp h
      exact ⟨by simp, by simp⟩
    · rcases bind_eq_error.mp h with h | ⟨_, -, h⟩
      · obtain ⟨-, rfl⟩ := refuse_eq_error.mp h
        exact ⟨by simp, by simp⟩
      · cases h
  rcases bind_eq_error.mp h with h | ⟨slots, hslots, h⟩
  · obtain ⟨set, -, h⟩ := mapM_eq_error h
    rw [slotOf] at h
    split at h
    · cases h
      exact ⟨by simp, by simp⟩
    · split at h
      · cases h
      · cases hlay : layOut set with
        | ok slot => rw [hlay] at h; cases h
        | error text =>
          rw [hlay] at h
          cases h
          exact ⟨by simp, by simp⟩
  rcases bind_eq_error.mp h with h | ⟨made, -, h⟩
  · obtain ⟨source, hsource, rfl⟩ := mapError_eq_error.mp h
    refine ⟨by simp, fun slot hslot => ?_⟩
    cases hslot
    exact Built.not_moved hb ⟨hvalid, hsets, hslots⟩ slot hsource
  rcases bind_eq_error.mp h with h | ⟨_, -, h⟩
  · obtain ⟨-, rfl⟩ := refuse_eq_error.mp h
    exact ⟨by simp, by simp⟩
  · cases h

/-! ### Soundness -/

/-- The bytes of flash that are a plugin's own are its image. -/
lemma Built.chipFlash_eq (h : Built layOut b props sets slots) {addrs : List ℕ} {buf : List UInt8}
    (haddrs : slotAddresses (FlashChips.new props.variant props.size) (slots.map Slot.occupied) =
      .ok addrs)
    (hbuf : WellFilled (FlashChips.new props.variant props.size) (slots.zip addrs) buf)
    {setId : ℕ} {chip : FileChip} (hchip : ChipAt b setId 0 chip) (ht : chip.chipType.isPlugin) :
    ∃ data source bytes, PluginImage b props (firstId b.sets setId) chip data source bytes ∧
      chipFlash (FlashChips.new props.variant props.size)
        ((slots.zip addrs).map fun p => p.1.pointer p.2, buf) setId 0 chip.chipType = some bytes := by
  obtain ⟨data, source, bytes, hslot, hplugin⟩ := h.plugin_slot hchip ht
  refine ⟨data, source, bytes, hplugin, ?_⟩
  have hlen : setId < addrs.length := by
    have hlen := length_place haddrs
    rw [List.length_map] at hlen
    rw [hlen]
    exact (List.getElem?_eq_some_iff.mp hslot).1
  have hplaced : (slots.zip addrs)[setId]? =
      some (pluginSlot chip.chipType (some bytes), addrs[setId]) :=
    List.getElem?_zip_eq_some.mpr ⟨hslot, List.getElem?_eq_getElem hlen⟩
  have himage := hbuf.image _ (List.mem_of_getElem? hplaced) bytes rfl
  have hpointer : ((slots.zip addrs).map fun p => p.1.pointer p.2)[setId]? =
      some (.addr32 addrs[setId]) := by
    rw [List.getElem?_map, hplaced]
    rfl
  simp only [chipFlash, hpointer, Option.some.injEq]
  ext1 i
  rcases Nat.lt_or_ge i bytes.length with hi | hi
  · rw [List.getElem?_take_of_lt (hplugin.length ▸ hi), List.getElem?_drop, himage i hi]
  · rw [List.getElem?_eq_none hi, List.getElem?_eq_none]
    rw [List.length_take, ← hplugin.length]
    omega

lemma launchRegion_zero : launchRegion 0 = 0x10010000 := by decide

lemma launchRegion_one : launchRegion 1 = 0x10020000 := by decide

/-- A header is its first bytes. -/
lemma headerOk_congr {f g : ℕ → UInt8} {built : FirmwareVersion} (h : ∀ i < 30, f i = g i)
    (hf : HeaderOk f built) : HeaderOk g built := by
  obtain ⟨⟨h0, h1, h2, h3⟩, hapi, hversion⟩ := hf
  refine ⟨⟨?_, ?_, ?_, ?_⟩, ?_, ?_⟩
  · rwa [← h 0 (by omega)]
  · rwa [← h 1 (by omega)]
  · rwa [← h 2 (by omega)]
  · rwa [← h 3 (by omega)]
  · rwa [apiVersion, ← h 4 (by omega), ← h 5 (by omega), ← h 6 (by omega), ← h 7 (by omega)]
  · rwa [minFirmware, ← h 24 (by omega), ← h 25 (by omega), ← h 26 (by omega), ← h 27 (by omega),
      ← h 28 (by omega), ← h 29 (by omega)]

lemma PluginImage.header_iff {n : ℕ} {chip : FileChip} {data : List UInt8} {source : Transformed}
    {bytes : List UInt8} (h : PluginImage b props n chip data source bytes)
    (ht : chip.chipType.isPlugin) :
    HeaderOk (fun i => bytes.getD i 0) props.version ↔
      HeaderOk (laid source.data chip.sizeHandling) props.version := by
  have hbyte : ∀ i < 30, bytes.getD i 0 = laid source.data chip.sizeHandling i := by
    intro i hi
    refine h.byte i ?_
    rw [sizeBytes_plugin ht, show pluginSize = 65536 from rfl]
    omega
  exact ⟨headerOk_congr hbyte, headerOk_congr fun i hi => (hbyte i hi).symm⟩

/-- **Soundness**: the plugins in flash have headers that the firmware runs exactly where each
plugin's file keeps its header. -/
lemma sound_iff (hb : Ready b) (h : build layOut b props = .ok out) :
    Sound b props out ↔ Keeps b props := by
  obtain ⟨⟨-, -, hfamily⟩, sets, slots, hbuilt, hmade⟩ := build_ok_iff.mp h
  obtain ⟨addrs, haddrs, buf, hbuf, rfl⟩ : ∃ addrs, slotAddresses
      (FlashChips.new props.variant props.size) (slots.map Slot.occupied) = .ok addrs ∧
      ∃ buf, WellFilled (FlashChips.new props.variant props.size) (slots.zip addrs) buf ∧
        out = ((slots.zip addrs).map fun p => p.1.pointer p.2, buf) := by
    rcases buildSlots_cases (FlashChips.new props.variant props.size) slots with
      ⟨n, -, hbuild⟩ | ⟨addrs, haddrs, -⟩
    · rw [hbuild] at hmade
      cases hmade
    · obtain ⟨buf, hbuf, hbuild⟩ := hbuilt.build_eq hb haddrs
      rw [hbuild] at hmade
      cases hmade
      exact ⟨addrs, haddrs, buf, hbuf, rfl⟩
  have hstart : (FlashChips.new props.variant props.size).romDataStart = launchRegion 0 := by
    change props.variant.family.getFlashBase + METADATA_OFFSET + METADATA_SIZE = _
    rw [hfamily, launchRegion_zero]
    rfl
  have hnext : launchRegion 1 = launchRegion 0 + pluginSize := by
    rw [launchRegion_zero, launchRegion_one]
    rfl
  -- where the plugin of a set is placed
  have hpointer : ∀ setId chip, ChipAt b setId 0 chip →
      (chip.chipType = .systemPlugin ∨ chip.chipType = .userPlugin) →
      ((slots.zip addrs).map fun p => p.1.pointer p.2)[setId]? =
        some (.addr32 (launchRegion 0 + ((slots.map Slot.occupied).take setId).sum)) := by
    intro setId chip hchip ht
    obtain ⟨data, source, bytes, hslot, -⟩ :=
      hbuilt.plugin_slot hchip (isPlugin_iff.mpr (by tauto))
    have haddr := hbuilt.plugin_addr hb haddrs hchip ht
    rw [hstart] at haddr
    have hplaced : (slots.zip addrs)[setId]? = some (pluginSlot chip.chipType (some bytes),
        launchRegion 0 + ((slots.map Slot.occupied).take setId).sum) :=
      List.getElem?_zip_eq_some.mpr ⟨hslot, haddr⟩
    rw [List.getElem?_map, hplaced]
    rfl
  constructor
  · intro hsound setId chipIdx chip hchip ht
    obtain ⟨image, himage, -, hheader⟩ := hsound.header setId chipIdx chip hchip ht
    cases chipIdx with
    | succ => simp [chipFlash] at himage
    | zero =>
      obtain ⟨data, source, bytes, hplugin, hflash⟩ := hbuilt.chipFlash_eq haddrs hbuf hchip ht
      rw [hflash] at himage
      cases himage
      exact ⟨rfl, data, source, hplugin.data_eq, hplugin.arranged, (hplugin.header_iff ht).mp hheader⟩
  · intro hkeeps
    refine ⟨fun setId chipIdx chip hchip ht => ?_, fun chip hchip ht => ?_, fun chip hchip ht => ?_⟩
    · obtain ⟨rfl, data', source', hdata', harranged', hheader⟩ := hkeeps setId chipIdx chip hchip ht
      obtain ⟨data, source, bytes, hplugin, hflash⟩ := hbuilt.chipFlash_eq haddrs hbuf hchip ht
      cases hdata'.symm.trans hplugin.data_eq
      cases harranged'.symm.trans hplugin.arranged
      refine ⟨bytes, hflash, ?_, (hplugin.header_iff ht).mpr hheader⟩
      rw [hplugin.length, sizeBytes_plugin ht, show pluginSize = 65536 from rfl]
      omega
    · simpa using hpointer 0 chip hchip (Or.inl ht)
    · obtain ⟨-, system, hsystem, hsystemType⟩ := (plugin_set hb hchip).2 ht
      have h0 := hbuilt.occupied hsystem (isPlugin_iff.mpr (Or.inl hsystemType))
      obtain ⟨hlt, h0⟩ := List.getElem?_eq_some_iff.mp h0
      rw [hpointer 1 chip hchip (Or.inr ht), List.take_one, List.head?_eq_getElem?,
        List.getElem?_eq_getElem hlt, h0, hnext]
      simp

/-- A plugin that is alone in its set, and whose file is put into flash as it is, keeps its
header. -/
lemma keeps_of_plain (h : build layOut b props = .ok out)
    (hplain : ∀ setId chipIdx chip, ChipAt b setId chipIdx chip → chip.chipType.isPlugin →
      chipIdx = 0 ∧ chip.location = none ∧ chip.transform = []) : Keeps b props := by
  obtain ⟨-, sets, slots, hbuilt, -⟩ := build_ok_iff.mp h
  intro setId chipIdx chip hchip ht
  obtain ⟨rfl, hlocation, htransform⟩ := hplain setId chipIdx chip hchip ht
  obtain ⟨set, hset, hfirst⟩ := hchip
  obtain ⟨data, hdata, hheader⟩ :=
    buildValidation_ok hbuilt.valid (flatMap_chips_getElem? hset hfirst) ht
  obtain ⟨hlen, hok⟩ := checkHeader_ok.mp hheader
  refine ⟨rfl, data, ⟨data, false⟩, hdata, ?_, headerOk_congr (fun i hi => ?_) hok⟩
  · rw [arrange, hlocation, htransform]
    rfl
  · have hi' : i < data.length := by omega
    rw [laid, if_pos hi']

end Build

/-- **Plugins in flash**: a build is sound exactly where every plugin is its set's first chip and
what its location and transforms leave of its file still has a header that passes, as it has where
there are none. No build panics in the plugins' checks or in their placement. -/
theorem plugins_sound_iff (layOut : ChipSet → Except String Slot) {b : Builder} (hb : Reachable b)
    (props : Props) :
    (∀ out, build layOut b props = .ok out → (Sound b props out ↔ Keeps b props)) ∧
    (∀ out, build layOut b props = .ok out →
      (∀ setId chipIdx chip, ChipAt b setId chipIdx chip → chip.chipType.isPlugin →
        chipIdx = 0 ∧ chip.location = none ∧ chip.transform = []) → Sound b props out) ∧
    ∀ e, build layOut b props = .error e →
      e ≠ .unwrapNone ∧ ∀ slot, e ≠ .flash (.pluginMoved slot) :=
  ⟨fun _ h => sound_iff hb.ready h,
    fun _ h hplain => (sound_iff hb.ready h).mpr (keeps_of_plain h hplain),
    fun _ h => build_panics hb.ready h⟩

/-! ### A plugin that is cut -/

/-- A file of two halves, the first of which begins with a header. -/
def fileEx : List UInt8 := [0x4F, 0x52, 0x41, 0x20, 1, 0, 0, 0] ++ List.replicate 504 0

/-- A system plugin that is the second half of its file. -/
def cutPlugin : FileChip where
  chipType := .systemPlugin
  file := "plugin.bin"
  extract := none
  plugin := none
  format := .binary
  loadAddress := 0
  location := some ⟨256, 256⟩
  transform := []
  sizeHandling := .none

def cutBuilder : Builder where
  version := ⟨0, 7, 0⟩
  sets := [⟨.single, [cutPlugin], false⟩]
  files := [(0, fileEx)]
  fileIdMap := [(0, 0)]

def propsEx : Props := ⟨⟨0, 7, 0⟩, .rp2350, .m⟩

lemma cutBuilder_reachable : Reachable cutBuilder := by
  have hjson : fromJson ⟨0, 7, 0⟩ [⟨.single, [cutPlugin], false⟩] =
      .ok { cutBuilder with files := [] } := rfl
  have hadd : addFile { cutBuilder with files := [] } 0 fileEx = .ok cutBuilder := rfl
  exact .addFile (.fromJson hjson) hadd

/-- What is left of the cut plugin's file, which is all zeros. -/
def cutData : List UInt8 := (fileEx.drop 256).take 256

/-- The image of the cut plugin. -/
def cutImage : List UInt8 :=
  cutData ++ List.replicate (servedSize .systemPlugin - cutData.length) PAD_BLANK_BYTE

lemma length_fileEx : fileEx.length = 512 := by
  rw [fileEx, List.length_append, List.length_replicate]
  rfl

lemma length_cutData : cutData.length = 256 := by
  rw [cutData, List.length_take, List.length_drop, length_fileEx]
  rfl

lemma cutData_head : cutData.getD 0 0 = 0 := by decide +kernel

lemma length_cutImage : cutImage.length = 65536 := by
  rw [cutImage, List.length_append, List.length_replicate, length_cutData,
    show servedSize .systemPlugin = 65536 by decide]

lemma cutBuilder_valid : buildValidation cutBuilder propsEx.version = .ok () := by
  have hheader : checkHeader propsEx.version cutPlugin fileEx = .ok () :=
    checkHeader_ok.mpr ⟨by rw [length_fileEx]; omega, by decide, by decide, by decide⟩
  have hplugin : validatePlugins cutBuilder propsEx.version =
      (checkHeader propsEx.version cutPlugin fileEx >>= fun _ => pure ()) := rfl
  rw [buildValidation, hplugin, hheader]
  rfl

lemma cutPlugin_locate : locate cutPlugin.file cutPlugin.location fileEx = .ok cutData := by
  unfold locate cutPlugin
  dsimp only
  rw [if_neg (by decide), if_neg (by rw [length_fileEx]; decide), cutData]

lemma cutPlugin_arrange : arrange cutPlugin fileEx = .ok ⟨cutData, false⟩ := by
  rw [arrange, cutPlugin_locate]
  rfl

lemma cutPlugin_reconcile :
    reconcile cutPlugin.file .systemPlugin ⟨cutData, false⟩ .none PAD_BLANK_BYTE =
      .ok cutImage := by
  unfold reconcile
  dsimp only
  rw [length_cutData, if_neg (by decide), if_pos (by decide), if_pos (by decide), cutImage,
    length_cutData]

lemma cutPlugin_image : chipImage false cutPlugin 0 (some fileEx) = .ok (some cutImage) := by
  unfold chipImage fromRawRomImage
  refine bind_eq_ok.mpr ⟨(), by decide, bind_eq_ok.mpr ⟨(some fileEx, PAD_BLANK_BYTE), rfl, ?_⟩⟩
  dsimp only
  rw [if_neg (by simp)]
  refine bind_eq_ok.mpr ⟨(), rfl, bind_eq_ok.mpr ⟨cutData, cutPlugin_locate, ?_⟩⟩
  refine bind_eq_ok.mpr ⟨⟨cutData, false⟩, rfl, bind_eq_ok.mpr ⟨cutImage, cutPlugin_reconcile, ?_⟩⟩
  rw [length_cutImage, show ChipType.sizeBytes cutPlugin.chipType = 65536 by decide, Nat.sub_self,
    List.replicate_zero, List.append_nil]
  rfl

lemma slotOf_single {layOut : ChipSet → Except String Slot} {set : FileSet} (chip : FileChip)
    (hset : set.chips = [chip]) (ht : chip.chipType.isPlugin) (image : Option (List UInt8)) :
    slotOf layOut ⟨set, [image]⟩ = .ok (pluginSlot chip.chipType image) := by
  simp [slotOf, hset, ht]

lemma cutBuilder_built : Built (fun _ => .error "") cutBuilder propsEx
    [⟨⟨.single, [cutPlugin], false⟩, [some cutImage]⟩]
    [pluginSlot .systemPlugin (some cutImage)] where
  valid := cutBuilder_valid
  chipSets := by
    have himages : buildChipSet cutBuilder 0 ⟨.single, [cutPlugin], false⟩ 0 =
        .ok ⟨⟨.single, [cutPlugin], false⟩, [some cutImage]⟩ := by
      unfold buildChipSet
      refine bind_eq_ok.mpr ⟨[some cutImage], ?_, rfl⟩
      rw [show (FileSet.chips ⟨.single, [cutPlugin], false⟩).zipIdx 0 = [(cutPlugin, 0)] from rfl,
        List.mapM_cons]
      refine bind_eq_ok.mpr ⟨some cutImage, ?_, rfl⟩
      exact mapError_eq_ok.mpr cutPlugin_image
    rw [buildChipSets, show (numbered 0 cutBuilder.sets).zipIdx =
      [((⟨.single, [cutPlugin], false⟩, 0), 0)] from rfl, List.mapM_cons]
    exact bind_eq_ok.mpr ⟨_, himages, rfl⟩
  slotsOf := by
    rw [List.mapM_cons]
    refine bind_eq_ok.mpr ⟨pluginSlot .systemPlugin (some cutImage), ?_, rfl⟩
    exact slotOf_single cutPlugin rfl (by decide) _

lemma cutBuilder_build : ∃ out, build (fun _ => .error "") cutBuilder propsEx = .ok out := by
  have hoccupied : [pluginSlot .systemPlugin (some cutImage)].map Slot.occupied = [65536] := by
    rw [List.map_singleton, occupied_pluginSlot, length_cutImage]
  have haddrs : slotAddresses (FlashChips.new propsEx.variant propsEx.size)
      ([pluginSlot .systemPlugin (some cutImage)].map Slot.occupied) = .ok [0x10010000] := by
    rw [hoccupied]
    decide
  obtain ⟨buf, -, hbuild⟩ := cutBuilder_built.build_eq cutBuilder_reachable.ready haddrs
  exact ⟨_, build_ok_iff.mpr ⟨by decide, _, _, cutBuilder_built, hbuild⟩⟩

/-- A build that passes its checks and flashes zeros where the header is. -/
theorem cut_plugin_unsound : ∃ out, Reachable cutBuilder ∧
    build (fun _ => .error "") cutBuilder propsEx = .ok out ∧ ¬Sound cutBuilder propsEx out := by
  obtain ⟨out, hout⟩ := cutBuilder_build
  refine ⟨out, cutBuilder_reachable, hout, fun hsound => ?_⟩
  have hkeeps := (sound_iff cutBuilder_reachable.ready hout).mp hsound
  obtain ⟨-, data, source, hdata, hsource, hheader⟩ :=
    hkeeps 0 0 cutPlugin ⟨_, rfl, rfl⟩ (by decide)
  obtain rfl : fileEx = data := Option.some.inj hdata
  rw [cutPlugin_arrange, Except.ok.injEq] at hsource
  obtain rfl := hsource
  -- the magic's first byte is not zero
  have hmagic := hheader.magic.1
  rw [laid, if_pos (by rw [length_cutData]; omega), cutData_head] at hmagic
  exact absurd hmagic (by decide)

/-- What `plugins_sound_iff` says of the cut plugin. -/
theorem plugins_sound_iff_cut : ∃ out, build (fun _ => .error "") cutBuilder propsEx = .ok out ∧
    (Sound cutBuilder propsEx out ↔ Keeps cutBuilder propsEx) := by
  obtain ⟨out, hout⟩ := cutBuilder_build
  exact ⟨out, hout, (plugins_sound_iff (fun _ => .error "") cutBuilder_reachable propsEx).1 out hout⟩

end OneRom.PluginFlash
