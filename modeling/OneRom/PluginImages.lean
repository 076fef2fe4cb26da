import OneRom.Flash
import OneRom.ImageFile
import OneRom.Plugins
import OneRom.SelectJumpers

/-!
The plugins of a build: the checks on their files, and what of those files is put into flash.

`validate_plugins` reads the header off the file, and the file is cut, transformed and padded after.
`plugins_sound_iff` says when the header that is flashed passes the checks that were made.
-/

namespace OneRom.PluginImages

open OneRom.Checks OneRom.CheckCs OneRom.ChipTypes OneRom.Flash OneRom.ImageFile
open OneRom.SelectJumpers OneRom.SlotArg OneRom.SlotLayout

/-! ### Configurations -/

/-- A chip, with how its image is made from a file. -/
structure FileChip extends ChipConfig where
  file : String
  extract : Option String
  /-- The plugin that the chip refers to by name. -/
  plugin : Option String
  format : FileFormat
  loadAddress : ℕ
  location : Option Location
  transform : List Transform
  sizeHandling : SizeHandling
  deriving DecidableEq

structure FileSet where
  setType : ChipSetType
  chips : List FileChip
  standby : Bool
  deriving DecidableEq

def FileSet.toConfig (set : FileSet) : ChipSetConfig := ⟨set.setType, set.chips.map (·.toChipConfig)⟩

/-- What the checks of the sets read. They do not read the select jumpers' settings. -/
def deviceConfig (version : FirmwareVersion) (sets : List FileSet) : DeviceConfig where
  chipSets := sets.map FileSet.toConfig
  version := version
  turboBoot := false
  reservedSelPins := 0

inductive BuildError
  | firmwareTooNew (version maximum : FirmwareVersion)
  | firmwareUnsupported (version : FirmwareVersion)
  | sets (source : ChipSetsError)
  | lines (source : CheckCs.Error)
  | invalidConfig (error : String)
  | duplicateFile (id : ℕ)
  | invalidFile (id total : ℕ)
  | missingFile (id : ℕ)
  | invalidPluginImage (pluginType : ChipType) (imageFile error : String)
  | firmwareTooOldForBoardSize (version : FirmwareVersion)
  | image (source : ImageError)
  | tooFewChips (id expected actual : ℕ)
  | romSet (error : String)
  | flash (source : Flash.Error)
  /-- A plugin without a file panics. -/
  | unwrapNone
  /-- A board without an RP2350 panics. -/
  | noRpVariant

/-! ### The checks of files -/

/-- Each set with the number of its first chip, counted over all of them. -/
def numbered : ℕ → List FileSet → List (FileSet × ℕ)
  | _, [] => []
  | id, set :: sets => (set, id) :: numbered (id + set.chips.length) sets

/-- A published release is the whole image, so nothing that locates or reshapes a file applies. -/
def checkNamedPlugin (chip : FileChip) (chipNum : ℕ) : Except BuildError Unit := do
  let conflict (field : String) : BuildError :=
    .invalidConfig s!"Chip {chipNum} has both plugin and {field}"
  refuse (chip.chipType ≠ .systemPlugin ∧ chip.chipType ≠ .userPlugin)
    (.invalidConfig s!"Chip {chipNum} can't be both a {chip.chipType.name} and a plugin")
  refuse (chip.file ≠ "") (conflict "file")
  refuse (chip.extract ≠ none) (conflict "extract")
  refuse (chip.location ≠ none) (conflict "location")
  refuse (chip.format ≠ .binary) (conflict "format")
  refuse (chip.transform ≠ []) (conflict "transform")

def fileOptional (set : FileSet) (chip : FileChip) : Bool :=
  match chip.chipType.chipFunction with
  | .ram => true
  | .rom => set.standby
  | .plugin => chip.plugin.isSome

def checkFile (set : FileSet) (chip : FileChip) (chipNum : ℕ) : Except BuildError Unit := do
  only (chip.plugin ≠ none) (checkNamedPlugin chip chipNum)
  refuse (chip.file = "" ∧ fileOptional set chip = false)
    (.invalidConfig s!"Chip {chipNum} file name is empty")
  chip.location.forM fun location => do
    refuse (location.length = 0)
      (.invalidConfig s!"Chip {chipNum} location length must be non-zero")
    refuse (usizeMax < location.start + location.length)
      (.invalidConfig s!"Chip {chipNum} location start + length overflows")

def checkSetFiles (setId : ℕ) (set : FileSet) (chipNum : ℕ) : Except BuildError Unit := do
  refuse (set.standby = true ∧ set.chips.any (·.file = "") ∧ set.chips.any (·.file ≠ ""))
    (.invalidConfig s!"Standby chip set {setId} must have a file for every chip or for none")
  (set.chips.zipIdx chipNum).forM fun (chip, chipNum) => checkFile set chip chipNum

/-! ### The builder -/

structure Builder where
  version : FirmwareVersion
  sets : List FileSet
  /-- The files that were added, by their ids. -/
  files : List (ℕ × List UInt8)
  /-- The id of each chip's file. -/
  fileIdMap : List (ℕ × ℕ)

def numberedChips (sets : List FileSet) : List (FileChip × ℕ) := (sets.flatMap (·.chips)).zipIdx

/-- Numbers the files: chips that name the same one share it. -/
def assignFileIds (seen : List ((String × Option String) × ℕ)) (fileId : ℕ) :
    List (FileChip × ℕ) → List (ℕ × ℕ)
  | [] => []
  | (chip, chipId) :: chips =>
    if chip.file = "" then assignFileIds seen fileId chips
    else
      match seen.lookup (chip.file, chip.extract) with
      | some id => (chipId, id) :: assignFileIds seen fileId chips
      | none =>
        (chipId, fileId) ::
          assignFileIds (((chip.file, chip.extract), fileId) :: seen) (fileId + 1) chips

def buildFileIdMap (sets : List FileSet) : List (ℕ × ℕ) := assignFileIds [] 0 (numberedChips sets)

def totalFileCount (fileIdMap : List (ℕ × ℕ)) : ℕ := (fileIdMap.map (·.2)).toFinset.card

def MIN_FW_VERSION : FirmwareVersion := ⟨0, 7, 0⟩
def MAX_FW_VERSION : FirmwareVersion := ⟨0, 8, 999⟩

/-- A builder for a configuration. The checks of overrides, of the device's own settings and of
licences are left out: they refuse more. -/
def fromJson (version : FirmwareVersion) (sets : List FileSet) : Except BuildError Builder := do
  refuse (MAX_FW_VERSION.Before version) (.firmwareTooNew version MAX_FW_VERSION)
  refuse (version.Before MIN_FW_VERSION) (.firmwareUnsupported version)
  let _ ← (checkChipSets (deviceConfig version sets)).mapError .sets
  (numbered 0 sets).zipIdx.forM fun ((set, chipNum), setId) => checkSetFiles setId set chipNum
  (checkCsV2 (deviceConfig version sets).toConfig).mapError .lines
  return ⟨version, sets, [], buildFileIdMap sets⟩

def addFile (b : Builder) (id : ℕ) (data : List UInt8) : Except BuildError Builder := do
  refuse ((b.files.lookup id).isSome = true) (.duplicateFile id)
  refuse (totalFileCount b.fileIdMap ≤ id) (.invalidFile id (totalFileCount b.fileIdMap))
  return { b with files := (id, data) :: b.files }

/-- Changes the chip of that number. -/
def updateChip (n : ℕ) (f : FileChip → FileChip) (sets : List FileSet) : List FileSet :=
  (numbered 0 sets).map fun (set, id) =>
    { set with chips := (set.chips.zipIdx id).map fun (chip, m) => if m = n then f chip else chip }

/-- The id of a plugin's file: that of a chip with the same file, or the next unused one. -/
def pluginFileId (b : Builder) (file : String) : ℕ :=
  (((numberedChips b.sets).find? fun (chip, _) => chip.file = file ∧ chip.extract = none).bind
    fun (_, n) => b.fileIdMap.lookup n).getD (totalFileCount b.fileIdMap)

def setPluginFile (b : Builder) (chipIndex : ℕ) (file : String) : Except BuildError Builder :=
  match (b.sets.flatMap (·.chips))[chipIndex]? with
  | none => .error (noPlugin chipIndex)
  | some chip =>
    if chip.plugin = none then .error (noPlugin chipIndex)
    else .ok { b with
      sets := updateChip chipIndex (fun chip => { chip with file := file, plugin := none }) b.sets
      fileIdMap :=
        (chipIndex, pluginFileId b file) :: b.fileIdMap.filter fun entry => entry.1 ≠ chipIndex }
where
  noPlugin (chipIndex : ℕ) : BuildError :=
    .invalidConfig ("Can't set the plugin file for chip " ++ toString chipIndex ++ " because the " ++
      "config doesn't refer to a plugin by name for it.")

/-- A builder that calls have made. -/
inductive Reachable : Builder → Prop
  | fromJson {version sets b} (h : fromJson version sets = .ok b) : Reachable b
  | addFile {b id data b'} (hb : Reachable b) (h : addFile b id data = .ok b') : Reachable b'
  | setPluginFile {b n file b'} (hb : Reachable b) (h : setPluginFile b n file = .ok b') :
    Reachable b'

/-! ### A plugin's header -/

def le16 (lo hi : UInt8) : ℕ := lo.toNat + 256 * hi.toNat

section Header

variable (byte : ℕ → UInt8)

/-- The first bytes are those of `ORA `. -/
def HasMagic : Prop := byte 0 = 0x4F ∧ byte 1 = 0x52 ∧ byte 2 = 0x41 ∧ byte 3 = 0x20

instance : Decidable (HasMagic byte) := inferInstanceAs (Decidable (_ ∧ _))

def apiVersion : ℕ := le16 (byte 4) (byte 5) + 65536 * le16 (byte 6) (byte 7)

/-- The oldest firmware that the plugin runs on. -/
def minFirmware : FirmwareVersion where
  major := le16 (byte 24) (byte 25)
  minor := le16 (byte 26) (byte 27)
  patch := le16 (byte 28) (byte 29)

/-- A header that firmware of version `built` runs. -/
structure HeaderOk (built : FirmwareVersion) : Prop where
  magic : HasMagic byte
  api : apiVersion byte = 1
  version : ¬built.Before (minFirmware byte)

end Header

def versionText (v : FirmwareVersion) : String := s!"{v.major}.{v.minor}.{v.patch}"

def checkHeader (built : FirmwareVersion) (chip : FileChip) (data : List UInt8) :
    Except BuildError Unit := do
  let invalid (error : String) : BuildError := .invalidPluginImage chip.chipType chip.file error
  let byte (i : ℕ) : UInt8 := data.getD i 0
  refuse (data.length < 256)
    (invalid "Plugin image is smaller than the required plugin header (256 bytes).")
  refuse (¬HasMagic byte) (invalid "Invalid magic value in plugin header.")
  refuse (apiVersion byte ≠ 1)
    (invalid s!"Invalid API version {apiVersion byte} in plugin header - must be 1.")
  refuse (built.Before (minFirmware byte))
    (invalid ("Plugin requires at least firmware version " ++ versionText (minFirmware byte) ++
      " which is newer than the firmware version being built for (" ++ versionText built ++ ")"))

/-! ### The build -/

/-- What a build is for. -/
structure Props where
  version : FirmwareVersion
  variant : Variant
  size : BoardSize

def Builder.chipData (b : Builder) (romId : ℕ) : Option (List UInt8) :=
  (b.fileIdMap.lookup romId).bind fun id => b.files.lookup id

/-- The checks of the plugins' files. -/
def validatePlugins (b : Builder) (built : FirmwareVersion) : Except BuildError Unit :=
  (numberedChips b.sets).forM fun (chip, romId) =>
    if chip.chipType.isPlugin then
      match b.chipData romId with
      | none => .error .unwrapNone
      | some data => checkHeader built chip data
    else .ok ()

def buildValidation (b : Builder) (built : FirmwareVersion) : Except BuildError Unit := do
  (numberedChips b.sets).forM fun (chip, _) =>
    match chip.plugin with
    | none => .ok ()
    | some name => .error (.invalidConfig ("Plugin '" ++ name ++ "' is referred to by name, which " ++
        "this tool doesn't support. Use the plugin's URL."))
  (List.range (totalFileCount b.fileIdMap)).forM fun id =>
    refuse (b.files.lookup id = none) (.missingFile id)
  validatePlugins b built

/-- A file's bytes once decoded, and what pads them. -/
def decode (chip : FileChip) (data : Option (List UInt8)) :
    Except ImageError (Option (List UInt8) × UInt8) :=
  match chip.format, data with
  | .intelHex, some raw => do
    refuse (chip.sizeHandling = .duplicate) (.duplicateUnsupportedForFormat chip.file .intelHex)
    let decoded ← (decodeIhex raw chip.loadAddress).mapError (.intelHex chip.file)
    return (some decoded, UNWRITTEN_BYTE)
  | .srec, some raw => do
    refuse (chip.sizeHandling = .duplicate) (.duplicateUnsupportedForFormat chip.file .srec)
    let decoded ← (decodeSrec raw chip.loadAddress).mapError (.srec chip.file)
    return (some decoded, UNWRITTEN_BYTE)
  | _, _ => .ok (data, PAD_BLANK_BYTE)

/-- A chip's image. A ROM in a standby set may go without one. -/
def chipImage (standby : Bool) (chip : FileChip) (chipId : ℕ) (data : Option (List UInt8)) :
    Except ImageError (Option (List UInt8)) := do
  refuse (chip.format = .binary ∧ chip.loadAddress ≠ 0) (.loadAddressWithBinary chip.file)
  let (source, blankByte) ← decode chip data
  if source = none ∧ standby = true ∧ chip.chipType.chipFunction = .rom then
    chip.transform.forM fun t => (validate t).mapError (.transform chip.file)
    return none
  else
    fromRawRomImage chipId chip.file chip.chipType source chip.sizeHandling blankByte chip.location
      chip.transform

/-- A set with its chips' images. -/
structure ChipSet where
  config : FileSet
  images : List (Option (List UInt8))

/-- Makes the images of a set, of which the first chip has that number. -/
def buildChipSet (b : Builder) (setId : ℕ) (set : FileSet) (chipId : ℕ) :
    Except BuildError ChipSet := do
  let images ← (set.chips.zipIdx chipId).mapM fun (chip, chipId) =>
    (chipImage set.standby chip chipId (b.chipData chipId)).mapError .image
  refuse (set.chips.length = 1 ∧ set.setType ≠ .single) (.tooFewChips setId 2 1)
  return ⟨set, images⟩

def buildChipSets (b : Builder) : Except BuildError (List ChipSet) :=
  (numbered 0 b.sets).zipIdx.mapM fun ((set, chipId), setId) => buildChipSet b setId set chipId

/-- The slot of a plugin, which is its first chip's image as it is. -/
def pluginSlot (t : ChipType) (image : Option (List UInt8)) : Slot where
  linked := t = .systemPlugin ∨ t = .userPlugin
  size := (image.getD []).length
  image := image
  image_size data h := by rw [Option.mem_def.mp h, Option.getD_some]

/-- The slot of a set. `layOut` is what is made of a set of ROM or RAM chips. -/
def slotOf (layOut : ChipSet → Except String Slot) (set : ChipSet) : Except BuildError Slot :=
  match set.config.chips.head?.map (·.chipType) with
  | none => .error (.sets (.noChips 0))
  | some t =>
    if t.isPlugin then .ok (pluginSlot t (set.images.head?.bind id))
    else (fun slot => { slot with linked := false }) <$> (layOut set).mapError .romSet

def buildV2 (layOut : ChipSet → Except String Slot) (b : Builder) (props : Props) :
    Except BuildError (List Pointer × List UInt8) := do
  let chipSets ← buildChipSets b
  let slots ← chipSets.mapM (slotOf layOut)
  let out ← (buildSlots (FlashChips.new props.variant props.size) slots).mapError .flash
  refuse (props.variant.family ≠ .rp2350) .noRpVariant
  return out

def build (layOut : ChipSet → Except String Slot) (b : Builder) (props : Props) :
    Except BuildError (List Pointer × List UInt8) := do
  refuse (MAX_FW_VERSION.Before props.version) (.firmwareTooNew props.version MAX_FW_VERSION)
  buildValidation b props.version
  refuse (props.size ≠ .m ∧ b.version.Before ⟨0, 8, 0⟩) (.firmwareTooOldForBoardSize b.version)
  buildV2 layOut b props

/-! ### Chips by number -/

/-- The number of a set's first chip. -/
def firstId (sets : List FileSet) (setId : ℕ) : ℕ :=
  ((sets.take setId).map (·.chips.length)).sum

lemma numbered_getElem? (id : ℕ) (sets : List FileSet) (i : ℕ) :
    (numbered id sets)[i]? = sets[i]?.map fun set => (set, id + firstId sets i) := by
  induction sets generalizing id i with
  | nil => simp [numbered]
  | cons set sets ih =>
    cases i with
    | zero => simp [numbered, firstId]
    | succ i => simp [numbered, ih, firstId, Nat.add_assoc]

lemma mem_numberedChips {sets : List FileSet} {chip : FileChip} {n : ℕ} :
    (chip, n) ∈ numberedChips sets ↔ (sets.flatMap (·.chips))[n]? = some chip := by
  rw [numberedChips, List.mem_zipIdx_iff_getElem?]

/-- A chip of a set, by its number. -/
lemma flatMap_chips_getElem? {sets : List FileSet} {i j : ℕ} {set : FileSet} {chip : FileChip}
    (hset : sets[i]? = some set) (hchip : set.chips[j]? = some chip) :
    (sets.flatMap (·.chips))[firstId sets i + j]? = some chip := by
  induction sets generalizing i with
  | nil => simp at hset
  | cons first sets ih =>
    cases i with
    | zero =>
      obtain rfl : first = set := by simpa using hset
      obtain ⟨hj, -⟩ := List.getElem?_eq_some_iff.mp hchip
      simp [firstId, List.getElem?_append_left hj, hchip]
    | succ i =>
      have hrest := ih (i := i) (by simpa using hset)
      simp only [firstId, List.take_succ_cons, List.map_cons, List.sum_cons, List.flatMap_cons]
      rw [Nat.add_assoc, List.getElem?_append_right (Nat.le_add_right ..), Nat.add_sub_cancel_left]
      exact hrest

/-- Every chip is in a set. -/
lemma exists_set {sets : List FileSet} {n : ℕ} {chip : FileChip}
    (h : (sets.flatMap (·.chips))[n]? = some chip) :
    ∃ i j set, sets[i]? = some set ∧ set.chips[j]? = some chip ∧ n = firstId sets i + j := by
  induction sets generalizing n with
  | nil => simp at h
  | cons first sets ih =>
    rw [List.flatMap_cons] at h
    rcases Nat.lt_or_ge n first.chips.length with hn | hn
    · rw [List.getElem?_append_left hn] at h
      exact ⟨0, n, first, rfl, h, by simp [firstId]⟩
    · rw [List.getElem?_append_right hn] at h
      obtain ⟨i, j, set, hset, hchip, heq⟩ := ih h
      refine ⟨i + 1, j, set, by simpa using hset, hchip, ?_⟩
      simp only [firstId, List.take_succ_cons, List.map_cons, List.sum_cons] at heq ⊢
      omega

lemma updateChip_chips (n : ℕ) (f : FileChip → FileChip) (sets : List FileSet) (i : ℕ) :
    ((updateChip n f sets).flatMap (·.chips))[i]? =
      (sets.flatMap (·.chips))[i]?.map fun chip => if i = n then f chip else chip := by
  suffices h : ∀ id, ((numbered id sets).map fun (set, id) => { set with
      chips := (set.chips.zipIdx id).map fun (chip, m) => if m = n then f chip else chip }).flatMap
        (·.chips) = ((sets.flatMap (·.chips)).zipIdx id).map fun (chip, m) =>
          if m = n then f chip else chip by
    rw [updateChip, h 0]
    cases hchip : (sets.flatMap (·.chips))[i]? <;> simp [hchip]
  induction sets with
  | nil => simp [numbered]
  | cons set sets ih =>
    intro id
    rw [numbered, List.map_cons, List.flatMap_cons, ih, List.flatMap_cons, List.zipIdx_append,
      List.map_append]

lemma updateChip_toConfig {n : ℕ} {f : FileChip → FileChip}
    (hf : ∀ chip, (f chip).toChipConfig = chip.toChipConfig) (sets : List FileSet) :
    (updateChip n f sets).map FileSet.toConfig = sets.map FileSet.toConfig := by
  suffices h : ∀ id, ((numbered id sets).map fun (set, id) => { set with
      chips := (set.chips.zipIdx id).map fun (chip, m) => if m = n then f chip else chip }).map
        FileSet.toConfig = sets.map FileSet.toConfig from h 0
  have hchips : ∀ (chips : List FileChip) id, (((chips.zipIdx id).map fun (chip, m) =>
      if m = n then f chip else chip).map (·.toChipConfig)) = chips.map (·.toChipConfig) := by
    intro chips id
    ext1 i
    cases hchip : chips[i]? with
    | none => simp [hchip]
    | some chip => by_cases hn : id + i = n <;> simp [hchip, hn, hf]
  induction sets with
  | nil => simp [numbered]
  | cons set sets ih =>
    intro id
    rw [numbered, List.map_cons, List.map_cons, ih, List.map_cons, FileSet.toConfig, hchips]
    rfl

/-! ### File ids -/

/-- The ids are the numbers from 0 on. -/
def Closed (ids : List ℕ) : Prop := ∀ id ∈ ids, ∀ k < id, k ∈ ids

lemma Closed.lt_card {ids : List ℕ} (h : Closed ids) {id : ℕ} (hid : id ∈ ids) :
    id < ids.toFinset.card := by
  have hsub : Finset.range (id + 1) ⊆ ids.toFinset := by
    intro k hk
    rcases Nat.lt_succ_iff_lt_or_eq.mp (Finset.mem_range.mp hk) with hlt | rfl
    · exact List.mem_toFinset.mpr (h id hid k hlt)
    · exact List.mem_toFinset.mpr hid
  simpa using Finset.card_le_card hsub

lemma Closed.mem_of_lt {ids : List ℕ} (h : Closed ids) {k : ℕ} (hk : k < ids.toFinset.card) :
    k ∈ ids := by
  by_contra hno
  have hsub : ids.toFinset ⊆ Finset.range k := by
    intro id hid
    rw [Finset.mem_range]
    have hid := List.mem_toFinset.mp hid
    by_contra hge
    rcases Nat.eq_or_lt_of_not_lt hge with rfl | hlt
    · exact hno hid
    · exact hno (h id hid k hlt)
  have hcard := Finset.card_le_card hsub
  rw [Finset.card_range] at hcard
  omega

lemma Closed.cons {ids : List ℕ} (h : Closed ids) {id : ℕ} (hid : id ≤ ids.toFinset.card) :
    Closed (id :: ids) := by
  intro m hm k hk
  refine List.mem_cons_of_mem _ ?_
  rcases List.mem_cons.mp hm with rfl | hm
  · exact h.mem_of_lt (by omega)
  · exact h m hm k hk

lemma assignFileIds_keys (seen : List ((String × Option String) × ℕ)) (fileId : ℕ)
    (chips : List (FileChip × ℕ)) :
    (assignFileIds seen fileId chips).map (·.1) =
      (chips.filter fun entry => entry.1.file ≠ "").map (·.2) := by
  induction chips generalizing seen fileId with
  | nil => rfl
  | cons entry chips ih =>
    obtain ⟨chip, chipId⟩ := entry
    rw [assignFileIds]
    by_cases hfile : chip.file = ""
    · rw [if_pos hfile, ih, List.filter_cons_of_neg (by simp [hfile])]
    · rw [if_neg hfile, List.filter_cons_of_pos (by simp [hfile])]
      split <;> rw [List.map_cons, List.map_cons, ih]

lemma assignFileIds_closed {seen : List ((String × Option String) × ℕ)} {fileId : ℕ}
    (hseen : ∀ e ∈ seen, e.2 < fileId) (chips : List (FileChip × ℕ)) :
    ∀ id ∈ (assignFileIds seen fileId chips).map (·.2), ∀ k < id, fileId ≤ k →
      k ∈ (assignFileIds seen fileId chips).map (·.2) := by
  induction chips generalizing seen fileId with
  | nil => simp [assignFileIds]
  | cons entry chips ih =>
    obtain ⟨chip, chipId⟩ := entry
    rw [assignFileIds]
    split
    · exact ih hseen
    · split
      · next old hold =>
        have hlt : old < fileId := by
          obtain ⟨l₁, l₂, hl, -⟩ := List.lookup_eq_some_iff.mp hold
          exact hseen ((chip.file, chip.extract), old) (by simp [hl])
        intro id hid k hk hle
        rw [List.map_cons] at hid ⊢
        rcases List.mem_cons.mp hid with rfl | hid
        · omega
        · exact List.mem_cons_of_mem _ (ih hseen id hid k hk hle)
      · have hseen' : ∀ e ∈ ((chip.file, chip.extract), fileId) :: seen, e.2 < fileId + 1 := by
          intro e he
          rcases List.mem_cons.mp he with rfl | he
          · exact Nat.lt_succ_self _
          · exact Nat.lt_succ_of_lt (hseen e he)
        intro id hid k hk hle
        rw [List.map_cons] at hid ⊢
        rcases Nat.eq_or_lt_of_le hle with rfl | hlt
        · exact List.mem_cons_self
        · rcases List.mem_cons.mp hid with rfl | hid
          · omega
          · exact List.mem_cons_of_mem _ (ih hseen' id hid k hk hlt)

/-! ### Reachable builders -/

/-- What holds of a builder that calls have made: a plugin's file has an id, unless the plugin is
referred to by name, and ids are the numbers from 0 on. -/
structure Ready (b : Builder) : Prop where
  closed : Closed (b.fileIdMap.map (·.2))
  keyed : ∀ n chip, (b.sets.flatMap (·.chips))[n]? = some chip → chip.chipType.isPlugin →
    chip.plugin = none → (b.fileIdMap.lookup n).isSome
  unset : ∀ n chip, (b.sets.flatMap (·.chips))[n]? = some chip → chip.plugin ≠ none →
    b.fileIdMap.lookup n = none
  sets : ∃ images, checkChipSets (deviceConfig b.version b.sets) = .ok images
  lines : checkCsV2 (deviceConfig b.version b.sets).toConfig = .ok ()

/-- What the checks of files establish of a plugin: its file is named, unless it is. -/
lemma checkFile_ok {set : FileSet} {chip : FileChip} {n : ℕ} (h : checkFile set chip n = .ok ()) :
    (chip.plugin ≠ none → chip.file = "") ∧
      (chip.chipType.isPlugin → chip.plugin = none → chip.file ≠ "") := by
  rw [checkFile, seq_eq_ok, only_eq_ok, seq_eq_ok, refuse_eq_ok] at h
  obtain ⟨hnamed, hfile, -⟩ := h
  refine ⟨fun hplugin => ?_, fun htype hplugin hempty => hfile ⟨hempty, ?_⟩⟩
  · have hnamed := hnamed hplugin
    simp only [checkNamedPlugin, seq_eq_ok, refuse_eq_ok] at hnamed
    exact not_not.mp hnamed.2.1
  · rw [ChipType.isPlugin, beq_iff_eq] at htype
    rw [fileOptional, htype, hplugin]
    rfl

lemma checkFiles_ok {sets : List FileSet}
    (h : ((numbered 0 sets).zipIdx.forM fun ((set, chipNum), setId) =>
      checkSetFiles setId set chipNum) = .ok ())
    {n : ℕ} {chip : FileChip} (hchip : (sets.flatMap (·.chips))[n]? = some chip) :
    ∃ set, checkFile set chip n = .ok () := by
  obtain ⟨i, j, set, hset, hj, rfl⟩ := exists_set hchip
  have hmem : ((set, firstId sets i), i) ∈ (numbered 0 sets).zipIdx := by
    rw [List.mem_zipIdx_iff_getElem?, numbered_getElem?, hset]
    simp
  have hfiles : checkSetFiles i set (firstId sets i) = .ok () := forM_eq_ok.mp h _ hmem
  rw [checkSetFiles, seq_eq_ok, forM_eq_ok] at hfiles
  refine ⟨set, hfiles.2 (chip, firstId sets i + j) ?_⟩
  rw [List.mem_zipIdx_iff_le_and_getElem?_sub]
  simpa using hj

lemma ready_fromJson {version : FirmwareVersion} {sets : List FileSet} {b : Builder}
    (h : fromJson version sets = .ok b) : Ready b := by
  rw [fromJson, seq_eq_ok, seq_eq_ok] at h
  obtain ⟨-, -, h⟩ := h
  obtain ⟨images, hsets, h⟩ := bind_eq_ok.mp h
  rw [seq_eq_ok, seq_eq_ok, pure_eq_ok, mapError_eq_ok] at h
  rw [mapError_eq_ok] at hsets
  obtain ⟨hfiles, hlines, rfl⟩ := h
  have hkeys := assignFileIds_keys [] 0 (numberedChips sets)
  refine ⟨fun id hid k hk => assignFileIds_closed (by simp) _ id hid k hk (Nat.zero_le k), ?_, ?_,
    ⟨images, hsets⟩, hlines⟩
  · intro n chip hchip htype hplugin
    obtain ⟨set, hfile⟩ := checkFiles_ok hfiles hchip
    have hmem : n ∈ (assignFileIds [] 0 (numberedChips sets)).map (·.1) := by
      rw [hkeys]
      refine List.mem_map.mpr ⟨(chip, n), List.mem_filter.mpr ⟨mem_numberedChips.mpr hchip, ?_⟩, rfl⟩
      simpa using (checkFile_ok hfile).2 htype hplugin
    obtain ⟨entry, hentry, rfl⟩ := List.mem_map.mp hmem
    exact List.lookup_isSome_iff.mpr ⟨entry, hentry, by simp⟩
  · intro n chip hchip hplugin
    obtain ⟨set, hfile⟩ := checkFiles_ok hfiles hchip
    refine List.lookup_eq_none_iff.mpr fun entry hentry => ?_
    have hmem : entry.1 ∈ (assignFileIds [] 0 (numberedChips sets)).map (·.1) :=
      List.mem_map_of_mem hentry
    rw [hkeys] at hmem
    obtain ⟨⟨chip', m⟩, hin, heq⟩ := List.mem_map.mp hmem
    obtain ⟨hin, hne⟩ := List.mem_filter.mp hin
    simp only [bne_iff_ne, ne_eq]
    rintro rfl
    dsimp only at heq
    subst heq
    have hsame := (mem_numberedChips.mp hin).symm.trans hchip
    cases hsame
    simp [(checkFile_ok hfile).1 hplugin] at hne

lemma Ready.setPluginFile {b b' : Builder} {n : ℕ} {file : String} (hb : Ready b)
    (h : setPluginFile b n file = .ok b') : Ready b' := by
  rw [PluginImages.setPluginFile] at h
  split at h
  · cases h
  next chip hchip =>
  split at h
  · cases h
  next hplugin =>
  cases h
  -- the chip had no file id, so that the map only grows
  have hunset := hb.unset n chip hchip hplugin
  have hfilter : (b.fileIdMap.filter fun entry => entry.1 ≠ n) = b.fileIdMap := by
    rw [List.filter_eq_self]
    intro entry hentry
    have hne := List.lookup_eq_none_iff.mp hunset entry hentry
    rw [decide_eq_true_iff]
    rintro rfl
    simp at hne
  have hid : pluginFileId b file ≤ (b.fileIdMap.map (·.2)).toFinset.card := by
    rw [pluginFileId]
    cases hfind : ((numberedChips b.sets).find? fun (chip, _) =>
        chip.file = file ∧ chip.extract = none).bind fun (_, n) => b.fileIdMap.lookup n with
    | none => rfl
    | some id =>
      obtain ⟨⟨chip', m⟩, -, hlookup⟩ := Option.bind_eq_some_iff.mp hfind
      obtain ⟨l₁, l₂, hl, -⟩ := List.lookup_eq_some_iff.mp hlookup
      exact Nat.le_of_lt (hb.closed.lt_card (by simp [hl]))
  have hconfig : deviceConfig b.version (updateChip n (fun chip =>
      { chip with file := file, plugin := none }) b.sets) = deviceConfig b.version b.sets := by
    have hchip : ∀ chip : FileChip,
        ({ chip with file := file, plugin := none } : FileChip).toChipConfig = chip.toChipConfig :=
      fun _ => rfl
    rw [deviceConfig, deviceConfig, updateChip_toConfig hchip]
  refine ⟨?_, ?_, ?_, by simpa only [hconfig] using hb.sets, by simpa only [hconfig] using hb.lines⟩
  · rw [hfilter, List.map_cons]
    exact hb.closed.cons hid
  · intro m chip' hchip' htype hnone
    rw [updateChip_chips] at hchip'
    obtain ⟨old, hold, rfl⟩ := Option.map_eq_some_iff.mp hchip'
    rw [hfilter, List.lookup_cons]
    by_cases hm : m = n
    · simp [hm]
    · rw [if_neg hm] at htype hnone
      rw [beq_eq_false_iff_ne.mpr hm]
      exact hb.keyed m old hold htype hnone
  · intro m chip' hchip' hnamed
    rw [updateChip_chips] at hchip'
    obtain ⟨old, hold, rfl⟩ := Option.map_eq_some_iff.mp hchip'
    rw [hfilter, List.lookup_cons]
    by_cases hm : m = n
    · simp [hm] at hnamed
    · rw [if_neg hm] at hnamed
      rw [beq_eq_false_iff_ne.mpr hm]
      exact hb.unset m old hold hnamed

lemma Reachable.ready {b : Builder} (h : Reachable b) : Ready b := by
  induction h with
  | fromJson h => exact ready_fromJson h
  | addFile hb h ih =>
    simp only [PluginImages.addFile, seq_eq_ok, refuse_eq_ok, pure_eq_ok] at h
    obtain ⟨-, -, rfl⟩ := h
    exact ⟨ih.closed, ih.keyed, ih.unset, ih.sets, ih.lines⟩
  | setPluginFile hb h ih => exact ih.setPluginFile h

end OneRom.PluginImages
