import Mathlib.Data.List.Basic

/-!
Launching plugins and pausing the other core. The system plugin runs on core 1 and the user plugin
on core 0, where the firmware otherwise yields to the system plugin. A plugin that is to have the
flash for itself asks the other core to wait, and works out from the slots whether there is anyone
to ask.
-/

namespace OneRom.Plugins

/-- The part of a plugin's header that the firmware reads. -/
structure Header where
  magic : UInt32
  apiVersion : UInt32
  entry : UInt32
  pluginType : UInt8
  properties1 : UInt8
  minFwMajorVersion : UInt16
  minFwMinorVersion : UInt16
  minFwPatchVersion : UInt16

structure Slot where
  slotType : UInt8
  data : UInt32
  size : UInt32

/-- The slots, the headers at the addresses they name, the sizes of the flash chips, and the
firmware's version. -/
structure Device where
  romSlots : List Slot
  headerAt : UInt32 → Header
  cs0Bytes : UInt32
  cs1Bytes : UInt32
  majorVersion : UInt16
  minorVersion : UInt16
  patchVersion : UInt16

inductive Core
  | core0
  | core1
  deriving DecidableEq

/-! ### Constants -/

def romSlotTypePluginSystem : UInt8 := 0
def romSlotTypePluginUser : UInt8 := 1
def oraPluginTypeSystem : UInt8 := 0
def oraPluginTypeUser : UInt8 := 1
def oraPluginMagic : UInt32 := 0x2041524F
def oraPluginVersion1 : UInt32 := 1
def oraProperty1SupportsYield : UInt8 := 2
def flashCs0BaseAddr : UInt32 := 0x10000000
def flashCs1BaseAddr : UInt32 := 0x11000000
def systemPluginOffset : UInt32 := 0x10000
def systemPluginSize : UInt32 := 0x10000

/-! ### Which plugins are launched -/

/-- Whether bytes from an address fit on a flash chip. -/
def onFlashChip (addr size base chipSize : UInt32) : Bool :=
  addr - base < chipSize && size ≤ chipSize - (addr - base)

def romSlotInFlash (d : Device) (slot : Slot) : Bool :=
  onFlashChip slot.data slot.size flashCs0BaseAddr d.cs0Bytes ||
    onFlashChip slot.data slot.size flashCs1BaseAddr d.cs1Bytes

def checkPluginValid (d : Device) (slot : Slot) (expectedType : UInt8) (index : UInt32) : Bool :=
  if romSlotInFlash d slot = false then false
  else
    let header := d.headerAt slot.data
    let expectedLaunchRegion := flashCs0BaseAddr + systemPluginOffset + index * systemPluginSize
    if header.magic ≠ oraPluginMagic then false
    else if header.apiVersion ≠ oraPluginVersion1 then false
    else if header.pluginType ≠ expectedType then false
    else if systemPluginSize ≤ header.entry &&& ~~~expectedLaunchRegion then false
    else if d.majorVersion < header.minFwMajorVersion ∨
        (header.minFwMajorVersion = d.majorVersion ∧
          d.minorVersion < header.minFwMinorVersion) ∨
        (header.minFwMajorVersion = d.majorVersion ∧ header.minFwMinorVersion = d.minorVersion ∧
          d.patchVersion < header.minFwPatchVersion) then false
    else true

/-- Whether the system plugin is launched, and whether the user plugin is. -/
def launchPluginsInner (d : Device) : Bool × Bool :=
  let systemPlugin := match d.romSlots[0]? with
    | some set0 => set0.slotType == romSlotTypePluginSystem &&
        checkPluginValid d set0 oraPluginTypeSystem 0
    | none => false
  let userPlugin := match d.romSlots[1]? with
    | some set1 => set1.slotType == romSlotTypePluginUser &&
        checkPluginValid d set1 oraPluginTypeUser 1 && systemPlugin
    | none => false
  (systemPlugin, userPlugin)

/-- What a core runs from flash once plugins have been launched. -/
inductive Activity
  | plugin
  | yielding
  deriving DecidableEq

/-- What a core may be running: its plugin, and the firmware's loop where there is none or it has
returned. Core 0 has no loop to run where there is no system plugin to yield to. -/
def oraLaunchPlugins (d : Device) : Core → List Activity
  | .core1 => if (launchPluginsInner d).1 then [.plugin, .yielding] else []
  | .core0 =>
    (if (launchPluginsInner d).2 then [.plugin] else []) ++
      if (launchPluginsInner d).1 then [.yielding] else []

/-! ### Exclusive mode -/

def other : Core → Core
  | .core0 => .core1
  | .core1 => .core0

/-- What a header says of yielding. -/
def yieldCapability (header : Header) : Int :=
  if header.properties1 &&& oraProperty1SupportsYield ≠ 0 then 1 else -1

/-- Nobody on the other core, someone who yields, or someone who does not. -/
def otherCoreYieldCapabilityFrom (d : Device) : Core → Int
  | .core0 => match d.romSlots[0]? with
    | none => 0
    | some set =>
      if set.slotType ≠ romSlotTypePluginSystem then 0
      else if romSlotInFlash d set = false then 0
      else yieldCapability (d.headerAt set.data)
  | .core1 => match d.romSlots[1]? with
    | none => 1
    | some set =>
      if set.slotType ≠ romSlotTypePluginUser then 0
      else if romSlotInFlash d set = false then 1
      else yieldCapability (d.headerAt set.data)

inductive OraResult
  | ok
  | notSupported
  deriving DecidableEq

/-- What one core sends the other. -/
inductive Word
  | request
  | resume
  deriving DecidableEq

/-- The result, and what is sent. A request that is sent is waited for. -/
def oraEnterExclusiveMode (d : Device) (core : Core) : OraResult × List Word :=
  let cap := otherCoreYieldCapabilityFrom d core
  if cap < 0 then (.notSupported, [])
  else if cap = 0 then (.ok, [])
  else (.ok, [.request])

def oraExitExclusiveMode : OraResult × List Word := (.ok, [.resume])

/-- A plugin's calls. -/
inductive Call
  | enter
  | exit
  deriving DecidableEq

/-- What a plugin's calls send the other core. -/
def sent (d : Device) (core : Core) : List Call → List Word
  | [] => []
  | .enter :: calls => (oraEnterExclusiveMode d core).2 ++ sent d core calls
  | .exit :: calls => oraExitExclusiveMode.2 ++ sent d core calls

/-! ### What exclusive mode is for -/

/-- Calls as they are to be made: exclusive mode is left only where it has been entered. -/
def bracketed (d : Device) (core : Core) : Bool → List Call → Bool
  | _, [] => true
  | false, .enter :: calls => bracketed d core ((oraEnterExclusiveMode d core).1 == .ok) calls
  | true, .enter :: _ => false
  | held, .exit :: calls => held && bracketed d core false calls

/-- Every resume is for a core that has been sent a request. -/
def answered : Bool → List Word → Bool
  | _, [] => true
  | _, .request :: words => answered true words
  | requested, .resume :: words => requested && answered false words

/-- A core that is let into exclusive mode with nobody asked to wait has nobody to ask, and no core
is told to resume that was not asked. -/
def Exclusive (d : Device) (core : Core) : Prop :=
  (oraEnterExclusiveMode d core = (.ok, []) → oraLaunchPlugins d (other core) = []) ∧
    ∀ calls, bracketed d core false calls = true → answered false (sent d core calls) = true

/-- A plugin runs on the core. -/
def Launched (d : Device) (core : Core) : Prop := .plugin ∈ oraLaunchPlugins d core

/-- The second slot holds no user plugin, where there is one. -/
def secondSlotOther (d : Device) : Prop :=
  ∃ set, d.romSlots[1]? = some set ∧ set.slotType ≠ romSlotTypePluginUser

section Capability

variable {d : Device} {core : Core}

lemma yieldCapability_ne_zero (header : Header) : yieldCapability header ≠ 0 := by
  unfold yieldCapability
  split_ifs <;> decide

/-- From core 1 there seems to be nobody where the second slot is no user plugin's. -/
lemma capability_core1 :
    otherCoreYieldCapabilityFrom d .core1 = 0 ↔ secondSlotOther d := by
  unfold otherCoreYieldCapabilityFrom secondSlotOther
  cases hset : d.romSlots[1]? with
  | none => simp
  | some set =>
    by_cases htype : set.slotType = romSlotTypePluginUser
    · by_cases hflash : romSlotInFlash d set = false
      · simp [htype, hflash]
      · simp [htype, hflash, yieldCapability_ne_zero]
    · simp [htype]

lemma launched_core1 (h : Launched d .core1) : (launchPluginsInner d).1 = true := by
  unfold Launched oraLaunchPlugins at h
  by_contra hno
  rw [if_neg hno] at h
  exact List.not_mem_nil h

/-- A user plugin runs only beside a system plugin. -/
lemma launched_core0 (h : Launched d .core0) : (launchPluginsInner d).1 = true := by
  unfold Launched oraLaunchPlugins at h
  by_contra hno
  have huser : (launchPluginsInner d).2 = false := by
    unfold launchPluginsInner at hno ⊢
    cases hset : d.romSlots[1]? with
    | none => rfl
    | some set =>
      simp only [Bool.not_eq_true] at hno ⊢
      rw [hno, Bool.and_false]
  rw [huser] at h
  simp [hno] at h

/-- A valid system plugin is somebody. -/
lemma capability_core0 (h : (launchPluginsInner d).1 = true) :
    otherCoreYieldCapabilityFrom d .core0 ≠ 0 := by
  unfold launchPluginsInner at h
  unfold otherCoreYieldCapabilityFrom
  cases hset : d.romSlots[0]? with
  | none =>
    rw [hset] at h
    exact Bool.noConfusion h
  | some set =>
    rw [hset] at h
    simp only [Bool.and_eq_true, beq_iff_eq] at h
    obtain ⟨htype, hvalid⟩ := h
    have hflash : romSlotInFlash d set ≠ false := by
      intro hno
      unfold checkPluginValid at hvalid
      rw [if_pos hno] at hvalid
      exact absurd hvalid (by decide)
    simp [htype, hflash, yieldCapability_ne_zero]

lemma enter_quiet_iff :
    oraEnterExclusiveMode d core = (.ok, []) ↔ otherCoreYieldCapabilityFrom d core = 0 := by
  unfold oraEnterExclusiveMode
  dsimp only
  split_ifs with hneg hzero
  · exact ⟨fun h => OraResult.noConfusion (congrArg Prod.fst h), fun h => by omega⟩
  · exact ⟨fun _ => hzero, fun _ => rfl⟩
  · exact ⟨fun h => absurd (congrArg Prod.snd h) (List.cons_ne_nil _ _), fun h => absurd h hzero⟩

/-- Where there is somebody, exclusive mode is entered by asking, and left by telling the same core
to resume. -/
lemma answered_sent (hcap : otherCoreYieldCapabilityFrom d core ≠ 0) (held : Bool)
    (calls : List Call) (h : bracketed d core held calls = true) :
    answered held (sent d core calls) = true := by
  induction calls generalizing held with
  | nil => cases held <;> rfl
  | cons call calls ih =>
    cases call with
    | exit =>
      obtain ⟨hheld, hrest⟩ := Bool.and_eq_true_iff.mp (by simpa [bracketed] using h)
      subst hheld
      exact ih false hrest
    | enter =>
      cases held with
      | true => exact Bool.noConfusion h
      | false =>
        rcases Int.lt_or_gt_of_ne hcap with hneg | hpos
        · have henter : oraEnterExclusiveMode d core = (.notSupported, []) := if_pos hneg
          unfold bracketed at h
          unfold sent
          rw [henter] at h ⊢
          exact ih false h
        · have henter : oraEnterExclusiveMode d core = (.ok, [.request]) := by
            unfold oraEnterExclusiveMode
            dsimp only
            rw [if_neg (Int.not_lt.mpr (Int.le_of_lt hpos)), if_neg hcap]
          unfold bracketed at h
          unfold sent
          rw [henter] at h ⊢
          exact ih true h

end Capability

/-- A system plugin that supports yielding, with what follows it in the slots. -/
def systemBoard (rest : List Slot) : Device where
  romSlots := ⟨romSlotTypePluginSystem, 0x10010000, 0x10000⟩ :: rest
  headerAt _ := ⟨oraPluginMagic, oraPluginVersion1, 0x10010101, oraPluginTypeSystem, 2, 0, 0, 0⟩
  cs0Bytes := 0x200000
  cs1Bytes := 0
  majorVersion := 0
  minorVersion := 7
  patchVersion := 0

/-- A slot with a ROM. -/
def romSlot : Slot := ⟨3, 0x10030000, 0x10000⟩

end OneRom.Plugins
