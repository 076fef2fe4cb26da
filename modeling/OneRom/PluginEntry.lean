import Mathlib
import OneRom.OtpAccess
import OneRom.Plugins

/-!
Where a plugin's entry point is.

`check_plugin_valid` compares the entry's address with the plugin's region by the bits that the
region's base doesn't have. `launch_sound_iff` says for which headers that is enough.
-/

namespace OneRom.PluginEntry

open OneRom.OtpAccess OneRom.Plugins

/-! ### Regions -/

/-- Where the `index`-th plugin's region begins. -/
def launchRegion (index : UInt8) : UInt32 :=
  flashCs0BaseAddr + systemPluginOffset + index.toUInt32 * systemPluginSize

lemma toNat_launchRegion (index : UInt8) :
    (launchRegion index).toNat = (0x1001 + index.toNat) * 2 ^ 16 := by
  have hlt := index.toNat_lt
  simp only [launchRegion, flashCs0BaseAddr, systemPluginOffset, systemPluginSize, UInt32.toNat_add,
    UInt32.toNat_mul, UInt8.toNat_toUInt32, UInt32.toNat_ofNat]
  omega

/-- A word is its bits outside a mask and those within it. -/
lemma toNat_mask_add (x mask : UInt32) : x.toNat = (x &&& ~~~mask).toNat + (x &&& mask).toNat := by
  have hnone : (x &&& ~~~mask).toBitVec &&& (x &&& mask).toBitVec = 0#32 :=
    BitVec.eq_of_getLsbD_eq fun i _ => by simp; grind
  have hall : (x &&& ~~~mask).toBitVec ||| (x &&& mask).toBitVec = x.toBitVec :=
    BitVec.eq_of_getLsbD_eq fun i _ => by simp; grind
  calc x.toNat = ((x &&& ~~~mask).toBitVec + (x &&& mask).toBitVec).toNat := by
        rw [BitVec.add_eq_or_of_and_eq_zero _ _ hnone, hall, UInt32.toNat_toBitVec]
    _ = (x &&& ~~~mask).toNat + (x &&& mask).toNat := BitVec.toNat_add_of_and_eq_zero hnone

/-- A number that differs from a mask in its low bits alone has the mask's bits. -/
lemma and_eq_of_region {e r : ℕ} (hlo : r * 2 ^ 16 ≤ e) (hhi : e < r * 2 ^ 16 + 2 ^ 16) :
    e &&& r * 2 ^ 16 = r * 2 ^ 16 := by
  refine Nat.eq_of_testBit_eq fun i => ?_
  rw [Nat.testBit_and, Nat.testBit_mul_two_pow]
  by_cases hi : 16 ≤ i
  · have hdiv : e / 2 ^ 16 = r := by omega
    have hbit : e.testBit i = r.testBit (i - 16) := by
      rw [← hdiv, Nat.testBit_div_two_pow, Nat.sub_add_cancel hi]
    simp [hi, hbit]
  · simp [hi]

/-- The mask is that of a region where the base's own bits are all there. -/
lemma region_iff (entry : UInt32) (index : UInt8) :
    entry &&& ~~~launchRegion index < systemPluginSize ∧
        entry &&& launchRegion index = launchRegion index ↔
      (launchRegion index).toNat ≤ entry.toNat ∧
        entry.toNat < (launchRegion index).toNat + 0x10000 := by
  have hsum := toNat_mask_add entry (launchRegion index)
  have hsize : systemPluginSize.toNat = 0x10000 := rfl
  rw [UInt32.lt_iff_toNat_lt, hsize]
  constructor
  · rintro ⟨hlow, hbits⟩
    rw [hbits] at hsum
    omega
  · rintro ⟨hlo, hhi⟩
    have hbits : entry &&& launchRegion index = launchRegion index := by
      refine UInt32.toNat_inj.mp ?_
      rw [UInt32.toNat_and, toNat_launchRegion] at *
      exact and_eq_of_region hlo hhi
    rw [hbits] at hsum
    exact ⟨by omega, hbits⟩

/-! ### Flash -/

/-- A device with flash chips of these sizes, which OTP says. -/
def withFlash (d : Device) (cs0 cs1 : OneromFlashSize) : Device :=
  { d with
    cs0Bytes := UInt32.ofNat (flashSizeBytes cs0)
    cs1Bytes := UInt32.ofNat (flashSizeBytes cs1) }

/-- The slot is all on one flash chip. -/
def InFlash (slot : Slot) (cs0 cs1 : OneromFlashSize) : Prop :=
  (0x10000000 ≤ slot.data.toNat ∧
      slot.data.toNat + slot.size.toNat ≤ 0x10000000 + flashSizeBytes cs0) ∨
    0x11000000 ≤ slot.data.toNat ∧
      slot.data.toNat + slot.size.toNat ≤ 0x11000000 + flashSizeBytes cs1

lemma flashSizeBytes_le (size : OneromFlashSize) : flashSizeBytes size ≤ 0x1000000 := by
  cases size <;> decide

/-- An address below the chip's wraps to one beyond it. -/
lemma within_of_onFlashChip {addr size base : UInt32} {chip : ℕ} (hchip : chip ≤ 0x1000000)
    (hbase : 0x1000000 ≤ base.toNat) (hend : base.toNat + 0x1000000 < 2 ^ 32)
    (h : onFlashChip addr size base (UInt32.ofNat chip)) :
    base.toNat ≤ addr.toNat ∧ addr.toNat + size.toNat ≤ base.toNat + chip := by
  have hlt := addr.toNat_lt
  simp only [onFlashChip, Bool.and_eq_true, decide_eq_true_eq, UInt32.lt_iff_toNat_lt,
    UInt32.le_iff_toNat_le, UInt32.toNat_sub, UInt32.toNat_ofNat'] at h
  omega

lemma inFlash_of_romSlotInFlash {d : Device} {slot : Slot} {cs0 cs1 : OneromFlashSize}
    (h : romSlotInFlash (withFlash d cs0 cs1) slot) : InFlash slot cs0 cs1 := by
  rcases Bool.or_eq_true_iff.mp h with h | h
  · exact Or.inl (within_of_onFlashChip (flashSizeBytes_le cs0) (by decide) (by decide) h)
  · exact Or.inr (within_of_onFlashChip (flashSizeBytes_le cs1) (by decide) (by decide) h)

/-! ### Versions -/

/-- The firmware is as new as the header asks for. -/
def NewEnough (d : Device) (header : Header) : Prop :=
  toLex (header.minFwMajorVersion, toLex (header.minFwMinorVersion, header.minFwPatchVersion)) ≤
    toLex (d.majorVersion, toLex (d.minorVersion, d.patchVersion))

lemma newEnough_iff (d : Device) (header : Header) :
    NewEnough d header ↔ ¬(d.majorVersion < header.minFwMajorVersion ∨
      (header.minFwMajorVersion = d.majorVersion ∧ d.minorVersion < header.minFwMinorVersion) ∨
      (header.minFwMajorVersion = d.majorVersion ∧ header.minFwMinorVersion = d.minorVersion ∧
        d.patchVersion < header.minFwPatchVersion)) := by
  simp only [NewEnough, Prod.Lex.toLex_le_toLex, UInt16.lt_iff_toNat_lt, UInt16.le_iff_toNat_le,
    ← UInt16.toNat_inj]
  omega

/-! ### The check -/

/-- What a plugin has to be to be launched. -/
structure Launchable (d : Device) (cs0 cs1 : OneromFlashSize) (slot : Slot) (expectedType : UInt8)
    (index : UInt8) : Prop where
  inFlash : InFlash slot cs0 cs1
  magic : (d.headerAt slot.data).magic = oraPluginMagic
  apiVersion : (d.headerAt slot.data).apiVersion = oraPluginVersion1
  pluginType : (d.headerAt slot.data).pluginType = expectedType
  entry : (launchRegion index).toNat ≤ (d.headerAt slot.data).entry.toNat ∧
    (d.headerAt slot.data).entry.toNat < (launchRegion index).toNat + 0x10000
  version : NewEnough d (d.headerAt slot.data)

/-- The checks that don't look at the entry point. -/
def OtherChecks (d : Device) (slot : Slot) (expectedType : UInt8) : Prop :=
  romSlotInFlash d slot ∧ (d.headerAt slot.data).magic = oraPluginMagic ∧
    (d.headerAt slot.data).apiVersion = oraPluginVersion1 ∧
    (d.headerAt slot.data).pluginType = expectedType ∧ NewEnough d (d.headerAt slot.data)

lemma checkPluginValid_iff (d : Device) (slot : Slot) (expectedType index : UInt8) :
    checkPluginValid d slot expectedType index.toUInt32 ↔ OtherChecks d slot expectedType ∧
      (d.headerAt slot.data).entry &&& ~~~launchRegion index < systemPluginSize := by
  have hregion : flashCs0BaseAddr + systemPluginOffset + index.toUInt32 * systemPluginSize =
      launchRegion index := rfl
  unfold checkPluginValid OtherChecks
  rw [newEnough_iff]
  dsimp only
  rw [hregion]
  split_ifs with hflash hmagic hapi htype hentry hversion
  · simp [hflash]
  · simp [hmagic]
  · simp [hapi]
  · simp [htype]
  · simp [UInt32.not_lt.mpr hentry]
  · simp [hversion]
  · rw [not_not] at hmagic hapi htype
    exact iff_of_true rfl
      ⟨⟨by simpa using hflash, hmagic, hapi, htype, hversion⟩, UInt32.not_le.mp hentry⟩

/-- **The check launches what it should** just where an entry point that has no bit above the low
sixteen but its region's has all of them. -/
theorem launch_sound_iff (d : Device) (cs0 cs1 : OneromFlashSize) (slot : Slot)
    (expectedType index : UInt8) :
    (checkPluginValid (withFlash d cs0 cs1) slot expectedType index.toUInt32 = true →
        Launchable d cs0 cs1 slot expectedType index) ↔
      (OtherChecks (withFlash d cs0 cs1) slot expectedType →
        (d.headerAt slot.data).entry &&& ~~~launchRegion index < systemPluginSize →
        (d.headerAt slot.data).entry &&& launchRegion index = launchRegion index) := by
  rw [checkPluginValid_iff]
  constructor
  · intro h hother hlow
    exact ((region_iff _ index).mpr (h ⟨hother, hlow⟩).entry).2
  · rintro h ⟨hother, hlow⟩
    obtain ⟨hflash, hmagic, hapi, htype, hversion⟩ := id hother
    exact ⟨inFlash_of_romSlotInFlash hflash, hmagic, hapi, htype,
      (region_iff _ index).mp ⟨hlow, h hother hlow⟩, hversion⟩

/-- A system plugin whose entry point is in the firmware. -/
def entryInFirmware : Device :=
  { systemBoard [] with
    headerAt := fun _ =>
      ⟨oraPluginMagic, oraPluginVersion1, 0x10000101, oraPluginTypeSystem, 2, 0, 0, 0⟩ }

/-- It is launched. -/
theorem launches_outside :
    checkPluginValid (withFlash entryInFirmware .size2mb .none) ⟨0, 0x10010000, 0x10000⟩
        oraPluginTypeSystem 0 = true ∧
      ¬Launchable entryInFirmware .size2mb .none ⟨0, 0x10010000, 0x10000⟩ oraPluginTypeSystem 0 :=
  ⟨by decide +kernel, fun h => absurd h.entry.1 (by decide +kernel)⟩

end OneRom.PluginEntry
