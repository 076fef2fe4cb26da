import Mathlib

/-!
The chip types One ROM emulates, and their pins.

A chip type's description is the configuration's. `address_pins`, `data_pins` and
`control_lines` name the pins of the chip, and `control_lines` come sorted by name.
-/

namespace OneRom.ChipTypes

/-- The largest ROM table a slot can have. -/
def MAX_IMAGE_SIZE : ℕ := 0x80000

inductive ChipFunction
  | rom
  | ram
  | plugin
  deriving DecidableEq, Repr

/-- The names control lines have. -/
inductive LineName
  | busy | byte | ce | cs1 | cs2 | cs3 | cs4 | oe | write
  deriving DecidableEq, Repr

inductive ControlLineType
  | configurable
  | fixedActiveLow
  | fixedActiveHigh
  deriving DecidableEq, Repr

/-- The level of a line whose polarity is fixed: whether it is active high. -/
def ControlLineType.fixedActiveLevel : ControlLineType → Option Bool
  | .configurable => none
  | .fixedActiveLow => some false
  | .fixedActiveHigh => some true

structure ControlLineSpec where
  name : LineName
  pin : ℕ
  lineType : ControlLineType
  allowIgnore : Bool := false
  deriving DecidableEq, Repr

structure ChipSpec where
  name : String
  function : ChipFunction := .rom
  bitModes : List ℕ := [8]
  chipPins : ℕ
  sizeBytes : ℕ
  addressPins : List ℕ
  dataPins : List ℕ
  controlLines : List ControlLineSpec
  /-- The address bits that, all high, deselect the chip. -/
  deselectWhenAddressAllHigh : Option (List ℕ) := none

inductive ChipType
  | systemPlugin | userPlugin | pioPlugin | chip2316 | chip2332 | chip2364 | chip23128
  | chip23256 | chip23QL384 | chip23QL512 | chip23512 | chip231024 | chip23C1010 | chipHM7641
  | chip2704 | chip2708 | chip2716 | chip2732 | chip2764 | chip27128 | chip27256 | chip27512
  | chip27C301 | chip23C1001 | chip27C010 | chip27C020 | chip27C040 | chipSST39SF040 | chip27C080
  | chip27C200 | chip27C200Pin31NC | chip27C400 | chip27C400Pin31A17 | chip28C16 | chip28C64
  | chip28C256 | chip28C512 | chip6116 | chip62256
  deriving DecidableEq, Repr

/-! ### The data pins of the chips of each package -/

def data24 : List ℕ := [9, 10, 11, 13, 14, 15, 16, 17]
def data28 : List ℕ := [11, 12, 13, 15, 16, 17, 18, 19]
def data32 : List ℕ := [13, 14, 15, 17, 18, 19, 20, 21]
def data40 : List ℕ := [13, 15, 17, 19, 22, 24, 26, 28, 14, 16, 18, 20, 23, 25, 27, 29]

/-! ### The address pins the chips of each package share -/

def address24 : List ℕ := [8, 7, 6, 5, 4, 3, 2, 1, 23]
def address28 : List ℕ := [10, 9, 8, 7, 6, 5, 4, 3, 25, 24, 21, 23, 2]
def address32 : List ℕ := [12, 11, 10, 9, 8, 7, 6, 5, 27, 26, 23, 25, 4, 28, 29, 3]
def address40 : List ℕ := [29, 9, 8, 7, 6, 5, 4, 3, 2, 40, 39, 38, 37, 36, 35, 34, 33, 32]

/-- The `ce` and `oe` of a chip, both active low. -/
def ceOe (ce oe : ℕ) : List ControlLineSpec :=
  [⟨.ce, ce, .fixedActiveLow, false⟩, ⟨.oe, oe, .fixedActiveLow, false⟩]

/-- A line whose polarity is configured. -/
def configurable (name : LineName) (pin : ℕ) : ControlLineSpec := ⟨name, pin, .configurable, false⟩

/-- The description of each chip type. -/
def ChipType.spec : ChipType → ChipSpec
  | .systemPlugin =>
    { name := "SystemPlugin", function := .plugin, bitModes := [], chipPins := 0,
      sizeBytes := 65536, addressPins := [], dataPins := [], controlLines := [] }
  | .userPlugin =>
    { name := "UserPlugin", function := .plugin, bitModes := [], chipPins := 0,
      sizeBytes := 65536, addressPins := [], dataPins := [], controlLines := [] }
  | .pioPlugin =>
    { name := "PioPlugin", function := .plugin, bitModes := [], chipPins := 0, sizeBytes := 65536,
      addressPins := [], dataPins := [], controlLines := [] }
  | .chip2316 =>
    { name := "2316", chipPins := 24, sizeBytes := 2048, addressPins := address24 ++ [22, 19],
      dataPins := data24,
      controlLines := [configurable .cs1 20, configurable .cs2 18, configurable .cs3 21] }
  | .chip2332 =>
    { name := "2332", chipPins := 24, sizeBytes := 4096, addressPins := address24 ++ [22, 19, 18],
      dataPins := data24, controlLines := [configurable .cs1 20, configurable .cs2 21] }
  | .chip2364 =>
    { name := "2364", chipPins := 24, sizeBytes := 8192,
      addressPins := address24 ++ [22, 19, 18, 21], dataPins := data24,
      controlLines := [configurable .cs1 20] }
  | .chip23128 =>
    { name := "23128", chipPins := 28, sizeBytes := 16384, addressPins := address28 ++ [26],
      dataPins := data28,
      controlLines := [configurable .cs1 20, configurable .cs2 22, configurable .cs3 27] }
  | .chip23256 =>
    { name := "23256", chipPins := 28, sizeBytes := 32768, addressPins := address28 ++ [26, 27],
      dataPins := data28, controlLines := [configurable .cs1 20, configurable .cs2 22] }
  | .chip23QL384 =>
    { name := "23QL384", chipPins := 28, sizeBytes := 49152,
      addressPins := address28 ++ [26, 27, 20], dataPins := data28,
      controlLines := [configurable .cs1 22], deselectWhenAddressAllHigh := some [14, 15] }
  | .chip23QL512 =>
    { name := "23QL512", chipPins := 28, sizeBytes := 65536,
      addressPins := address28 ++ [26, 27, 20], dataPins := data28,
      controlLines := [configurable .cs1 22] }
  | .chip23512 =>
    { name := "23512", chipPins := 28, sizeBytes := 65536,
      addressPins := address28 ++ [26, 27, 1], dataPins := data28,
      controlLines := [configurable .cs1 20, configurable .cs2 22] }
  | .chip231024 =>
    { name := "231024", chipPins := 28, sizeBytes := 131072,
      addressPins := address28 ++ [26, 27, 1, 22], dataPins := data28,
      controlLines := [configurable .cs1 20] }
  | .chip23C1010 =>
    { name := "23C1010", chipPins := 32, sizeBytes := 131072, addressPins := address32 ++ [2],
      dataPins := data32, controlLines := ceOe 22 24 }
  | .chipHM7641 =>
    { name := "HM7641", chipPins := 24, sizeBytes := 512, addressPins := address24,
      dataPins := data24,
      controlLines := [⟨.cs1, 21, .fixedActiveLow, false⟩, ⟨.cs2, 20, .fixedActiveLow, false⟩,
        ⟨.cs3, 19, .fixedActiveHigh, false⟩, ⟨.cs4, 18, .fixedActiveHigh, false⟩] }
  | .chip2704 =>
    { name := "2704", chipPins := 24, sizeBytes := 512, addressPins := address24,
      dataPins := data24, controlLines := ceOe 18 20 }
  | .chip2708 =>
    { name := "2708", chipPins := 24, sizeBytes := 1024, addressPins := address24 ++ [22],
      dataPins := data24, controlLines := ceOe 18 20 }
  | .chip2716 =>
    { name := "2716", chipPins := 24, sizeBytes := 2048, addressPins := address24 ++ [22, 19],
      dataPins := data24, controlLines := ceOe 18 20 }
  | .chip2732 =>
    { name := "2732", chipPins := 24, sizeBytes := 4096, addressPins := address24 ++ [22, 19, 21],
      dataPins := data24, controlLines := ceOe 18 20 }
  | .chip2764 =>
    { name := "2764", chipPins := 28, sizeBytes := 8192, addressPins := address28,
      dataPins := data28, controlLines := ceOe 20 22 }
  | .chip27128 =>
    { name := "27128", chipPins := 28, sizeBytes := 16384, addressPins := address28 ++ [26],
      dataPins := data28, controlLines := ceOe 20 22 }
  | .chip27256 =>
    { name := "27256", chipPins := 28, sizeBytes := 32768, addressPins := address28 ++ [26, 27],
      dataPins := data28, controlLines := ceOe 20 22 }
  | .chip27512 =>
    { name := "27512", chipPins := 28, sizeBytes := 65536,
      addressPins := address28 ++ [26, 27, 1], dataPins := data28, controlLines := ceOe 20 22 }
  | .chip27C301 =>
    { name := "27C301", chipPins := 32, sizeBytes := 131072, addressPins := address32 ++ [24],
      dataPins := data32, controlLines := ceOe 22 2 }
  | .chip23C1001 =>
    { name := "23C1001", chipPins := 32, sizeBytes := 131072, addressPins := address32 ++ [2],
      dataPins := data32,
      controlLines := [⟨.ce, 22, .fixedActiveLow, false⟩, ⟨.cs1, 31, .configurable, true⟩,
        ⟨.cs2, 30, .configurable, true⟩, ⟨.oe, 24, .fixedActiveLow, false⟩] }
  | .chip27C010 =>
    { name := "27C010", chipPins := 32, sizeBytes := 131072, addressPins := address32 ++ [2],
      dataPins := data32, controlLines := ceOe 22 24 }
  | .chip27C020 =>
    { name := "27C020", chipPins := 32, sizeBytes := 262144, addressPins := address32 ++ [2, 30],
      dataPins := data32, controlLines := ceOe 22 24 }
  | .chip27C040 =>
    { name := "27C040", chipPins := 32, sizeBytes := 524288,
      addressPins := address32 ++ [2, 30, 31], dataPins := data32, controlLines := ceOe 22 24 }
  | .chipSST39SF040 =>
    { name := "SST39SF040", chipPins := 32, sizeBytes := 524288,
      addressPins := address32 ++ [2, 30, 1], dataPins := data32,
      controlLines := ceOe 22 24 ++ [⟨.write, 31, .fixedActiveLow, false⟩] }
  | .chip27C080 =>
    { name := "27C080", chipPins := 32, sizeBytes := 1048576,
      addressPins := address32 ++ [2, 30, 31, 1], dataPins := data32, controlLines := ceOe 22 24 }
  | .chip27C200 =>
    { name := "27C200", bitModes := [8, 16], chipPins := 40, sizeBytes := 262144,
      addressPins := address40, dataPins := data40,
      controlLines := [⟨.byte, 31, .fixedActiveLow, false⟩] ++ ceOe 10 12 }
  | .chip27C200Pin31NC =>
    { name := "27C200Pin31NC", bitModes := [16], chipPins := 40, sizeBytes := 262144,
      addressPins := address40, dataPins := data40, controlLines := ceOe 10 12 }
  | .chip27C400 =>
    { name := "27C400", bitModes := [8, 16], chipPins := 40, sizeBytes := 524288,
      addressPins := address40 ++ [1], dataPins := data40,
      controlLines := [⟨.byte, 31, .fixedActiveLow, false⟩] ++ ceOe 10 12 }
  | .chip27C400Pin31A17 =>
    { name := "27C400Pin31A17", bitModes := [16], chipPins := 40, sizeBytes := 524288,
      addressPins := address40 ++ [31], dataPins := data40, controlLines := ceOe 10 12 }
  | .chip28C16 =>
    { name := "28C16", chipPins := 24, sizeBytes := 2048, addressPins := address24 ++ [22, 19],
      dataPins := data24, controlLines := ceOe 18 20 ++ [⟨.write, 21, .fixedActiveLow, false⟩] }
  | .chip28C64 =>
    { name := "28C64", chipPins := 28, sizeBytes := 8192, addressPins := address28,
      dataPins := data28,
      controlLines := ⟨.busy, 1, .fixedActiveLow, false⟩ :: ceOe 20 22 ++
        [⟨.write, 27, .fixedActiveLow, false⟩] }
  | .chip28C256 =>
    { name := "28C256", chipPins := 28, sizeBytes := 32768, addressPins := address28 ++ [26, 1],
      dataPins := data28, controlLines := ceOe 20 22 ++ [⟨.write, 27, .fixedActiveLow, false⟩] }
  | .chip28C512 =>
    { name := "28C512", chipPins := 32, sizeBytes := 65536, addressPins := address32,
      dataPins := data32, controlLines := ceOe 22 24 ++ [⟨.write, 30, .fixedActiveLow, false⟩] }
  | .chip6116 =>
    { name := "6116", function := .ram, chipPins := 24, sizeBytes := 2048,
      addressPins := address24 ++ [22, 19], dataPins := data24,
      controlLines := ceOe 18 20 ++ [⟨.write, 21, .fixedActiveLow, false⟩] }
  | .chip62256 =>
    { name := "62256", function := .ram, chipPins := 28, sizeBytes := 32768,
      addressPins := address28 ++ [26, 1], dataPins := data28,
      controlLines := ceOe 20 22 ++ [⟨.write, 27, .fixedActiveLow, false⟩] }

namespace ChipType

variable (t : ChipType)

def name : String := t.spec.name
def chipFunction : ChipFunction := t.spec.function
def sizeBytes : ℕ := t.spec.sizeBytes
def chipPins : ℕ := t.spec.chipPins
def addressPins : List ℕ := t.spec.addressPins
def numAddrLines : ℕ := t.addressPins.length
def dataPins : List ℕ := t.spec.dataPins
def controlLines : List ControlLineSpec := t.spec.controlLines
def deselectWhenAddressAllHigh : Option (List ℕ) := t.spec.deselectWhenAddressAllHigh
def supportsBitMode (bits : ℕ) : Bool := t.spec.bitModes.contains bits
def isPlugin : Bool := t.chipFunction == .plugin

/-- The chip's line of that name. -/
def line (n : LineName) : Option ControlLineSpec := t.controlLines.find? (·.name == n)

/-- The address lines too many for the ROM table, which select a half instead. -/
def numExcessAddrLines : ℕ := t.numAddrLines - Nat.log2 MAX_IMAGE_SIZE

/-- The chip's address space exceeds the ROM table, so that `cs1` selects the half served. -/
def requiresHalfSelectCs1 : Bool := 0 < t.numExcessAddrLines

/-! ### What the configuration's checks hold of every chip type -/

/-- A chip with one of `ce` and `oe` has both, and their polarity is fixed active low. -/
lemma ceOe_fixed {n : LineName} {l : ControlLineSpec} (hn : n = .ce ∨ n = .oe)
    (h : t.line n = some l) : l.lineType = .fixedActiveLow ∧ l.allowIgnore = false := by
  rcases hn with rfl | rfl <;> cases t <;> simp [line, controlLines, spec, ceOe, configurable] at h <;>
    simp [← h]

end ChipType

end OneRom.ChipTypes
