import OneRom.CsConfig

/-!
What a slot serves and the layouts it is served from: chips, the GPIOs of the address lines, and
the GPIOs of the data and select lines.
-/

namespace OneRom.SlotLayout

open OneRom.ChipTypes OneRom.CsConfig

inductive ChipSetType
  | single
  | banked
  | multi
  deriving DecidableEq, Repr

/-- A chip of a set, its image read and sized. -/
structure Chip where
  chipType : ChipType
  csConfig : CsConfig
  data : Option (List UInt8)

/-- The GPIOs the address PIO reads, and those of the address and X lines among them. -/
structure AddrLayout where
  gpioBase : ℕ
  numAddrPins : ℕ
  x1Gpio : Option ℕ
  x2Gpio : Option ℕ
  addrPinGpios : List ℕ
  /-- The top address lines, where the ROM table has no room for them. -/
  excessAddrPinGpios : List ℕ
  deriving DecidableEq, Repr

/-- The part a line plays in selecting a chip. -/
inductive SelectRole
  | cs1 | cs2 | cs3 | cs4 | ce | oe
  /-- The select of the second and of the third chip of a Multi set. -/
  | x1 | x2
  /-- A top address line selecting a half. -/
  | halfSelect
  deriving DecidableEq, Repr

structure SelectLine where
  role : SelectRole
  gpio : ℕ
  deriving DecidableEq, Repr

/-- Address lines that, all high, deselect the chip. -/
structure AlgCs2Config where
  baseQualifierPin : ℕ
  numQualifierPins : ℕ
  qualifierInactivePattern : ℕ
  deriving DecidableEq, Repr

/-- The GPIOs of the data and select lines, which the CS and data PIO handles. -/
structure CsDataLayout where
  gpioBase : ℕ
  baseDataPin : ℕ
  numDataPins : ℕ
  dataPinGpios : List ℕ
  baseCsPin : ℕ
  numCsPins : ℕ
  /-- The place of the one gap among the select lines. -/
  csIgnoreIndex : Option ℕ
  selectLines : List SelectLine
  /-- The lines a Multi set's chips share. -/
  commonedLines : List SelectLine
  algCs2 : Option AlgCs2Config
  deriving DecidableEq, Repr

inductive BitModes
  | bitMode8
  | bitMode16
  deriving DecidableEq, Repr

structure OneromAlgDmaConfig where
  bitMode : BitModes
  continuous : ℕ
  deriving DecidableEq, Repr

def BitModes.bytesPerWord : BitModes → ℕ
  | .bitMode8 => 1
  | .bitMode16 => 2

/-- Bytes per ROM table entry. -/
def bytesPerWord (algDma : OneromAlgDmaConfig) : ℕ := algDma.bitMode.bytesPerWord

/-- Entries of the ROM table. -/
def tableEntries (layout : AddrLayout) : ℕ := 2 ^ layout.numAddrPins

/-- The size of the ROM table in bytes. -/
def romTableSize (layout : AddrLayout) (algDma : OneromAlgDmaConfig) : ℕ :=
  tableEntries layout * bytesPerWord algDma

end OneRom.SlotLayout
