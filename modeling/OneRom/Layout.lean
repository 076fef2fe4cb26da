import OneRom.Bonds
import OneRom.Hw
import OneRom.MultiCs

/-!
What the layouts of a slot are derived from: its board, its set and where the pins of its first
chip are in the socket.
-/

namespace OneRom.Layout

open OneRom.Hw OneRom.ChipTypes OneRom.CsConfig OneRom.SlotLayout OneRom.MultiCs

inductive LayoutError
  | unmappedPin (board : Board) (chipType : ChipType) (physPin : ℕ)
  | missingXPin (board : Board) (xPin : ℕ)
  | noValidLayout (board : Board)
  | noSelectLine (board : Board) (chipType : ChipType)
  | nonContiguousSelect (board : Board) (chipType : ChipType) (gpios : List ℕ)
  | missingAddrPinGpios (board : Board) (chipType : ChipType)
  | romTooLargeNoCsConfig (board : Board) (chipType : ChipType)
  | romTableTooLarge (board : Board) (chipType : ChipType) (setType : ChipSetType)
      (numChips numAddrPins tableSize : ℕ)
  | incompatiblePinCount (board : Board) (chipType : ChipType)
  | interiorIgnoredLine (board : Board) (chipType : ChipType) (gpio : ℕ)
  /-- A value that is expected isn't there. -/
  | panic

/-- A chip's place in a socket: what its pins' numbers there differ by. -/
def socketPinOffset (chipPins boardPins : ℕ) : Option ℤ :=
  match chipPins, boardPins with
  | 24, 24 | 28, 28 | 32, 32 | 40, 40 => some 0
  | 24, 28 | 28, 32 => some 2
  | 24, 32 => some 4
  | 28, 24 | 32, 28 => some (-2)
  | 32, 24 => some (-4)
  | _, _ => none

/-- The GPIOs from `gpioBase` on are within reach of one PIO. -/
def fitsPioWindow (gpioBase span : ℕ) : Bool :=
  [0, 16].any fun pioBase => pioBase ≤ gpioBase && gpioBase + span ≤ pioBase + 32

lemma lt_of_fitsPioWindow {base span : ℕ} (h : fitsPioWindow base span) : base + span ≤ 48 := by
  simp only [fitsPioWindow, List.any_cons, List.any_nil, Bool.or_false, Bool.or_eq_true,
    Bool.and_eq_true, decide_eq_true_eq] at h
  omega

/-- Words of 16 bits take a chip that has them, and a `/BYTE` pin where it has words of 8 bits
too. -/
def bitModeFor (chipType : ChipType) (board : Board) : BitModes :=
  let wordOnly := ¬chipType.supportsBitMode 8
  if chipType.supportsBitMode 16 ∧ (wordOnly ∨ board.pinByte ≠ GPIO_NONE) then .bitMode16
  else .bitMode8

structure SlotContext where
  board : Board
  setType : ChipSetType
  chipTypes : List ChipType
  /-- A slot has a chip. -/
  chipTypes_ne : chipTypes ≠ []
  csConfig : CsConfig
  bitMode : BitModes
  pinOffset : ℤ
  force16Bit : Bool
  multiCsConfig : Option MultiChipCsConfig

namespace SlotContext

variable (ctx : SlotContext)

/-- The chip whose lines the slot has. -/
def chip0 : ChipType := ctx.chipTypes.head ctx.chipTypes_ne

/-- A chip pin's place in the socket, unless it overhangs. -/
def socketPin (pin : ℕ) : Option ℕ :=
  let socketPin := (pin : ℤ) + ctx.pinOffset
  if socketPin < 1 ∨ (ctx.board.chipPins : ℤ) < socketPin then none else some socketPin.toNat

/-- Different pins are in different places. -/
lemma socketPin_inj {pin pin' n : ℕ} (h : ctx.socketPin pin = some n)
    (h' : ctx.socketPin pin' = some n) : pin = pin' := by
  unfold socketPin at h h'
  dsimp only at h h'
  split_ifs at h h'
  simp only [Option.some.injEq] at h h'
  omega

/-- The first address line the address PIO reads: with words of 16 bits `A-1` isn't one. -/
def addrLineStart : ℕ := if ctx.bitMode = .bitMode16 then 1 else 0

/-- The pins of the address lines. -/
def addressLines : List ℕ := ctx.chip0.addressPins.drop ctx.addrLineStart

/-- How many of the address lines the ROM table is indexed by. -/
def numInRange : ℕ :=
  min ctx.addressLines.length (Nat.log2 (MAX_IMAGE_SIZE / ctx.bitMode.bytesPerWord))

end SlotContext

end OneRom.Layout
