import OneRom.ChipTypes
import OneRom.Hw

/-!
The pins a board's configuration lists for firmware before 0.7.0, which numbers them itself instead
of going by the socket: the GPIOs of the address lines, of the data lines and of the control lines of
each chip type, and what the build of the configuration makes of them.
-/

namespace OneRom.V1Boards

open OneRom.ChipTypes OneRom.Hw

/-- The most address pins a board has. -/
def MAX_ADDR_PINS : ℕ := 19

/-- A pin, or a bit, that isn't there. -/
def UNUSED : ℕ := 255

structure V1Board where
  hw : Board
  /-- The address lines' GPIOs, A0 first. -/
  addrPins : List ℕ
  /-- The data lines' GPIOs, D0 first. -/
  dataPins : List ℕ
  cs1 : List (ChipType × ℕ) := []
  cs2 : List (ChipType × ℕ) := []
  cs3 : List (ChipType × ℕ) := []
  ce : List (ChipType × ℕ) := []
  oe : List (ChipType × ℕ) := []
  x1 : Option ℕ := none
  x2 : Option ℕ := none
  /-- An RP2350's B variant, which has a family of its own in the configuration. -/
  rp2350B : Bool := false
  /-- Chip types of another package that the board supports. -/
  extraTypes : List ChipType := []

namespace V1Board

variable (board : V1Board)

def name : String := board.hw.name
def chipPins : ℕ := board.hw.chipPins

/-- Ice boards serve with the CPU, Fire boards with a PIO. -/
def cpu : Bool := board.hw.model = .ice

/-- The lowest GPIO of an address line. On a 24 pin board the select lines count as well. -/
def minAddrPin : ℕ :=
  let selects := board.x1.toList ++ board.x2.toList ++ (board.cs1.lookup .chip2364).toList
  (board.addrPins ++ if board.chipPins = 24 then selects else []).foldl min 255

/-- The GPIO that is bit 0 of a physical address. -/
def addrShift : ℕ := if board.cpu then if 8 ≤ board.minAddrPin then 8 else 0 else board.minAddrPin

/-- The address line of each bit of a physical address. -/
def physPinToAddrMap : List (Option ℕ) :=
  board.addrPins.zipIdx.foldl (fun map (pin, line) => map.set (pin - board.addrShift) (some line))
    (List.replicate MAX_ADDR_PINS none)

/-- With the data lines on the lowest GPIOs, the address lines are 8 up. -/
def dataLow : Bool := board.dataPins.headD 0 < 8

/-- The bit of a control line's GPIO. -/
def bitOf (pins : List (ChipType × ℕ)) (t : ChipType) : ℕ :=
  let fire28c := board.name = "fire-28-c"
  let shiftLeft8 := ((board.cpu = false ∧ board.rp2350B = false) ∨ fire28c) ∧ board.dataLow
  match pins.lookup t with
  | none => UNUSED
  | some pin =>
    if shiftLeft8 ∧ 8 ≤ pin then
      -- There are two X pins at 8 and 9.
      if fire28c then pin - 10 else pin - 8
    else pin

def bitCs1 : ChipType → ℕ := board.bitOf board.cs1
def bitCs2 : ChipType → ℕ := board.bitOf board.cs2
def bitCs3 : ChipType → ℕ := board.bitOf board.cs3
def bitCe : ChipType → ℕ := board.bitOf board.ce
def bitOe : ChipType → ℕ := board.bitOf board.oe

/-- The bit of an X pin. -/
def bitX (pin : Option ℕ) : ℕ :=
  match pin with
  | none => UNUSED
  | some pin =>
    if (board.cpu = false ∧ board.rp2350B = false ∧ board.dataLow) ∧ 8 ≤ pin then pin - 8 else pin

def bitX1 : ℕ := board.bitX board.x1
def bitX2 : ℕ := board.bitX board.x2

/-- The bit that selects a set's chip. -/
def csBitForChipInSet (t : ChipType) : ℕ → ℕ
  | 0 => board.bitCs1 t
  | 1 => board.bitX1
  | 2 => board.bitX2
  | _ => UNUSED

/-- A chip type that is supported at all, and that is of the board's package or one of its extra
types. -/
def allowsChipType (supported : ChipType → Bool) (t : ChipType) : Bool :=
  t.isPlugin || (supported t && t.chipPins == board.chipPins) || board.extraTypes.contains t

end V1Board

/-! ### The boards -/

/-- The pin of each of some chip types. -/
def each (types : List ChipType) (pin : ℕ) : List (ChipType × ℕ) := types.map fun t => (t, pin)

def types23 : List ChipType := [.chip2364, .chip2332, .chip2316]
def types27 : List ChipType := [.chip2704, .chip2708, .chip2716, .chip2732]
def types28 : List ChipType := [.chip2764, .chip27128, .chip27256, .chip27512]
def types32 : List ChipType := [.chip27C010, .chip27C020, .chip27C040, .chip27C080]

/-- The chips of 24 pins that a 28 pin board supports. -/
def extra28 : List ChipType := [.chip2364, .chip2732, .chip2716, .chip2708, .chip2704]

def fire24a : V1Board where
  hw := fire24A
  addrPins := [7, 6, 5, 4, 3, 2, 1, 0, 10, 11, 14, 15, 12]
  dataPins := [16, 17, 18, 19, 20, 21, 22, 23]
  cs1 := each types23 13
  cs2 := [(.chip2332, 12), (.chip2316, 15)]
  cs3 := [(.chip2316, 12)]
  ce := each types27 15
  oe := each types27 13
  x1 := some 9
  x2 := some 8

def fire24c : V1Board where
  hw := fire24C
  addrPins := [21, 23, 22, 19, 20, 18, 17, 16, 15, 14, 13, 11, 12]
  dataPins := [7, 6, 5, 2, 0, 1, 3, 4]
  cs1 := each types23 10
  cs2 := [(.chip2332, 12), (.chip2316, 11)]
  cs3 := [(.chip2316, 12)]
  ce := each types27 11
  oe := each types27 10
  x1 := some 9
  x2 := some 8

def fire24d : V1Board := { fire24c with hw := fire24D }

def fire24e : V1Board :=
  { fire24c with
    hw := fire24E
    addrPins := [23, 22, 21, 20, 19, 18, 17, 16, 15, 14, 13, 11, 12]
    dataPins := [7, 6, 5, 0, 1, 2, 3, 4] }

def fire24eadb01 : V1Board :=
  { fire24e with
    hw := fire24Eadb01
    addrPins := [23, 22, 21, 20, 19, 18, 17, 16, 8, 9, 13, 11, 12]
    x1 := some 15
    x2 := some 14 }

def fire24f : V1Board := { fire24e with hw := fire24F }
def fire24g : V1Board := { fire24e with hw := fire24G }

def fire24usbB : V1Board where
  hw := fire24UsbB
  addrPins := [21, 23, 22, 19, 20, 18, 17, 16, 13, 12, 9, 8, 11]
  dataPins := [7, 6, 5, 0, 1, 2, 3, 4]
  cs1 := each types23 10
  cs2 := [(.chip2332, 11), (.chip2316, 8)]
  cs3 := [(.chip2316, 11)]
  ce := each types27 8
  oe := each types27 10
  x1 := some 14
  x2 := some 15

def fire28a : V1Board where
  hw := fire28A
  -- GPIO 8 is `/OE`, which is A16 for a 231024. 9 is there to keep the lines contiguous.
  addrPins := [25, 24, 23, 22, 21, 19, 20, 18, 14, 12, 11, 13, 17, 15, 10, 16, 8, 9]
  dataPins := [7, 6, 5, 0, 1, 2, 3, 4]
  cs1 := each [.chip23128, .chip23256, .chip23512, .chip231024] 9
  cs2 := each [.chip23128, .chip23256, .chip23512] 8
  cs3 := [(.chip23128, 10)]
  ce := each types28 9
  oe := each types28 8
  extraTypes := extra28

def fire28b : V1Board := { fire28a with hw := fire28B }

def fire28c : V1Board where
  hw := fire28C
  addrPins := [27, 26, 25, 24, 23, 22, 21, 20, 16, 15, 13, 14, 19, 17, 12, 18, 11, 10]
  dataPins := [0, 1, 2, 3, 4, 5, 6, 7]
  cs1 := each [.chip23128, .chip23256, .chip23512, .chip231024] 10
  cs2 := each [.chip23128, .chip23256, .chip23512] 11
  cs3 := [(.chip23128, 12)]
  ce := each types28 10
  oe := each types28 11
  x1 := some 9
  x2 := some 8
  rp2350B := true
  extraTypes := extra28

def fire28d : V1Board := { fire28c with hw := fire28D }

def fire32a : V1Board where
  hw := fire32A
  addrPins := [34, 33, 32, 31, 30, 29, 28, 27, 20, 19, 17, 18, 26, 21, 22, 25, 16, 23, 24]
  dataPins := [0, 1, 2, 3, 4, 5, 6, 7]
  cs1 := [(.chip27C080, 13)]
  ce := (.chip27C301, 15) :: each types32 15
  oe := (.chip27C301, 16) :: each types32 14
  rp2350B := true

def fire32b : V1Board where
  hw := fire32B
  addrPins := [34, 33, 32, 31, 30, 29, 28, 27, 23, 22, 20, 21, 26, 24, 25, 19, 18, 17, 16]
  dataPins := [0, 1, 2, 3, 4, 5, 6, 7]
  cs1 := [(.chip27C080, 13), (.chip23C1001, 10)]
  cs2 := [(.chip23C1001, 11)]
  ce := (.chip27C301, 14) :: each types32 14
  oe := (.chip27C301, 12) :: each types32 15
  rp2350B := true

def fire32c : V1Board := { fire32b with hw := fire32C }

def fire40a : V1Board where
  hw := fire40A
  addrPins := [18, 36, 35, 34, 33, 32, 31, 30, 29, 27, 26, 25, 24, 23, 22, 21, 20, 19, 28]
  dataPins := [0, 1, 2, 3, 4, 5, 6, 7, 8, 9, 10, 11, 12, 13, 14, 15]
  ce := [(.chip27C400, 17)]
  oe := [(.chip27C400, 16)]
  rp2350B := true

def fire40b : V1Board :=
  { fire40a with
    hw := fire40B
    addrPins := [18, 35, 34, 33, 32, 31, 30, 29, 28, 27, 26, 25, 24, 23, 22, 21, 20, 19, 36] }

def fire40c : V1Board := { fire40b with hw := fire40C }

def ice24d : V1Board where
  hw := ice24D
  addrPins := [5, 4, 6, 7, 3, 2, 1, 0, 8, 13, 11, 12, 9]
  dataPins := [7, 6, 5, 4, 3, 2, 1, 0]
  cs1 := each types23 10
  cs2 := [(.chip2332, 9), (.chip2316, 12)]
  cs3 := [(.chip2316, 9)]
  ce := each types27 12
  oe := each types27 10

def ice24e : V1Board := { ice24d with hw := ice24E }
def ice24f : V1Board := { ice24d with hw := ice24F, x1 := some 14, x2 := some 15 }
def ice24g : V1Board := { ice24f with hw := ice24G }
def ice24i : V1Board := { ice24f with hw := ice24I }
def ice24j : V1Board := { ice24f with hw := ice24J }
def ice24usbH : V1Board := { ice24f with hw := ice24UsbH }

def ice28a : V1Board where
  hw := ice28A
  addrPins := [5, 4, 6, 7, 3, 2, 1, 0, 9, 10, 12, 11, 8, 13]
  dataPins := [7, 6, 5, 4, 3, 2, 1, 0]
  ce := [(.chip27128, 15)]
  oe := [(.chip27128, 14)]

def boards : List V1Board :=
  [fire24a, fire24c, fire24d, fire24e, fire24eadb01, fire24f, fire24g, fire24usbB, fire28a, fire28b,
    fire28c, fire28d, fire32a, fire32b, fire32c, fire40a, fire40b, fire40c, ice24d, ice24e, ice24f,
    ice24g, ice24i, ice24j, ice24usbH, ice28a]

/-! ### Where a chip's address lines are -/

namespace V1Board

/-- The chip whose address lines are the board's, in order. -/
def referenceChip (chipPins : ℕ) : ChipType :=
  if chipPins = 24 then .chip2364 else if chipPins = 28 then .chip231024
  else if chipPins = 32 then .chip27C040 else .chip27C400

variable (board : V1Board)

/-- The GPIOs a pin of the socket is bonded to: that of the board's address line there, or else those
of the socket's pin. -/
def gpiosOf (pin : ℕ) : List ℕ :=
  match (referenceChip board.chipPins).addressPins.idxOf? pin with
  | some line => board.addrPins[line]?.toList
  | none => board.hw.gpiosForSocketPin pin

/-- The GPIOs of a chip's address line. A chip of fewer pins than the socket is at its end. -/
def lineGpios (t : ChipType) (line : ℕ) : List ℕ :=
  (t.addressPins[line]?.map fun pin => board.gpiosOf (pin + (board.chipPins - t.chipPins) / 2)).getD []

/-- The board's address pins are the socket's pins. A-1 of a chip of 40 pins, which says which byte
of a word is meant, has the first for itself. -/
lemma addrPins_socket : ∀ board ∈ boards, board.hw.socketPinMap ≠ [] →
    ∀ line < board.addrPins.length, ∀ pin ∈ (referenceChip board.chipPins).addressPins[line]?,
      (board.chipPins = 40 ∧ line = 0) ∨
        ∀ gpio ∈ board.addrPins[line]?, gpio ∈ board.hw.gpiosForSocketPin pin := by
  decide +kernel

end V1Board

end OneRom.V1Boards
