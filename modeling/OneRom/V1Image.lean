import OneRom.RomImage
import OneRom.SelectJumpers
import OneRom.V1Boards

/-!
The ROM images for firmware before 0.7.0. An image is indexed by a physical address, the levels of a
run of GPIOs. Each byte of it is found by taking the address lines out of the physical address, and
its bits are moved to where the data lines are.

`none` is a panic. Arithmetic is checked, so that a shift by a whole word is one as well.
-/

namespace OneRom.V1Image

open OneRom.ChipTypes OneRom.CsConfig OneRom.SlotLayout OneRom.SelectJumpers OneRom.V1Boards
open OneRom.RomImage (PAD_NO_CHIP_BYTE isPowerOfTwo)

def PAD_RAM_BYTE : UInt8 := 0x55

/-- Both plugin regions have this size. -/
def SYSTEM_PLUGIN_SIZE : ℕ := 65536

/-- From here on 28 pin Fire boards report 18 address pins. -/
def MIN_FW_VER_FIRE_28_18_ADDR_PINS : FirmwareVersion := ⟨0, 6, 3⟩

/-- The address line of each bit of a physical address. -/
abbrev AddrMap : Type := List (Option ℕ)

variable (board : V1Board) (map : AddrMap)

/-! ### Address lines that aren't where the board has them -/

def position (line : ℕ) : Option ℕ := map.idxOf? (some line)

def setBit (i : ℕ) (line : Option ℕ) : Option AddrMap :=
  if i < map.length then some (map.set i line) else none

def swap (i j : ℕ) : Option AddrMap :=
  if i < map.length ∧ j < map.length then
    some ((map.set i (map[j]?.join)).set j (map[i]?.join))
  else none

/-- Two address lines trade places. -/
def swapLines (a b : ℕ) : Option AddrMap := do
  let ia ← position map a
  let ib ← position map b
  let map ← setBit map ia (some b)
  setBit map ib (some a)

/-- The boards with `/CE` where a 231024 has A16. -/
def ceFirst : Bool := board.name = "fire-28-a" ∨ board.name = "fire-28-b"

/-- A16 and the chip's select are transposed, CS1 is A11, and A11 is A12. -/
def map2364In28 : Option AddrMap := do
  let csPin := if ceFirst board then board.bitCe .chip2764 else board.bitOe .chip2764
  let map ← swap map (← position map 16) csPin
  let cs1Pin := board.bitCs1 .chip231024
  let i11 ← position map 11
  let i12 ← position map 12
  let oldCs1 := map[cs1Pin]?
  let map ← setBit map cs1Pin (some 11)
  let map ← setBit map i11 (some 12)
  setBit map i12 (← oldCs1)

/-- The first two lines of a 28 pin board are select lines but for a 231024. -/
def map28 (t : ChipType) : Option AddrMap :=
  let map := map.drop 2 ++ [none, none]
  if t = .chip28C256 then swapLines map 14 15 else some map

/-- A16 has another pin. -/
def map27C301 : Option AddrMap := do
  let a16 ← position map 16
  if board.name = "fire-32-a" then
    if a16 = 0 then some (map.drop 1 ++ [some 16]) else none
  else if board.name = "fire-32-b" then
    if a16 = 2 then some ((map.drop 2 ++ [none, some 16]).set 0 none) else none
  else none

/-- A15 is a 27512's `/CE`, and CS1 its `/OE`. -/
def map23QL : Option AddrMap := do
  let oePin := board.bitOe .chip27512
  let cePin := board.bitCe .chip27512
  let i15 ← position map 15
  let map ← setBit map cePin (some 15)
  let map ← setBit map oePin none
  let map ← setBit map i15 none
  if ceFirst board then some (map.drop 1 ++ [none]) else some map

/-- A18 comes after the last address pin. -/
def mapSst39sf040 : Option AddrMap :=
  if board.name = "fire-32-b" then some (map.drop 1 ++ [some 18]) else none

def handleSnowflakeChipTypes (t : ChipType) : Option AddrMap :=
  if board.chipPins = 24 ∧ t = .chip2732 then swapLines map 11 12
  else if board.chipPins = 28 ∧ t = .chip2364 then map2364In28 board map
  else if board.chipPins = 28 ∧ t ≠ .chip231024 ∧ t ≠ .chip2364 ∧ t ≠ .chip23QL512 ∧
      t ≠ .chip23QL384 then map28 map t
  else if t = .chip27C301 then map27C301 board map
  else if t = .chip23QL512 ∨ t = .chip23QL384 then map23QL board map
  else if t = .chipSST39SF040 then mapSst39sf040 board map
  else some map

/-- Clears the lines beyond the chip's. -/
def truncatePhysPinToAddrMap (numAddrLines : ℕ) : AddrMap :=
  map.map (·.filter (· < numAddrLines))

/-- The map of a chip on a board. -/
def chipMap (t : ChipType) : Option AddrMap :=
  (handleSnowflakeChipTypes board board.physPinToAddrMap t).map
    (truncatePhysPinToAddrMap · t.numAddrLines)

/-! ### A byte -/

/-- Takes over a bit of a physical address, where it is one of the chip's address lines. -/
def takeLine (address numAddrLines result : ℕ) (entry : Option ℕ × ℕ) : ℕ :=
  match entry.1 with
  | some addrBit =>
    if addrBit < numAddrLines ∧ address.testBit entry.2 then result ||| 1 <<< addrBit else result
  | none => result

/-- The address that the address lines of a physical address are. -/
def addressToLogical (address numAddrLines : ℕ) : ℕ :=
  map.zipIdx.foldl (takeLine address numAddrLines) 0

/-- The bit of a data line's GPIO: fire-24-a has them 16 up. -/
def dataBit (pin : ℕ) : Option ℕ :=
  if 15 < pin then if pin < 24 then some (pin - 16) else none
  else if pin < 8 then some pin else none

/-- Moves a byte's bits to where the data lines are. -/
def byteMangled (byte : UInt8) : Option UInt8 := do
  let result ← (List.range 8).foldlM (fun result bitPos => do
    if byte.toNat.testBit bitPos then
      let newPos ← board.dataPins[bitPos]?.bind dataBit
      return result ||| 1 <<< newPos
    else return result) 0
  return UInt8.ofNat result

def getByteRaw (chip : Chip) (address : ℕ) : Option UInt8 := chip.data.bind (·[address]?)

def chipByte (chip : Chip) (address : ℕ) : Option UInt8 := do
  let data ← chip.data
  let byte ← data[addressToLogical map address chip.chipType.numAddrLines]?
  byteMangled board byte

/-! ### Sets -/

structure ChipSet where
  setType : ChipSetType
  chips : List Chip
  ne : chips ≠ []

namespace ChipSet

variable (set : ChipSet)

def chip0 : Chip := set.chips.head set.ne

def hasData : Bool := set.chip0.data.isSome

def chipFunction : ChipFunction := set.chip0.chipType.chipFunction

/-- The size of an image of one chip. -/
def singleSize (version : FirmwareVersion) (t : ChipType) : Option ℕ :=
  let numAddrPins := board.addrPins.length
  match board.chipPins, board.hw.model with
  | 24, .ice => if numAddrPins = 13 then some (2 ^ 14) else none
  | 28, .ice => if numAddrPins = 14 then some (2 ^ 16) else none
  | 24, .fire => if numAddrPins = 13 then some (2 ^ 16) else none
  | 28, .fire =>
    if version.Before MIN_FW_VER_FIRE_28_18_ADDR_PINS then some (2 ^ 16)
    else if numAddrPins = 18 then
      match t with
      | .chip2364 | .chip231024 => some (2 ^ 18)
      | .chip23QL384 | .chip23QL512 => some (if ceFirst board then 2 ^ 17 else 2 ^ 18)
      | _ => some (2 ^ 16)
    else none
  | 32, .fire => if numAddrPins = 19 then some (2 ^ 19) else none
  | 40, .fire => if numAddrPins = 19 then some (2 ^ 19) else none
  | _, _ => none

def imageSize (version : FirmwareVersion) : Option ℕ :=
  if set.setType = .multi ∨ set.setType = .banked then
    if board.chipPins = 24 then some (2 ^ 16) else none
  else if set.chips.length ≠ 1 then none
  else if set.chip0.chipType.isPlugin then some SYSTEM_PLUGIN_SIZE
  else singleSize board version set.chip0.chipType

/-! ### A single chip, or a bank of them -/

/-- A chip's byte, or the pad byte beyond a chip whose size is no power of two. -/
def chipByteOrPad (chip : Chip) (address : ℕ) : Option UInt8 := do
  let map ← chipMap board chip.chipType
  if chip.chipType.sizeBytes ≤ addressToLogical map address chip.chipType.numAddrLines then
    if isPowerOfTwo chip.chipType.sizeBytes then none else byteMangled board PAD_NO_CHIP_BYTE
  else chipByte board map chip address

/-- `!n` of a word of so many bits. -/
def wordNot (bits n : ℕ) : ℕ := 2 ^ bits - 1 - n

/-- The bank that X1 and X2 are. The second `!` is of the whole word. -/
def bank (bits x1Pin x2Pin xJumperPull address : ℕ) : ℕ :=
  if xJumperPull = 1 then (address >>> x1Pin &&& 1) ||| (address >>> x2Pin &&& 1) <<< 1
  else (wordNot bits (address >>> x1Pin) &&& 1) |||
    (wordNot bits (address >>> x2Pin &&& 1) <<< 1) % 2 ^ bits

def bankedByte (bits address : ℕ) : Option UInt8 :=
  let x1Pin := board.bitX1
  let x2Pin := board.bitX2
  if 65536 ≤ address ∨ bits ≤ x1Pin ∨ bits ≤ x2Pin then none
  else
    let mask := wordNot bits (1 <<< x1Pin) &&& wordNot bits (1 <<< x2Pin)
    match set.chips[bank bits x1Pin x2Pin board.hw.xJumperPull address % set.chips.length]? with
    | none => none
    | some chip => chipByteOrPad board chip (address &&& mask)

/-! ### Several chips -/

/-- Whether a select line is active at a physical address. With `invert_cs1_x` its sense is flipped,
as the hardware does where several chips are selected. -/
def pinActive (bits : ℕ) (activeHigh invertCs1X : Bool) (address pin : ℕ) : Option Bool :=
  if bits ≤ pin then none else some ((address.testBit pin == activeHigh) != invertCs1X)

/-- A further select line. An active high one is taken to be inactive when it is high. -/
def csAllows (bits address pin : ℕ) (cs : Option CsLogic) : Option Bool :=
  match cs with
  | none | some .ignore => some true
  | some .activeLow | some .activeHigh =>
    if bits ≤ pin then none else some (!address.testBit pin)

def checkChipCsRequirements (bits : ℕ) (chip : Chip) (address : ℕ) : Option Bool :=
  match chip.csConfig with
  | .ceOe | .ceOeExplicit _ _ => some true
  | .chipSelect _ cs2 cs3 _ => do
    let cs2 ← csAllows bits address (board.bitCs2 chip.chipType) cs2
    if cs2 then csAllows bits address (board.bitCs3 chip.chipType) cs3 else some false

/-- Whether a chip is selected, and no other select line is active. -/
def selected (bits : ℕ) (invertCs1X : Bool) (address : ℕ) (chip : Chip) (index : ℕ) :
    Option Bool := do
  let activeHigh := (← chip.csConfig.cs1Logic) = .activeHigh
  let csPin := board.csBitForChipInSet chip.chipType index
  if 15 < csPin then none
  else
    let active ← pinActive bits activeHigh invertCs1X address csPin
    if active then
      let actives ← [board.bitCs1 chip.chipType, board.bitX1, board.bitX2].mapM
        (pinActive bits activeHigh invertCs1X address)
      if actives.count true = 1 then checkChipCsRequirements board bits chip address
      else some false
    else some false

/-- The first chip that is selected, of those from `index` on. -/
def multiByte (bits : ℕ) (invertCs1X : Bool) (address : ℕ) : ℕ → List Chip → Option UInt8
  | _, [] => byteMangled board PAD_NO_CHIP_BYTE
  | index, chip :: chips =>
    match chipMap board chip.chipType, selected board bits invertCs1X address chip index with
    | some map, some true => chipByte board map chip address
    | some _, some false => multiByte bits invertCs1X address (index + 1) chips
    | _, _ => none

/-! ### A byte of the image -/

def getByte (bits address : ℕ) (version : FirmwareVersion) (invertCs1X : Bool) : Option UInt8 :=
  if set.hasData = false ∧ set.chipFunction = .ram then byteMangled board PAD_RAM_BYTE
  else if set.chipFunction = .plugin then getByteRaw set.chip0 address
  else
    match set.imageSize board version with
    | none => none
    | some size =>
      if size ≤ address then none
      else if set.setType = .banked then set.bankedByte board bits address
      else if set.chips.length = 1 then chipByteOrPad board set.chip0 address
      else if 65536 ≤ address then none
      else multiByte board bits invertCs1X address 0 set.chips

end ChipSet

end OneRom.V1Image
