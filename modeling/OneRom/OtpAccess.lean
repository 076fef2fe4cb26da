import OneRom.Fallible
import OneRom.Hw
import OneRom.OtpStore

/-!
Access to an RP2350's OTP and the readers built on it.

A row holds 24 bits, here in a word of 32. The host reads and writes rows one access at a time;
which accesses fail, what a write leaves in its row and what an ECC read makes of a raw value are
the chip's and the transport's, so they are a `Host`.
-/

namespace OneRom.OtpAccess

open OneRom.OtpEntry OneRom.OtpStore OneRom.Hw OneRom.Fallible

/-! ### Board sizes -/

inductive BoardSize
  | m
  | l
  deriving DecidableEq, Repr

/-- The size OTP configures. -/
inductive OneromBoardSize
  | unknown
  | m
  | l
  | other
  deriving DecidableEq, Repr

/-- The size of a flash chip, by `FLASH_DEVINFO`'s code. -/
inductive OneromFlashSize
  | none
  | size8kb
  | size16kb
  | size32kb
  | size64kb
  | size128kb
  | size256kb
  | size512kb
  | size1mb
  | size2mb
  | size4mb
  | size8mb
  | size16mb
  deriving DecidableEq, Repr

def OneromFlashSize.sizes : List OneromFlashSize :=
  [.none, .size8kb, .size16kb, .size32kb, .size64kb, .size128kb, .size256kb, .size512kb, .size1mb,
    .size2mb, .size4mb, .size8mb, .size16mb]

def OneromFlashSize.code : OneromFlashSize → ℕ
  | .none => 0
  | .size8kb => 1
  | .size16kb => 2
  | .size32kb => 3
  | .size64kb => 4
  | .size128kb => 5
  | .size256kb => 6
  | .size512kb => 7
  | .size1mb => 8
  | .size2mb => 9
  | .size4mb => 10
  | .size8mb => 11
  | .size16mb => 12

def OneromFlashSize.ofCode (code : ℕ) : Option OneromFlashSize :=
  OneromFlashSize.sizes.find? (·.code == code)

def OTP_BOOT_FLAGS0_ROW : ℕ := 0x048
def OTP_BOOT_FLAGS0_R1_ROW : ℕ := 0x049
def OTP_BOOT_FLAGS0_R2_ROW : ℕ := 0x04a
def OTP_BOOT_FLAGS0_FLASH_DEVINFO_ENABLE : UInt32 := 0x20
def OTP_FLASH_DEVINFO_ROW : ℕ := 0x054
def OTP_FLASH_DEVINFO_CS0_SIZE_SHIFT : UInt16 := 8
def OTP_FLASH_DEVINFO_CS1_SIZE_SHIFT : UInt16 := 12
def OTP_FLASH_DEVINFO_SIZE_BITS : UInt16 := 0xf
def OTP_FLASH_DEVINFO_SIZE_UNIT : ℕ := 4096
def OTP_FLASH_DEVINFO_D8H_ERASE_SUPPORTED : UInt16 := 0x80
def OTP_FLASH_PARTITION_SLOT_SIZE_ROW : ℕ := 0x055
def OTP_USB_WHITE_LABEL_ROW : ℕ := 0xec0
def TOTAL_FLASH_SIZE_M : ℕ := 0x200000
def TOTAL_FLASH_SIZE_L : ℕ := 0x400000

/-- Each bit's majority across three copies of a row. -/
def majority (copies : Vector UInt32 3) : UInt32 :=
  (copies[0] &&& copies[1]) ||| (copies[0] &&& copies[2]) ||| (copies[1] &&& copies[2])

/-- The flash chip on each chip select. -/
structure FlashLayout where
  cs0 : OneromFlashSize
  cs1 : OneromFlashSize
  deriving DecidableEq, Repr

/-- The flash layout the tools make for each board size. -/
def FLASH_LAYOUTS : List (BoardSize × FlashLayout) :=
  [(.m, ⟨.size2mb, .none⟩), (.l, ⟨.size2mb, .size2mb⟩)]

/-- The layout the tools make for a `size` board. -/
def FlashLayout.of (size : BoardSize) : FlashLayout :=
  ((FLASH_LAYOUTS.find? (·.1 == size)).get (by cases size <;> rfl)).2

/-- The bytes of flash in a chip of `size`. -/
def flashSizeBytes (size : OneromFlashSize) : ℕ :=
  if size = .none then 0 else OTP_FLASH_DEVINFO_SIZE_UNIT * 2 ^ size.code

/-- The size of a board with this layout, from its total flash. -/
def FlashLayout.boardSize (layout : FlashLayout) : Option BoardSize :=
  let total := flashSizeBytes layout.cs0 + flashSizeBytes layout.cs1
  if total = TOTAL_FLASH_SIZE_M then some .m
  else if total = TOTAL_FLASH_SIZE_L then some .l
  else none

/-- The chip in `FLASH_DEVINFO`'s size field at `shift`. -/
def devinfoFlashSize (flashDevinfo shift : UInt16) : OneromFlashSize :=
  let code := (flashDevinfo >>> shift) &&& OTP_FLASH_DEVINFO_SIZE_BITS
  (OneromFlashSize.ofCode code.toNat).getD .none

/-- The board size OTP configures, from `BOOT_FLAGS0` and its copies and `FLASH_DEVINFO`. -/
def boardSize (bootFlags0 : Vector UInt32 3) (flashDevinfo : UInt16) : OneromBoardSize :=
  if majority bootFlags0 &&& OTP_BOOT_FLAGS0_FLASH_DEVINFO_ENABLE = 0 then .m
  else
    let layout : FlashLayout :=
      ⟨devinfoFlashSize flashDevinfo OTP_FLASH_DEVINFO_CS0_SIZE_SHIFT,
        devinfoFlashSize flashDevinfo OTP_FLASH_DEVINFO_CS1_SIZE_SHIFT⟩
    match layout.boardSize with
    | some .m => .m
    | some .l => .l
    | none => .other

/-- `FLASH_DEVINFO` for a board of `size` with chip select 1 on GPIO `cs1Gpio`. -/
def flashDevinfo (size : BoardSize) (cs1Gpio : UInt8) : Option UInt16 :=
  let layout := FlashLayout.of size
  if layout.cs1 = .none then none
  else some ((UInt16.ofNat layout.cs1.code <<< OTP_FLASH_DEVINFO_CS1_SIZE_SHIFT)
    ||| (UInt16.ofNat layout.cs0.code <<< OTP_FLASH_DEVINFO_CS0_SIZE_SHIFT)
    ||| OTP_FLASH_DEVINFO_D8H_ERASE_SUPPORTED ||| cs1Gpio.toUInt16)

/-- Boards sized by hand before the tools could hold this value. -/
example : flashDevinfo .l 47 = some 0x99af := by decide

/-! ### Rows -/

def CHIP_ID_ROW : ℕ := 0x000

/-- The 24 bits of a row. -/
def ROW_BITS : UInt32 := 0xffffff

/-- `BOOT_FLAGS0` and its two copies. -/
def BOOT_FLAGS0_ROWS : Vector ℕ 3 :=
  #v[OTP_BOOT_FLAGS0_ROW, OTP_BOOT_FLAGS0_R1_ROW, OTP_BOOT_FLAGS0_R2_ROW]

/-- `USB_BOOT_FLAGS` and its two copies. -/
def USB_BOOT_FLAGS_ROWS : Vector ℕ 3 := #v[0x059, 0x05a, 0x05b]

/-- `USB_WHITE_LABEL_ADDR`. -/
def OTP_ROW_USB_WHITE_LABEL_DATA : ℕ := 0x05c

/-- The row after those free for users. -/
def OTP_ROW_UNRESERVED_END : ℕ := 0xf40

def AREA_ROWS : ℕ := OTP_COMMISSIONING_AREA_LAST_ROW - OTP_COMMISSIONING_AREA_FIRST_ROW + 1
def AREA_FIRST_PAGE : ℕ := OTP_COMMISSIONING_AREA_FIRST_ROW / OTP_PAGE_ROWS
def AREA_LAST_PAGE : ℕ := OTP_COMMISSIONING_AREA_LAST_ROW / OTP_PAGE_ROWS
def WHITE_LABEL_FIRST_PAGE : ℕ := OTP_USB_WHITE_LABEL_ROW / OTP_PAGE_ROWS
def WHITE_LABEL_LAST_PAGE : ℕ := (OTP_ROW_UNRESERVED_END - 1) / OTP_PAGE_ROWS
def WHITE_LABEL_PAGES_ROWS : ℕ := OTP_ROW_UNRESERVED_END - OTP_USB_WHITE_LABEL_ROW
def WHITE_LABEL_TABLE_ROWS : ℕ := 16

/-- Row of page 0's `LOCK1` word. -/
def PAGE0_LOCK1_ROW : ℕ := 0xf81

/-- A `LOCK1` word that makes its page read-only for all access. -/
def LOCK1_READ_ONLY : UInt32 := 0x151515

def LOCK_BL_SHIFT : UInt32 := 4
def LOCK_BL_BITS : UInt32 := 0b11

/-- The `LOCK_BL` value making a page read-only. A lock from this value up refuses writes. -/
def LOCK_BL_READ_ONLY : UInt8 := 1

def lock1Row (page : ℕ) : ℕ := PAGE0_LOCK1_ROW + 2 * page

/-- The bootloader's lock on a page whose `LOCK1` word is `word`. -/
def bootloaderLock (word : UInt32) : UInt8 :=
  let copies := majority #v[word, word >>> 8, word >>> 16]
  ((copies >>> LOCK_BL_SHIFT) &&& LOCK_BL_BITS).toUInt8

example : bootloaderLock LOCK1_READ_ONLY = LOCK_BL_READ_ONLY ∧ bootloaderLock 0x100010 = 1 ∧
    bootloaderLock 0x002010 = 0 := by decide

def countOnes (raw : UInt32) : ℕ := (List.range 32).countP fun i => raw.toNat.testBit i

/-- Whether a row is unwritten: it can leave the factory with one bit set. -/
def isUnwritten (raw : UInt32) : Bool := countOnes raw ≤ 1

/-- The rows of a white label and the flags that make them valid. -/
structure WhiteLabelData where
  rows : List UInt16
  usbBootFlags : UInt32
  /-- The strings follow the table. -/
  table_le : WHITE_LABEL_TABLE_ROWS ≤ rows.length
  /-- Every board's white label fits pages 59 and 60. -/
  fits : rows.length ≤ WHITE_LABEL_PAGES_ROWS

/-- The functions of pico-otp that reading and writing OTP rests on. -/
class PicoOtp where
  eccEncode : UInt16 → UInt32
  whiteLabel : Board → WhiteLabelData

export PicoOtp (eccEncode whiteLabel)

section Codewords

variable [PicoOtp]

/-- Whether an ECC row holds `value`. The bootrom may have written the encoding inverted. -/
def holds (raw : UInt32) (value : UInt16) : Bool :=
  let encoding := eccEncode value
  raw == encoding || raw == ~~~encoding &&& ROW_BITS

/-- The value an ECC row holds, where it's an exact codeword in either form. -/
def codeword (raw : UInt32) : Option UInt16 :=
  [raw.toUInt16, ~~~raw.toUInt16].find? (holds raw)

end Codewords

/-! ### Access -/

inductive OtpError
  | notPermitted
  | unsupportedModification
  | transport (message : String)
  deriving DecidableEq, Repr

/-- A row's value and how it's written. -/
inductive RowValue
  | ecc (value : UInt16)
  | raw (value : UInt32)
  deriving DecidableEq, Repr

/-- The rows' raw values. -/
abbrev Rows := ℕ → UInt32

/-- An access that was made. -/
inductive Access
  | readEcc (row count : ℕ)
  | readRaw (row : ℕ) (raws : List UInt32)
  | refused (row : ℕ)
  | write (row : ℕ) (value : RowValue)

/-- An access and the rows it was made on. -/
structure Moment where
  rows : Rows
  access : Access

/-- The host's transport and the chip behind it. -/
structure Host where
  /-- Whether the `n`th access, a read of `count` rows from `row`, fails. -/
  readFails : (n row count : ℕ) → Option OtpError
  /-- The value an ECC read gives for a raw value. -/
  eccRead : UInt32 → UInt16
  /-- What the `n`th access, a write to a row, leaves in the row, and whether it fails. -/
  write : (n row : ℕ) → RowValue → UInt32 → UInt32 × Option OtpError

/-- OTP, and the accesses made to it with the last one first. -/
structure Otp where
  rows : Rows
  log : List Moment := []

def Otp.logged (otp : Otp) (access : Access) : Otp := ⟨otp.rows, ⟨otp.rows, access⟩ :: otp.log⟩

@[simp] lemma Otp.logged_rows (otp : Otp) (access : Access) : (otp.logged access).rows = otp.rows :=
  rfl
@[simp] lemma Otp.logged_log (otp : Otp) (access : Access) :
    (otp.logged access).log = ⟨otp.rows, access⟩ :: otp.log := rfl

/-- A program that accesses OTP. -/
abbrev OtpM (ε α : Type) := Prog Otp ε α

section Readers

variable (host : Host)

/-- Reads `count` rows with ECC from `row`. -/
def readEccRows (row count : ℕ) : OtpM OtpError (List UInt16) := fun otp =>
  match host.readFails otp.log.length row count with
  | some e => (.error e, otp.logged (.refused row))
  | none =>
    (.ok ((List.range' row count).map fun r => host.eccRead (otp.rows r)),
      otp.logged (.readEcc row count))

/-- Reads `count` rows raw from `row`. -/
def readRawRows (row count : ℕ) : OtpM OtpError (List UInt32) := fun otp =>
  match host.readFails otp.log.length row count with
  | some e => (.error e, otp.logged (.refused row))
  | none =>
    (.ok ((List.range' row count).map otp.rows),
      otp.logged (.readRaw row ((List.range' row count).map otp.rows)))

/-- Writes a value to a row, with ECC or raw. -/
def writeRowValue (row : ℕ) (value : RowValue) : OtpM OtpError Unit := fun otp =>
  let (raw, error) := host.write otp.log.length row value (otp.rows row)
  (error.elim (.ok ()) .error,
    ⟨Function.update otp.rows row raw, ⟨otp.rows, .write row value⟩ :: otp.log⟩)

/-- Reads CHIPID from rows `0x000`–`0x003` with ECC. -/
def readChipId : OtpM OtpError (Vector UInt16 4) := do
  let rows ← readEccRows host CHIP_ID_ROW 4
  return Vector.ofFn fun i => rows.getD i 0

/-- Reads the area from `page` on, `left` pages after that one. -/
def readAreaFrom (page : ℕ) (rows : List UInt16) (left : ℕ) :
    OtpM (ℕ × OtpError) CommissioningArea := do
  let read ← (readEccRows host page OTP_PAGE_ROWS).mapError fun error => (page, error)
  let area := CommissioningArea.parse (rows ++ read)
  -- the read stops early only where the parse found no issues
  let found := area.nextInstanceRow.isSome && area.issues.isEmpty
  match left with
  | 0 => return area
  | left + 1 =>
    if found then return area else readAreaFrom (page + OTP_PAGE_ROWS) (rows ++ read) left

/-- Reads and parses the commissioning area. -/
def readArea : OtpM (ℕ × OtpError) CommissioningArea :=
  readAreaFrom host OTP_COMMISSIONING_AREA_FIRST_ROW [] (AREA_LAST_PAGE - AREA_FIRST_PAGE)

/-- A page's `LOCK1` word. -/
structure PageLock where
  page : ℕ
  raw : UInt32
  deriving DecidableEq

/-- Reads the `LOCK1` words of the pages from `first` to `last`. -/
def readLocks (first last : ℕ) : OtpM OtpError (List PageLock) := do
  let rows ← readRawRows host (lock1Row first) (lock1Row last - lock1Row first + 1)
  return (List.range' first (last + 1 - first)).map fun page =>
    ⟨page, rows.getD (lock1Row page - lock1Row first) 0⟩

/-- The raw rows One ROM uses in page 1. -/
structure BootRows where
  bootFlags0 : Vector UInt32 3
  flashDevinfo : UInt32
  flashPartitionSlotSize : UInt32
  usbBootFlags : Vector UInt32 3
  usbWhiteLabelAddr : UInt32

def BootRows.FIRST_ROW : ℕ := OTP_BOOT_FLAGS0_ROW
def BootRows.PAGE : ℕ := BootRows.FIRST_ROW / OTP_PAGE_ROWS

/-- Reads the rows from `BOOT_FLAGS0` to `USB_WHITE_LABEL_ADDR` raw. -/
def BootRows.read : OtpM OtpError BootRows := do
  let rows ← readRawRows host BootRows.FIRST_ROW
    (OTP_ROW_USB_WHITE_LABEL_DATA - BootRows.FIRST_ROW + 1)
  let row (row : ℕ) : UInt32 := rows.getD (row - BootRows.FIRST_ROW) 0
  return {
    bootFlags0 := BOOT_FLAGS0_ROWS.map row
    flashDevinfo := row OTP_FLASH_DEVINFO_ROW
    flashPartitionSlotSize := row OTP_FLASH_PARTITION_SLOT_SIZE_ROW
    usbBootFlags := USB_BOOT_FLAGS_ROWS.map row
    usbWhiteLabelAddr := row OTP_ROW_USB_WHITE_LABEL_DATA }

end Readers

end OneRom.OtpAccess
