import OneRom.Checks
import OneRom.OtpAccess
import OneRom.OtpWriter

/-!
Commissioning a board and setting its size.

`prepare` reads the board and checks the request, `Prepared.plan` places the signed instance and
lists every row to write, `planSize` lists the rows that set a board's size, and `Plan.execute`
writes the rows and reads each one back.
-/

namespace OneRom.Commission

open OneRom.OtpEntry OneRom.OtpStore OneRom.OtpWriter OneRom.Hw OneRom.WriteOnce OneRom.Fallible
open OneRom.OtpAccess OneRom.Checks

/-! ### Requests, errors and plans -/

/-- A request's `YYYYMMDD` date: one the user gave, or today's. -/
inductive RequestDate
  | given (date : String)
  | today (date : String)
  deriving DecidableEq, Repr

def RequestDate.asStr : RequestDate → String
  | .given date => date
  | .today date => date

/-- A request to commission a board. -/
structure Request where
  board : Board
  size : BoardSize
  manufacturer : String
  date : RequestDate
  signer : UInt16
  /-- Whether to go ahead despite a current instance that holds other values, and despite a
  `FLASH_DEVINFO` that is written or enabled on a board OTP still configures as M. -/
  force : Bool

/-- Why commissioning a board or setting its size stopped. -/
inductive CommissionError
  | otp (row : ℕ) (error : OtpError)
  | newerData (row : ℕ) (version : UInt16)
  | unknownKey (row : ℕ) (key : UInt16)
  | alreadyCommissioned (row : ℕ) (board manufacturer date : String) (signer : UInt16)
    (onlyDateDiffers : Bool)
  | commissionedAsAnotherBoard (board : String) (requested : Board)
  | areaFull
  | build (error : BuildError)
  | notFire (board : Board)
  | noExternalFlash (board : Board)
  | sizeAlreadySet (size : OneromBoardSize) (requested : BoardSize)
  | secondChipConfigured (board : Board)
  | slotSizeInvalid (raw : UInt32)
  | rowWritten (row : ℕ) (raw : UInt32) (value : RowValue)
  | pageLocked (page : ℕ)
  | readBack (row : ℕ) (value : RowValue) (raw : UInt32)

/-- The part of OTP a step writes. -/
inductive StepKind
  | flashDevinfo
  | instance_
  | lock (page : ℕ)
  | whiteLabelStrings
  | whiteLabelTable
  | whiteLabelAddr
  | usbBootFlags
  | bootFlags0
  deriving DecidableEq, Repr

/-- A row a step writes, unless the row already holds the value. -/
structure PlannedWrite where
  row : ℕ
  value : RowValue
  holds : Bool
  deriving DecidableEq

structure Step where
  kind : StepKind
  writes : List PlannedWrite
  deriving DecidableEq

/-- The steps and the rows each writes, in order. -/
structure Plan where
  steps : List Step
  deriving DecidableEq

/-- The error for an access starting at `row`. -/
def at_ (row : ℕ) (error : OtpError) : CommissionError := .otp row error

variable [PicoOtp]

/-! ### The checks -/

/-- Refuses an area holding an unknown version. -/
def checkVersion (area : CommissioningArea) : Except CommissionError Unit :=
  area.issues.forM fun
    | .unknownVersion row version => .error (.newerData row version)
    | .lostPlace _ => .ok ()

/-- The row and key of an entry with an unknown key. -/
def unknownKey : StoreEntry → Option (ℕ × UInt16)
  | .entry row (.unknown key _) => some (row, key.toUInt16)
  | _ => none

/-- Refuses an area holding an unknown version, and a current instance holding an unknown key. -/
def checkArea (area : CommissioningArea) : Except CommissionError Unit := do
  checkVersion area
  match area.current.bind fun current => current.entries.findSome? unknownKey with
  | some (row, key) => throw (.unknownKey row key)
  | none => return

/-- How an instance's values compare with a request's. -/
inductive Comparison
  | same
  | onlyDate
  | other
  deriving DecidableEq, Repr

/-- How an instance compares with a request whose date is `date`. -/
def compare (inst : CommissioningInstance) (request : Request) (date : String) : Comparison :=
  let othersMatch := inst.board == some request.board.name
    && inst.manufacturer == some request.manufacturer && inst.signer == some request.signer
  if !othersMatch then .other
  else if inst.date == some date then .same
  else .onlyDate

/-- The date the instance holds, and whether it's the current instance's. -/
def chooseDate (request : Request) (current : Option CommissioningInstance) : String × Bool :=
  let requested := request.date.asStr
  match request.date, current with
  | .today _, some current =>
    match current.date with
    | some date =>
      if compare current request requested = .onlyDate then (date, true) else (requested, false)
    | none => (requested, false)
  | _, _ => (requested, false)

/-- Refuses a current instance holding values other than the request's. -/
def checkCurrent (current : CommissioningInstance) (request : Request) (date : String) :
    Except CommissionError Unit :=
  let comparison := compare current request date
  if comparison = .same then .ok ()
  else .error (.alreadyCommissioned current.firstRow (current.board.getD "")
    (current.manufacturer.getD "") (current.date.getD "") (current.signer.getD 0)
    (comparison == .onlyDate))

/-- Refuses `requested` where OTP configures another size that isn't M. -/
def checkConfigured (configured : OneromBoardSize) (requested : BoardSize) :
    Except CommissionError Unit :=
  match configured with
  | .m => .ok ()
  | .l => if requested = .l then .ok () else .error (.sizeAlreadySet configured requested)
  | _ => .error (.sizeAlreadySet configured requested)

/-- Checks `size` for `board`. The value is `FLASH_DEVINFO`'s, on a board with a second chip. -/
def checkSize (board : Board) (size : BoardSize) (boot : BootRows) (configured : OneromBoardSize) :
    Except CommissionError (Option UInt16) :=
  match size with
  | .l => do
    let pin ← match board.externalFlashCsPin with
      | some pin => pure pin
      | none => throw (.noExternalFlash board)
    checkConfigured configured size
    -- once `FLASH_DEVINFO_ENABLE` is set the chip doesn't boot unless this row is a codeword
    if (codeword boot.flashPartitionSlotSize).isNone then
      throw (.slotSizeInvalid boot.flashPartitionSlotSize)
    return flashDevinfo size pin
  | .m => do
    checkConfigured configured size
    return none

/-- Refuses `FLASH_DEVINFO` that is written or enabled. -/
def checkSecondChip (board : Board) (boot : BootRows) : Except CommissionError Unit :=
  let enabled := boot.bootFlags0.toList.any fun flags =>
    flags &&& OTP_BOOT_FLAGS0_FLASH_DEVINFO_ENABLE != 0
  if enabled || !isUnwritten boot.flashDevinfo then .error (.secondChipConfigured board) else .ok ()

/-- Refuses a page where `steps` have a row still to write and the bootloader's lock refuses it. -/
def checkLocks (steps : List Step) (locks : List PageLock) : Except CommissionError Unit :=
  ((steps.flatMap (·.writes)).filter (!·.holds)).forM fun write =>
    let page := write.row / OTP_PAGE_ROWS
    let locked := locks.any fun lock =>
      lock.page == page && decide (LOCK_BL_READ_ONLY ≤ bootloaderLock lock.raw)
    if locked then .error (.pageLocked page) else .ok ()

/-! ### The rows to write -/

/-- An ECC write to a row whose raw value is `raw`. Refuses a row holding another value. -/
def eccWrite (row : ℕ) (value : UInt16) (raw : UInt32) : Except CommissionError PlannedWrite :=
  let held := OtpAccess.holds raw value
  if held || isUnwritten raw then .ok ⟨row, .ecc value, held⟩
  else .error (.rowWritten row raw (.ecc value))

/-- A raw write to a row whose raw value is `raw`. -/
def rawWrite (row : ℕ) (value raw : UInt32) : PlannedWrite := ⟨row, .raw value, raw == value⟩

/-- The steps setting a board's size, for a size with a chip on chip select 1. -/
structure SizeSteps where
  flashDevinfo : Option Step
  bootFlags0 : Option Step

/-- Checks a size for a board and builds the steps setting it. -/
def sizeSteps (board : Board) (size : BoardSize) (boot : BootRows) (flashDevinfoEcc : UInt16) :
    Except CommissionError SizeSteps := do
  let configured := boardSize boot.bootFlags0 flashDevinfoEcc
  match ← checkSize board size boot configured with
  | none => return ⟨none, none⟩
  | some devinfo =>
    let write ← eccWrite OTP_FLASH_DEVINFO_ROW devinfo boot.flashDevinfo
    let bootFlags0 := (BOOT_FLAGS0_ROWS.zip boot.bootFlags0).toList.map fun (row, raw) =>
      rawWrite row (raw ||| OTP_BOOT_FLAGS0_FLASH_DEVINFO_ENABLE) raw
    return ⟨some ⟨.flashDevinfo, [write]⟩, some ⟨.bootFlags0, bootFlags0⟩⟩

/-- The writes of some of the white label's rows, each with its place among them. -/
def whiteLabelWrites (raw : List UInt32) (rows : List (UInt16 × ℕ)) :
    Except CommissionError (List PlannedWrite) :=
  rows.mapM fun (value, i) => eccWrite (OTP_USB_WHITE_LABEL_ROW + i) value (raw.getD i 0)

/-- The write of one copy of `USB_BOOT_FLAGS`. Refuses flags other than none and One ROM's. -/
def usbBootFlagsWrite (flags : UInt32) (row : ℕ) (raw : UInt32) :
    Except CommissionError PlannedWrite :=
  if raw = 0 ∨ raw = flags then .ok (rawWrite row flags raw)
  else .error (.rowWritten row raw (.raw flags))

/-- The steps writing the bootloader's USB white label and enabling it. -/
def whiteLabelSteps (board : Board) (raw : List UInt32) (boot : BootRows) :
    Except CommissionError (List Step) := do
  let data := whiteLabel board
  let rows := data.rows.zipIdx
  let strings ← whiteLabelWrites raw (rows.drop WHITE_LABEL_TABLE_ROWS)
  -- a table row that is 0 isn't written, so it stays free for its entry
  let table ← whiteLabelWrites raw ((rows.take WHITE_LABEL_TABLE_ROWS).filter (·.1 != 0))
  let addr ← eccWrite OTP_ROW_USB_WHITE_LABEL_DATA (UInt16.ofNat OTP_USB_WHITE_LABEL_ROW)
    boot.usbWhiteLabelAddr
  let usbBootFlags ← (USB_BOOT_FLAGS_ROWS.zip boot.usbBootFlags).toList.mapM fun (row, raw) =>
    usbBootFlagsWrite data.usbBootFlags row raw
  return [⟨.whiteLabelStrings, strings⟩, ⟨.whiteLabelTable, table⟩, ⟨.whiteLabelAddr, [addr]⟩,
    ⟨.usbBootFlags, usbBootFlags⟩]

/-! ### Preparing -/

/-- What `prepare` reads. -/
structure Readings where
  chipId : Vector UInt16 4
  area : CommissioningArea
  areaRaw : List UInt32
  boot : BootRows
  flashDevinfoEcc : UInt16
  whiteLabelRaw : List UInt32
  /-- The `LOCK1` words of the commissioning area's pages. -/
  locks : List PageLock
  /-- The `LOCK1` words of pages 1, 59 and 60. -/
  otherLocks : List PageLock

/-- A request `prepare` has checked. -/
structure Prepared where
  chipId : Vector UInt16 4
  message : List UInt8
  date : String
  dateFromCurrentInstance : Bool
  replacesCurrent : Bool
  values : CommissioningValues
  area : CommissioningArea
  areaRaw : List UInt32
  locks : List PageLock
  /-- The steps before the instance's. -/
  before : List Step
  /-- The steps after the instance's locks. -/
  after : List Step

/-- The readings of a board. -/
def readBoard (host : Host) : OtpM CommissionError Readings := do
  let chipId ← (readChipId host).mapError (at_ CHIP_ID_ROW)
  let area ← (readArea host).mapError fun (row, error) => at_ row error
  let areaRaw ← (readRawRows host OTP_COMMISSIONING_AREA_FIRST_ROW AREA_ROWS).mapError
    (at_ OTP_COMMISSIONING_AREA_FIRST_ROW)
  let boot ← (BootRows.read host).mapError (at_ BootRows.FIRST_ROW)
  let flashDevinfoEcc ← (readEccRows host OTP_FLASH_DEVINFO_ROW 1).mapError
    (at_ OTP_FLASH_DEVINFO_ROW)
  let whiteLabelRaw ← (readRawRows host OTP_USB_WHITE_LABEL_ROW WHITE_LABEL_PAGES_ROWS).mapError
    (at_ OTP_USB_WHITE_LABEL_ROW)
  let locks ← (readLocks host AREA_FIRST_PAGE AREA_LAST_PAGE).mapError
    (at_ (lock1Row AREA_FIRST_PAGE))
  let bootLocks ← (readLocks host BootRows.PAGE BootRows.PAGE).mapError
    (at_ (lock1Row BootRows.PAGE))
  let whiteLabelLocks ← (readLocks host WHITE_LABEL_FIRST_PAGE WHITE_LABEL_LAST_PAGE).mapError
    (at_ (lock1Row WHITE_LABEL_FIRST_PAGE))
  return {
    chipId, area, areaRaw, boot, whiteLabelRaw, locks
    flashDevinfoEcc := flashDevinfoEcc.getD 0 0
    otherLocks := bootLocks ++ whiteLabelLocks }

/-- Whether a run for `request` replaces the current instance, which `force` lets it do. -/
def replaces (request : Request) (date : String) :
    Option CommissioningInstance → Except CommissionError Bool
  | none => .ok false
  | some current =>
    match checkCurrent current request date with
    | .ok () => .ok false
    | .error e => if request.force then .ok true else .error e

/-- Checks a request against what was read. -/
def checkRequest (request : Request) (readings : Readings) : Except CommissionError Prepared := do
  checkArea readings.area
  let current := readings.area.current
  let (date, dateFromCurrentInstance) := chooseDate request current
  let values ← (CommissioningValues.new request.board request.manufacturer date
    request.signer).mapError .build
  let _ ← (NewCommissioningInstance.new values OTP_COMMISSIONING_AREA_FIRST_ROW).mapError .build
  let replacesCurrent ← replaces request date current
  let size ← sizeSteps request.board request.size readings.boot readings.flashDevinfoEcc
  only (request.size = .m ∧ request.force = false) (checkSecondChip request.board readings.boot)
  let before := size.flashDevinfo.toList
  let whiteLabel ← whiteLabelSteps request.board readings.whiteLabelRaw readings.boot
  let after := whiteLabel ++ size.bootFlags0.toList
  checkLocks (before ++ after) readings.otherLocks
  return {
    date, dateFromCurrentInstance, replacesCurrent, values, before, after
    chipId := readings.chipId
    message := values.message readings.chipId
    area := readings.area
    areaRaw := readings.areaRaw
    locks := readings.locks }

/-- Reads the board and checks `request` against it before a signature is asked for. -/
def prepare (host : Host) (request : Request) : OtpM CommissionError Prepared :=
  match request.board.model with
  | .ice => Prog.throw (.notFire request.board)
  | .fire => do
    let readings ← readBoard host
    Prog.ofExcept (checkRequest request readings)

/-- The last complete instance, where it has a board. -/
def lastCompleteBoard (area : CommissioningArea) : Option String :=
  (area.instances.reverse.find? (·.isComplete)).bind (·.board)

/-- The steps that set a board's size. -/
def sizePlan (board : Board) (size : BoardSize) (area : CommissioningArea) (boot : BootRows)
    (flashDevinfoEcc : UInt16) (locks : List PageLock) : Except CommissionError Plan := do
  checkVersion area
  (lastCompleteBoard area).forM fun other =>
    refuse (other ≠ board.name) (.commissionedAsAnotherBoard other board)
  let size ← sizeSteps board size boot flashDevinfoEcc
  let steps := size.flashDevinfo.toList ++ size.bootFlags0.toList
  checkLocks steps locks
  return ⟨steps⟩

/-- Reads the board and plans setting its size without commissioning it. -/
def planSize (host : Host) (board : Board) (size : BoardSize) : OtpM CommissionError Plan :=
  match board.model with
  | .ice => Prog.throw (.notFire board)
  | .fire => do
    let area ← (readArea host).mapError fun (row, error) => at_ row error
    let boot ← (BootRows.read host).mapError (at_ BootRows.FIRST_ROW)
    let flashDevinfoEcc ← (readEccRows host OTP_FLASH_DEVINFO_ROW 1).mapError
      (at_ OTP_FLASH_DEVINFO_ROW)
    let locks ← (readLocks host BootRows.PAGE BootRows.PAGE).mapError (at_ (lock1Row BootRows.PAGE))
    Prog.ofExcept (sizePlan board size area boot (flashDevinfoEcc.getD 0 0) locks)

/-! ### Planning -/

/-- Whether the parser lost its place and didn't find a later instance. -/
def isAbandoned (area : CommissioningArea) : Bool :=
  match area.issues.getLast? with
  | some (.lostPlace row) =>
    match area.instances.getLast? with
    | none => true
    | some last => last.firstRow ≤ row
  | _ => false

/-- The pages from an instance's first to its last. -/
def pagesOf (inst : List PlannedWrite) : List ℕ :=
  let pages := inst.map (·.row / OTP_PAGE_ROWS)
  match pages.min?, pages.max? with
  | some first, some last => List.range' first (last + 1 - first)
  | _, _ => []

namespace Prepared

variable (p : Prepared) (signature : Vector UInt8 OTP_COMMISSIONING_SIG_LEN)

/-- The writes of the instance at `firstRow`, where it fits there. -/
def instanceWrites (firstRow : ℕ) : Option (List RowWrite) :=
  (NewCommissioningInstance.new p.values firstRow).toOption.map (·.writes signature)

/-- Refuses a row holding another value. -/
def checkInstance (writes : List RowWrite) : Except CommissionError (List PlannedWrite) :=
  writes.mapM fun write => eccWrite write.cell write.value
    (p.areaRaw.getD (write.cell - OTP_COMMISSIONING_AREA_FIRST_ROW) 0)

/-- The page boundary after the area's last written row. -/
def afterLastWrittenRow : ℕ :=
  match rposition (fun raw => !isUnwritten raw) p.areaRaw with
  | none => OTP_COMMISSIONING_AREA_FIRST_ROW
  | some i => pageAfter (OTP_COMMISSIONING_AREA_FIRST_ROW + i)

/-- The last instance's rows, where every row the new one needs there is unwritten or holds its
value. -/
def resumed : Option (List PlannedWrite) := do
  -- finishing an instance the parser can't find its way past wouldn't make it current
  guard (!isAbandoned p.area)
  let last ← p.area.instances.getLast?
  let writes ← p.instanceWrites signature last.firstRow
  (p.checkInstance writes).toOption

/-- The row a new instance goes at. -/
def nextRow : Except CommissionError ℕ :=
  match p.area.nextInstanceRow with
  | some row => .ok row
  | none => if isAbandoned p.area then .ok p.afterLastWrittenRow else .error .areaFull

/-- The instance's writes at the row the plan chooses. -/
def place : Except CommissionError (List PlannedWrite) :=
  match p.resumed signature with
  | some writes => .ok writes
  | none => do
    let firstRow ← p.nextRow
    match p.instanceWrites signature firstRow with
    | none => throw .areaFull
    | some writes => p.checkInstance writes

/-- The step locking a page of the instance. -/
def lockStep (inst : List PlannedWrite) (page : ℕ) : Except CommissionError Step :=
  let raw := (p.locks.getD (page - AREA_FIRST_PAGE) ⟨page, 0⟩).raw
  let toWrite := inst.any fun write => write.row / OTP_PAGE_ROWS == page && !write.holds
  if raw = 0 ∨ raw = LOCK1_READ_ONLY then
    if raw = LOCK1_READ_ONLY ∧ toWrite then .error (.pageLocked page)
    else .ok ⟨.lock page, [rawWrite (lock1Row page) LOCK1_READ_ONLY raw]⟩
  else .error (.rowWritten (lock1Row page) raw (.raw LOCK1_READ_ONLY))

/-- A lock step for each page the instance takes. -/
def lockSteps (inst : List PlannedWrite) : Except CommissionError (List Step) :=
  (pagesOf inst).mapM (p.lockStep inst)

/-- Places the instance holding `signature` and lists every row to write. -/
def plan : Except CommissionError Plan := do
  let inst ← p.place signature
  let locks ← p.lockSteps inst
  return ⟨p.before ++ [⟨.instance_, inst⟩] ++ locks ++ p.after⟩

end Prepared

/-! ### Executing -/

/-- Whether a row with a raw value holds a value, read the way the value is written. -/
def holdsValue (raw : UInt32) : RowValue → Bool
  | .ecc value => OtpAccess.holds raw value
  | .raw value => raw == value

section Execute

variable (host : Host)

def readRow (row : ℕ) : OtpM CommissionError UInt32 := do
  let rows ← (readRawRows host row 1).mapError (at_ row)
  return rows.getD 0 0

/-- Refuses a row that doesn't hold its value. -/
def readBack (write : PlannedWrite) : OtpM CommissionError Unit := do
  let raw ← readRow host write.row
  if holdsValue raw write.value then return
  else Prog.throw (.readBack write.row write.value raw)

/-- Writes a row and reads it back. -/
def writeRow (write : PlannedWrite) : OtpM CommissionError Unit := do
  (writeRowValue host write.row write.value).mapError (at_ write.row)
  readBack host write

variable (plan : Plan)

/-- The rows of all the steps. -/
def Plan.writes : List PlannedWrite := plan.steps.flatMap (·.writes)

/-- The rows of the steps of `kinds`. -/
def Plan.writesOf (kinds : List StepKind) : List PlannedWrite :=
  (plan.steps.filter (·.kind ∈ kinds)).flatMap (·.writes)

/-- Reads back every row of the steps of `kinds`. -/
def Plan.readBackSteps (kinds : List StepKind) : OtpM CommissionError Unit :=
  Prog.each (readBack host) (plan.writesOf kinds)

/-- Checks the rows a step of `kind` enables. -/
def Plan.checkEnabled : StepKind → OtpM CommissionError Unit
  | .usbBootFlags =>
    plan.readBackSteps host [.whiteLabelStrings, .whiteLabelTable, .whiteLabelAddr]
  | .bootFlags0 => do
    plan.readBackSteps host [.flashDevinfo]
    let raw ← readRow host OTP_FLASH_PARTITION_SLOT_SIZE_ROW
    if (codeword raw).isSome then return else Prog.throw (.slotSizeInvalid raw)
  | _ => return

/-- The rows of a step still to write. -/
def Step.toWrite (step : Step) : List PlannedWrite := step.writes.filter (!·.holds)

def Plan.executeStep (step : Step) : OtpM CommissionError Unit :=
  if step.writes.any (!·.holds) then do
    plan.checkEnabled host step.kind
    Prog.each (writeRow host) step.toWrite
  else return

/-- Writes each row that doesn't already hold its value and reads it back. -/
def Plan.execute : OtpM CommissionError Unit := Prog.each (plan.executeStep host) plan.steps

end Execute

/-- A run: prepares a request, has its message signed, plans it and executes the plan. -/
def commission (host : Host) (request : Request)
    (sign : List UInt8 → Vector UInt8 OTP_COMMISSIONING_SIG_LEN) : OtpM CommissionError Unit := do
  let prepared ← prepare host request
  let plan ← Prog.ofExcept (prepared.plan (sign prepared.message))
  plan.execute host

/-- A run that sets a board's size. -/
def setSize (host : Host) (board : Board) (size : BoardSize) : OtpM CommissionError Unit := do
  let plan ← planSize host board size
  plan.execute host

end OneRom.Commission
