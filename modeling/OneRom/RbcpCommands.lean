import OneRom.Rbcp

/-!
The commands of the control, read, modify and NV storage groups: what each does once it has its
arguments.
-/

namespace OneRom.Rbcp

open OneRom.FlashSlotInfo (FlashSlot flashSlotRecord)
open OneRom.PinMaps
open OneRom.RamSlot (oraGetRamSlotCount oraGetRamSlotInfo oraGetActiveRamSlot)

variable [Firmware]

/-- A number of 16 or 24 bits from its bytes, low byte first. -/
def word16 (lo hi : UInt8) : ℕ := lo.toNat + 2 ^ 8 * hi.toNat
def word24 (a0 a1 a2 : UInt8) : ℕ := a0.toNat + 2 ^ 8 * a1.toNat + 2 ^ 16 * a2.toNat

/-- A count of zero asks for 256. -/
def byteCount (count : UInt8) : ℕ := if count = 0 then 256 else count.toNat

/-- Refuses a slot that the host may not name. -/
def namingSlot (slot : UInt8) (step : Step) : Step := fun p =>
  if slot = 0xAA then (false, p)
  else if ¬hostSlotValid p slot then (false, p)
  else step p

/-! ### Control -/

/-- The observed addresses the host can drive: those of the ROM that is served, where its size is
known. -/
def observedSpan (slotSize : ℕ) : ℕ :=
  let chipSize := Firmware.chipSizeFromType Firmware.romType
  let addressable := if chipSize ≠ 0 ∧ chipSize < slotSize then chipSize else slotSize
  addressable >>> Firmware.unobservedAddrBits

/-- Takes over the token that is in the region, and enters command-response mode. A region that is
too large is refused in its header, and the device stays in command mode. -/
def enterRegion (slot : UInt8) (slotSize commandPage regionSize : ℕ) : Step := fun p =>
  match hdrRead slot HDR_TOKEN_LSB p with
  | none => (false, p)
  | some tokenLsb =>
    match hdrRead slot HDR_TOKEN_MSB { p with tokenLsb } with
    | none => (false, { p with tokenLsb })
    | some tokenMsb =>
      if slotSize < p.cfg.regionOffset + regionSize then
        (false, cmdEnd slot false false (cmdBegin slot 0x00 0x01 { p with tokenLsb, tokenMsb }))
      else
        (true,
          { p with
            tokenLsb
            tokenMsb
            cfg := { p.cfg with
              commandPage
              regionEnd := p.cfg.regionOffset + regionSize
              dataSize := regionSize - HDR_SIZE }
            activeSlot := slot
            active := true })

def enterCmdResp (commandPage regionOffset regionSize : ℕ) (complete statusOk : UInt8) : Step :=
  fun p =>
    if p.active then (false, p)
    else if complete = 0xAA ∨ statusOk = 0xAA then (false, p)
    else if regionOffset % 4 ≠ 0 then (false, p)
    else if regionSize < HDR_SIZE then (false, p)
    else
      match oraGetActiveRamSlot p.rt with
      | .error _ => (false, p)
      | .ok activeSlot =>
        match oraGetRamSlotInfo p.rt activeSlot with
        | .error _ => (false, p)
        | .ok info =>
          if observedSpan info.size ≤ commandPage <<< 8 then (false, p)
          else if info.size < regionOffset + HDR_SIZE then (false, p)
          else
            -- the response header is written through these
            enterRegion (UInt8.ofNat activeSlot) info.size commandPage regionSize
              { p with cfg := { p.cfg with regionOffset, complete, statusOk } }

/-- Leaves command-response mode, whatever else came of the command. -/
def andExit (step : Step) : Step := fun p =>
  ((step p).1, { (step p).2 with active := false })

def exitCmdResp : Step := fun p => (true, { p with active := false })

/-- The bytes are the host's own, put back over the start of the region. -/
def exitCmdRespRestore (bytes : List UInt8) (count : UInt8) : Step := fun p =>
  if ¬p.active then (false, p)
  else
    let p := { p with active := false }
    if count = 0 ∨ 8 < count.toNat then (false, p)
    else
      match reprogram p p.activeSlot p.cfg.regionOffset (bytes.take count.toNat) with
      | none => (false, p)
      | some p => (true, p)

/-! ### Read -/

/-- Answers with the bytes, as far as the data section has room. -/
def answer (bytes : List UInt8) : Step := fun p => (true, dataWrite p.activeSlot 0 bytes p)

/-- Answers where the section has room for `size` bytes and there is an answer. -/
def answerIn (size : ℕ) (bytes : Plugin → Option (List UInt8)) : Step := fun p =>
  if p.cfg.dataSize < size then (false, p)
  else
    match bytes p with
    | none => (false, p)
    | some bytes => answer bytes p

def getFlashSlotCount : Step := answer [Firmware.flashSlots.total]

def getFlashSlotInfo (flashSlot : UInt8) : Step := fun p =>
  if flashSlot = 0xAA then (false, p)
  else answerIn 32 (fun _ => Firmware.flashSlots.slots[flashSlot.toNat]?.map flashSlotRecord) p

/-- A slot's record, where the one after the whole ones is partial and ends in a NUL. -/
def emittedRecord (wholeCount partialBytes i : ℕ) (slot : FlashSlot) : List UInt8 :=
  if i < wholeCount then flashSlotRecord slot
  else if 2 ≤ partialBytes then
    ((flashSlotRecord slot).set (partialBytes - 1) 0).take partialBytes
  else (flashSlotRecord slot).take partialBytes

/-- Writes `n` records from the `i`th on. -/
def emitRecords (slot : UInt8) (wholeCount partialBytes : ℕ) : ℕ → ℕ → ℕ → Step
  | 0, _, _ => fun p => (true, p)
  | n + 1, i, dataOff => fun p =>
    match Firmware.flashSlots.slots[i]? with
    | none => (false, p)
    | some record =>
      let bytes := emittedRecord wholeCount partialBytes i record
      emitRecords slot wholeCount partialBytes n (i + 1) (dataOff + bytes.length)
        (dataWrite slot dataOff bytes p)

def getFlashSlotInfoAll : Step := fun p =>
  let total := Firmware.flashSlots.total
  if p.cfg.dataSize < 4 then
    (true, dataWrite p.activeSlot 0 ([total, 0, 0, 0].take p.cfg.dataSize) p)
  else
    let space := p.cfg.dataSize - 4
    let wholeCount := min (space / 32 % 256) total.toNat
    let partialBytes := space - wholeCount * 32
    let partialFlag := if wholeCount < total.toNat ∧ 0 < partialBytes then 1 else 0
    let preamble := [total, UInt8.ofNat wholeCount, UInt8.ofNat partialFlag, 0]
    emitRecords p.activeSlot wholeCount partialBytes (wholeCount + partialFlag) 0 4
      (dataWrite p.activeSlot 0 preamble p)

def getRamSlotInfoAll : Step := fun p =>
  let romType :=
    match oraGetRamSlotInfo p.rt p.activeSlot.toNat with
    | .error _ => 0xFF
    | .ok _ => Firmware.romType
  answer [UInt8.ofNat (hostSlotCount p), p.activeSlot, UInt8.ofNat romType, 0] p

/-- Its name, padded to 24 bytes. -/
def deviceType : List UInt8 :=
  [0x4F, 0x6E, 0x65, 0x20, 0x52, 0x4F, 0x4D] ++ List.replicate 17 0

def getDeviceType : Step := answer deviceType

def getDeviceVersion : Step := answerIn 0 fun _ => Firmware.deviceVersion

def getProtocolVersion : Step := answer [0, 1, 3, 0]

def getBootSlotInfo : Step := fun p => answer [p.bootFlashSlot, p.bootRamSlot, 0, 0] p

/-- A byte of a RAM slot, by its logical offset. -/
def peekByte (p : Plugin) (slotBase addr : ℕ) : UInt8 :=
  UInt8.ofNat (pioDemangleData p.rt.currentSlot
    (p.mem (slotBase + pioMapAddrToPhys p.rt.currentSlot addr)).toNat)

/-- Answers with chunks of 32 bytes, each read once those before it are written. -/
def peekChunks (slotBase addr : ℕ) : ℕ → ℕ → ℕ → Plugin → Plugin
  | 0, _, _ => id
  | n + 1, dataOff, remaining => fun p =>
    let chunk := min 32 remaining
    let buf := (List.range chunk).map fun i => peekByte p slotBase (addr + dataOff + i)
    peekChunks slotBase addr n (dataOff + chunk) (remaining - chunk)
      (dataWrite p.activeSlot dataOff buf p)

def slotPeek (count : UInt8) (addr : ℕ) (target : UInt8) : Step :=
  namingSlot target fun p =>
    if p.cfg.dataSize < byteCount count then (false, p)
    else
      match oraGetRamSlotInfo p.rt target.toNat with
      | .error _ => (false, p)
      | .ok info =>
        if info.size < addr + byteCount count then (false, p)
        else (true, peekChunks info.addr addr ((byteCount count + 31) / 32) 0 (byteCount count) p)

/-! ### Modify -/

/-- Does what may be refused. -/
def trying (call : Plugin → Option Plugin) : Step := fun p =>
  match call p with
  | none => (false, p)
  | some p => (true, p)

def slotPoke (byte : UInt8) (addr : ℕ) (target : UInt8) : Step :=
  namingSlot target (trying fun p => reprogram p target addr [byte])

def switchSlot (target : UInt8) : Step :=
  namingSlot target (trying fun p => setActiveRamSlot p target)

/-- A switch in command-response mode, which takes the back-channel along. -/
def switchSlotAndFollow (target : UInt8) : Step := fun p =>
  let (ok, p) := switchSlot target p
  if ok then
    match oraGetActiveRamSlot p.rt with
    | .ok newSlot => (ok, { p with activeSlot := UInt8.ofNat newSlot })
    | .error _ => (ok, p)
  else (ok, p)

def loadSlot (ramSlot flashSlot : UInt8) : Step := fun p =>
  if ramSlot = 0xAA ∨ flashSlot = 0xAA then (false, p)
  else namingSlot ramSlot (trying fun p => copyFlashToRam p flashSlot ramSlot) p

/-- Writes the byte at `n` offsets from `i` on. -/
def pokeFrom (target byte : UInt8) : ℕ → ℕ → Step
  | 0, _ => fun p => (true, p)
  | n + 1, i => fun p =>
    match reprogram p target i [byte] with
    | none => (false, p)
    | some p => pokeFrom target byte n (i + 1) p

def slotPokeAllByte (byte target : UInt8) : Step :=
  namingSlot target fun p =>
    match oraGetRamSlotInfo p.rt target.toNat with
    | .error _ => (false, p)
    | .ok _ =>
      let chipSize := Firmware.chipSizeFromType Firmware.romType
      if chipSize = 0 then (false, p) else pokeFrom target byte chipSize 0 p

/-! ### NV storage -/

def nvDiscardImpl (p : Plugin) : Plugin := initNvState p

def getNvCapability : Step :=
  answer [UInt8.ofNat NV_STORAGE_SIZE, UInt8.ofNat (NV_STORAGE_SIZE / 256), 1, 0x85]

def nvPeek (count locLsb locMsb : UInt8) : Step := fun p =>
  if 0x7F < locMsb.toNat then (false, p)
  else
    let location := word16 locLsb locMsb
    if NV_STORAGE_SIZE < location + byteCount count then (false, p)
    else if p.cfg.dataSize < byteCount count then (false, p)
    else answer ((List.range (byteCount count)).map fun i => p.nv (location + i)) p

/-- The base of the highest run of slots of the plugin's own that holds NV storage. -/
def nvPrivateStaging (p : Plugin) : Option ℕ :=
  let total := oraGetRamSlotCount p.rt
  let host := hostSlotCount p
  if total ≤ host then none
  else
    match oraGetRamSlotInfo p.rt host with
    | .error _ => none
    | .ok info =>
      if info.size = 0 then none
      else
        let slotsNeeded := (NV_STORAGE_SIZE + info.size - 1) / info.size
        if total - host < slotsNeeded then none
        else
          match oraGetRamSlotInfo p.rt (total - slotsNeeded) with
          | .error _ => none
          | .ok info => some info.addr

/-- Where a transaction is staged: in the plugin's own slots, or in the one the host lends. -/
def stagingFor (p : Plugin) (slot : UInt8) : Option (ℕ × ℕ) :=
  match nvPrivateStaging p with
  | some base => some (base, NV_STORAGE_SIZE)
  | none =>
    match oraGetRamSlotInfo p.rt slot.toNat with
    | .error _ => none
    | .ok info => if info.size < NV_STORAGE_SIZE then none else some (info.addr, info.size)

def nvPokeBeginImpl (slot : UInt8) : Step := fun p =>
  if p.nvState.active then (false, p)
  else if ¬hostSlotValid p slot then (false, p)
  else if slot = p.activeSlot then (false, p)
  else
    match stagingFor p slot with
    | none => (false, p)
    | some (base, size) =>
      (true,
        { p with
          mem := fill p.mem base NV_STORAGE_SIZE p.nv
          nvState := ⟨true, slot, base, size⟩ })

/-- A write without a slot is one of a single byte. -/
def nvPokeBegin (slot : UInt8) : Step := fun p =>
  if slot = 0xAA then (false, p)
  else if slot = 0xFE then (false, p)
  else nvPokeBeginImpl slot p

def nvPokeImpl (byte locLsb locMsb : UInt8) : Step := fun p =>
  if ¬p.nvState.active then (false, p)
  else if 0x7F < locMsb.toNat then (false, p)
  else
    let location := word16 locLsb locMsb
    if NV_STORAGE_SIZE ≤ location then (false, p)
    else (true, { p with mem := Function.update p.mem (p.nvState.stagingBase + location) byte })

def nvPokeDiscard : Step := fun p =>
  if ¬p.nvState.active then (false, p) else (true, nvDiscardImpl p)

def nvPokeCommit : Step := fun p =>
  if ¬p.nvState.active then (false, p) else (true, { p with nvDeferred := .slot })

/-- A write without a slot names a byte of the window. -/
def noslotRefused (p : Plugin) (locLsb locMsb : UInt8) : Bool :=
  0x7F < locMsb.toNat || word16 locLsb locMsb < NV_NOSLOT_BASE ||
    NV_STORAGE_SIZE ≤ word16 locLsb locMsb || p.nvState.active

def nvPokeCommitByte (byte locLsb locMsb slot : UInt8) : Step := fun p =>
  let location := word16 locLsb locMsb
  if slot = 0xAA then (false, p)
  else if slot = 0xFE ∧ noslotRefused p locLsb locMsb then (false, p)
  else if locMsb.toNat ≤ 0x7F ∧ location < NV_STORAGE_SIZE ∧ p.nv location = byte then (true, p)
  else if slot = 0xFE then
    (true, { p with nvDeferred := .noslot byte (location - NV_NOSLOT_BASE) })
  else
    match nvPokeBeginImpl slot p with
    | (false, p) => (false, p)
    | (true, p) =>
      match nvPokeImpl byte locLsb locMsb p with
      | (false, p) => (false, nvDiscardImpl p)
      | (true, p) => nvPokeCommit p

/-- Erases NV storage and writes a page of it, or all of it. It fails before anything is erased, or
not at all. -/
def nvFlashWrite (offset size : ℕ) (src : ℕ → UInt8) : Step := fun p =>
  let q := { p with nvWrites := p.nvWrites + 1 }
  if Firmware.nvReady p.nvWrites then
    (true,
      { q with
        nv := fun i =>
          if i < NV_STORAGE_SIZE then
            if offset ≤ i ∧ i < offset + size then src (i - offset) else 0xFF
          else p.nv i })
  else (false, q)

/-- The page that a write without a slot puts back: the stack's bytes, then the window. -/
def noslotPage (p : Plugin) (byte : UInt8) (offset : ℕ) (i : ℕ) : UInt8 :=
  if i < NV_FLASH_PAGE - NV_NOSLOT_SIZE then Firmware.stackByte p.nvWrites i
  else if i - (NV_FLASH_PAGE - NV_NOSLOT_SIZE) = offset then byte
  else p.nv (NV_NOSLOT_PAGE + i)

def nvDeferredRun : Step := fun p =>
  let kind := p.nvDeferred
  let p := { p with nvDeferred := .none }
  match kind with
  | .none => (false, p)
  | .slot =>
    let (ok, p) := nvFlashWrite 0 NV_STORAGE_SIZE (fun i => p.mem (p.nvState.stagingBase + i)) p
    (ok, if ok then nvDiscardImpl p else p)
  | .noslot byte offset => nvFlashWrite NV_NOSLOT_PAGE NV_FLASH_PAGE (noslotPage p byte offset) p

end OneRom.Rbcp
