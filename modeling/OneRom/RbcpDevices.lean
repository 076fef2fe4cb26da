import OneRom.RbcpCommands

/-!
The commands of the pipe, auxiliary I/O and LED groups, which reach the log channels, the GPIOs and
the LEDs. What the firmware lacks takes something away from the host: a call that is missing makes
a count zero.
-/

namespace OneRom.Rbcp

open OneRom.LedEngine (Mode LedRequest ledMinPeriod)
open OneRom.RamSlot (oraGetRamSlotInfo)

variable [Firmware]

/-! ### Pipes -/

/-- A pipe is a log channel. -/
def pipeCount (p : Plugin) : ℕ :=
  match Firmware.logOpenWrite, Firmware.logWrite, Firmware.logQuery with
  | some _, some _, some query =>
    if (query 0 p.log).isNone then 0
    else
      match Firmware.logOpenRead, Firmware.logRead with
      | some _, some _ => if (query 1 p.log).isNone then 1 else 2
      | _, _ => 1
  | _, _, _ => 0

/-- The host writes pipe 0 and reads pipe 1. -/
def pipeOut (pipe : UInt8) : Bool := pipe == 0

def saturate (n : ℕ) : UInt8 := UInt8.ofNat (min n 255)

def logQuery (p : Plugin) (pipe : UInt8) : Option (ℕ × ℕ) :=
  Firmware.logQuery.bind fun query => query pipe.toNat p.log

def getPipeCapability : Step :=
  answerIn 8 fun p => some (UInt8.ofNat (pipeCount p) :: List.replicate 7 0)

def getPipeInfo (pipe : UInt8) : Step := fun p =>
  if pipe = 0xAA then (false, p)
  else
    answerIn 8 (fun p =>
      if pipeCount p ≤ pipe.toNat then none
      else
        (logQuery p pipe).map fun (free, waiting) =>
          [0, if pipeOut pipe then 1 else 2, if pipeOut pipe then saturate free else 0,
            if pipeOut pipe then 0 else saturate waiting, 0, 0, 0, 0]) p

def claimBit (pipe : UInt8) : UInt8 := 1 <<< pipe

/-- A channel is claimed when it is first written. -/
def claimWrite (pipe : UInt8) (p : Plugin) : Option Plugin :=
  if p.pipesClaimed &&& claimBit pipe ≠ 0 then some p
  else
    (Firmware.logOpenWrite.bind fun openWrite => openWrite pipe.toNat p.log).map fun log =>
      { p with log, pipesClaimed := p.pipesClaimed ||| claimBit pipe }

def claimRead (pipe : UInt8) (p : Plugin) : Option Plugin :=
  if p.pipesReadClaimed &&& claimBit pipe ≠ 0 then some p
  else
    (Firmware.logOpenRead.bind fun openRead => openRead pipe.toNat p.log).map fun log =>
      { p with log, pipesReadClaimed := p.pipesReadClaimed ||| claimBit pipe }

def pipeWrite (data : List UInt8) (pipe count : UInt8) : Step := fun p =>
  if count = 0 ∨ 4 < count.toNat then (false, p)
  else if pipeCount p ≤ pipe.toNat then (false, p)
  else if ¬pipeOut pipe then (false, p)
  else
    match claimWrite pipe p with
    | none => (false, p)
    | some p =>
      match Firmware.logWrite.bind fun write => write pipe.toNat (data.take count.toNat) p.log with
      | none => (false, p)
      | some log => (true, { p with log })

/-- Copies what is waiting into the answer, 32 bytes at a time, and gives how much. -/
def pipeReadLoop (pipe : UInt8) (wanted : ℕ) : ℕ → ℕ → Plugin → Option ℕ × Plugin
  | 0, total => fun p => (some total, p)
  | n + 1, total => fun p =>
    if wanted ≤ total then (some total, p)
    else
      match Firmware.logRead.bind fun read => read pipe.toNat (min 32 (wanted - total)) p.log with
      | none => (none, p)
      | some (copied, log) =>
        if copied = [] then (some total, { p with log })
        else
          pipeReadLoop pipe wanted n (total + copied.length)
            (dataWrite p.activeSlot (8 + total) copied { p with log })

def pipeRead (countArg pipe : UInt8) : Step := fun p =>
  let wanted := byteCount countArg
  if pipe = 0xAA then (false, p)
  else if p.cfg.dataSize < 8 + wanted then (false, p)
  else if pipeCount p ≤ pipe.toNat then (false, p)
  else if pipeOut pipe then (false, p)
  else
    match claimRead pipe p with
    | none => (false, p)
    | some p =>
      match pipeReadLoop pipe wanted wanted 0 p with
      | (none, p) => (false, p)
      | (some total, p) =>
        let waiting := ((logQuery p pipe).map (·.2)).getD 0
        let full := total = wanted
        answer [if full then countArg else UInt8.ofNat total, if full then 2 else 0,
          saturate waiting, 0, 0, 0, 0, 0] p

/-! ### Auxiliary pins -/

def ORA_GPIO_NONE : UInt8 := 0xFF

inductive AuxKind
  | gpio | imgSel | x
  deriving DecidableEq

def auxGpioCount : ℕ :=
  match Firmware.rpVariant with
  | some 0 => 48
  | some 1 => 30
  | _ => 0

def auxAvailable : Bool :=
  Firmware.gpioSet.isSome && Firmware.gpioQuery.isSome && auxGpioCount != 0

def auxMaxHold : UInt8 := if Firmware.hasUptime then 0xFF else 0

/-- The entry of an array of GPIOs, where it is one. -/
def auxMeta (key : GpioKey) (i : ℕ) : Option UInt8 :=
  (Firmware.metadataUintAt.bind fun at' => at' key i).filter (· ≠ ORA_GPIO_NONE)

/-- The entries before the first that isn't there. -/
def auxMetaList (key : GpioKey) (n : ℕ) : List UInt8 :=
  ((List.range n).map (auxMeta key)).takeWhile Option.isSome |>.reduceOption

/-- The GPIOs of an X pad, of which there are one or two on a board that has it. -/
def auxXPad (key : GpioKey) : List UInt8 := auxMetaList key 2

def auxXPads : List (List UInt8) := [auxXPad .x1, auxXPad .x2].filter (· ≠ [])

/-- The GPIOs that an auxiliary pin reaches. -/
def auxPinGpios (kind : AuxKind) (pin : UInt8) : Option (List UInt8) :=
  match kind with
  | .gpio => if auxGpioCount ≤ pin.toNat then none else some [pin]
  | .imgSel => (auxMetaList .sel 255)[pin.toNat]?.map fun gpio => [gpio]
  | .x => auxXPads[pin.toNat]?

def auxKindPins (kind : AuxKind) : ℕ :=
  if auxAvailable = false then 0
  else
    match kind with
    | .gpio => auxGpioCount
    | .imgSel => (auxMetaList .sel 255).length
    | .x => auxXPads.length

def auxKindType : AuxKind → UInt8
  | .gpio => 0x01
  | .imgSel => 0x80
  | .x => 0x81

/-- The kinds that have pins, which are the groups. -/
def auxGroups : List AuxKind := [AuxKind.gpio, .imgSel, .x].filter (auxKindPins · ≠ 0)

def auxGroupKind (group : UInt8) : Option AuxKind := auxGroups[group.toNat]?

def gpioQuery (p : Plugin) (gpio : UInt8) : Option GpioInfo :=
  Firmware.gpioQuery.bind fun query => query gpio p.gpio

/-- A GPIO that One ROM has no use for, or only forces the input of. -/
def auxFree (info : GpioInfo) : Bool := info.use == 0 || info.use == 4

/-- The flags, the level and whether the pin is driven. All are zero where a GPIO isn't known. -/
def auxPinInfo (p : Plugin) (gpios : List UInt8) : List UInt8 :=
  match gpios.mapM (gpioQuery p) with
  | none => [0, 0, 0]
  | some infos =>
    let drivable := gpios ≠ [] ∧ infos.all auxFree
    [if drivable then 3 else 2, (infos.head?.map (·.level)).getD 0,
      (infos.head?.map (·.isOutput)).getD 0]

def auxStateValid (state : UInt8) : Bool := state == 0 || state == 1 || state == 2

/-- The GPIOs of the pin that is to be set, unless an argument is refused. -/
def auxSetValid (p : Plugin) (state after hold pin group : UInt8) : Option (List UInt8) :=
  if group = 0xAA then none
  else
    match auxGroupKind group with
    | none => none
    | some kind =>
      if auxKindPins kind ≤ pin.toNat then none
      else if ¬auxStateValid state then none
      else if hold ≠ 0 ∧ (auxMaxHold.toNat < hold.toNat ∨ ¬auxStateValid after) then none
      else
        match auxPinGpios kind pin with
        | none => none
        | some gpios =>
          if (auxPinInfo p gpios).head?.getD 0 &&& 1 = 0 then none else some gpios

/-- Drives the GPIOs of a pin, up to the first that is refused. -/
def auxPinDrive (state : UInt8) : List UInt8 → Step
  | [] => fun p => (true, p)
  | gpio :: gpios => fun p =>
    match Firmware.gpioSet.bind fun set => set gpio state p.gpio with
    | none => (false, p)
    | some g => auxPinDrive state gpios { p with gpio := g }

/-- The time of the hold is passed, and nothing is done in it. -/
def auxHold (gpios : List UInt8) (after hold : UInt8) (p : Plugin) : Plugin :=
  if hold = 0 then p else (auxPinDrive after gpios p).2

def getAuxCapability : Step :=
  answerIn 8 fun _ =>
    some (UInt8.ofNat auxGroups.length :: auxMaxHold :: List.replicate 6 0)

def getAuxGroupInfo (group : UInt8) : Step :=
  answerIn 8 fun _ =>
    if group = 0xAA then none
    else (auxGroupKind group).map fun kind =>
      auxKindType kind :: UInt8.ofNat (auxKindPins kind) :: List.replicate 6 0

def getAuxPinInfo (pin group : UInt8) : Step :=
  answerIn 8 fun p =>
    if group = 0xAA then none
    else
      (auxGroupKind group).bind fun kind =>
        if auxKindPins kind ≤ pin.toNat then none
        else (auxPinGpios kind pin).map fun gpios => auxPinInfo p gpios ++ List.replicate 5 0

def setAux (state after hold pin group : UInt8) : Step := fun p =>
  match auxSetValid p state after hold pin group with
  | none => (false, p)
  | some gpios =>
    match auxPinDrive state gpios p with
    | (false, p) => (false, p)
    | (true, p) => (true, auxHold gpios after hold p)

/-- Drives the pin and switches, in the order the flag says. -/
def setAuxSwitch (state after hold pin group slot : UInt8) (slotFirst : Bool) : Step := fun p =>
  match auxSetValid p state after hold pin group with
  | none => (false, p)
  | some gpios =>
    match if slotFirst then setActiveRamSlot p slot else some p with
    | none => (false, p)
    | some p =>
      match auxPinDrive state gpios p with
      | (false, p) => (false, p)
      | (true, p) =>
        match if slotFirst then some p else setActiveRamSlot p slot with
        | none => (false, p)
        | some p => (true, auxHold gpios after hold p)

def setAuxSwitchExit (state after hold flags pin group slot : UInt8) : Step := fun p =>
  let p := { p with active := false }
  if slot = 0xAA then (false, p)
  else if flags &&& ~~~1 ≠ 0 then (false, p)
  else if ¬hostSlotValid p slot then (false, p)
  else setAuxSwitch state after hold pin group slot (flags &&& 1 ≠ 0) p

/-! ### LEDs -/

def ORA_LED_STATUS : UInt8 := 0
def ORA_LED_RGB : UInt8 := 1

def ledOraState (p : Plugin) (oraLed : UInt8) : Option OraLedState :=
  Firmware.ledGet.bind fun get => get oraLed p.led

/-- The channels the board has an LED on, which the host numbers from zero. -/
def ledChannels (p : Plugin) : List (UInt8 × OraLedState) :=
  if Firmware.ledSet.isNone then []
  else
    [ORA_LED_STATUS, ORA_LED_RGB].filterMap fun ch =>
      ((ledOraState p ch).filter (·.present)).map fun st => (ch, st)

def ledResolve (p : Plugin) (led : UInt8) : Option (UInt8 × OraLedState) :=
  (ledChannels p)[led.toNat]?

/-- The modes the protocol has, as it numbers them, in the firmware's terms. -/
def ledModeTable : List (UInt8 × Mode) :=
  [(0, .off), (1, .on), (2, .blink), (3, .breathe), (4, .cycle), (5, .beacon), (0x80, .flame)]

/-- Colour modes are the RGB LED's alone. -/
def ledOraMode (oraLed mode : UInt8) : Option Mode :=
  ((ledModeTable.find? (·.1 == mode)).map (·.2)).filter fun m =>
    oraLed == ORA_LED_RGB || (m != .breathe && m != .cycle)

/-- The firmware's number of a mode. -/
def modeCode : Mode → UInt8
  | .off => 0
  | .on => 1
  | .beacon => 2
  | .flame => 3
  | .cycle => 4
  | .breathe => 5
  | .blink => 6

def ledRbcpMode (oraMode : UInt8) : UInt8 :=
  ((ledModeTable.find? fun entry => modeCode entry.2 == oraMode).map (·.1)).getD 0xFF

def ledPeriodUnits (periodMs : UInt16) : UInt8 :=
  UInt8.ofNat (min ((periodMs.toNat + 50) / 100) 255)

def ledMinPeriodUnits (mode : Mode) : UInt8 :=
  let units := ((ledMinPeriod mode).toNat + 99) / 100
  if 1 < units then UInt8.ofNat units else 0

def ledModes (oraLed : UInt8) : UInt8 := if oraLed = ORA_LED_RGB then 0x3F else 0x27

def getLedCapability : Step :=
  answerIn 8 fun p =>
    let count := UInt8.ofNat (ledChannels p).length
    some (count :: if count = 0 then List.replicate 7 0 else [0xFF, 0xFF, 0, 0, 0, 0, 0])

def getLedInfo (led : UInt8) : Step :=
  answerIn 16 fun p =>
    if led = 0xAA then none
    else (ledResolve p led).map fun (oraLed, st) =>
      (if oraLed = ORA_LED_RGB then
          [1, ledRbcpMode st.mode, st.red, st.green, st.blue, st.brightness]
        else [0, ledRbcpMode st.mode, 0xFF, 0, 0, 0]) ++
        [ledPeriodUnits st.periodMs, 0, ledModes oraLed] ++ List.replicate 7 0

def getLedModeInfo (mode led : UInt8) : Step :=
  answerIn 8 fun p =>
    if led = 0xAA then none
    else
      (ledResolve p led).bind fun (oraLed, _) =>
        (ledOraMode oraLed mode).map fun m =>
          if ledMinPeriod m = 0 then List.replicate 8 0
          else 1 :: ledMinPeriodUnits m :: List.replicate 6 0

def setLed (mode red green blue brightness period hold led : UInt8) : Step := fun p =>
  if led = 0xAA then (false, p)
  else
    match ledResolve p led with
    | none => (false, p)
    | some (oraLed, _) =>
      match ledOraMode oraLed mode with
      | none => (false, p)
      | some m =>
        if 100 < brightness.toNat then (false, p)
        else
          let req : LedRequest :=
            { size := 16
              led := oraLed
              mode := modeCode m
              brightness
              red
              green
              blue
              periodMs := UInt16.ofNat (period.toNat * 100)
              holdMs := UInt32.ofNat (hold.toNat * 100) }
          match Firmware.ledSet.bind fun set => set req p.led with
          | none => (false, p)
          | some l => (true, { p with led := l })

end OneRom.Rbcp
