import OneRom.Checks

/-!
The LED engine: the status LED, driven from SIO, and the RGB LED, driven by a state machine. A
request sets what an LED does, and frames keep it going. On some boards the two share a pin, which
the state machine owns while a pixel is clocked out and the status LED has the rest of the time.
-/

namespace OneRom.LedEngine

open Checks

/-- Where a board has its LEDs, and how many GPIOs its chip has. -/
structure LedHw where
  maxGpios : UInt8
  gpioStatus : UInt8
  gpioNeopixel : UInt8

inductive Led
  | status
  | rgb
  deriving DecidableEq, Repr

inductive Mode
  | off
  | on
  | beacon
  | flame
  | cycle
  | breathe
  | blink
  deriving DecidableEq, Repr

/-- What an LED is set to. -/
structure Settings where
  mode : Mode
  brightness : UInt8
  red : UInt8
  green : UInt8
  blue : UInt8
  periodMs : UInt16
  deriving DecidableEq, Repr

/-- What one LED is doing. -/
structure Channel where
  inForce : Settings
  /-- What a hold returns the LED to. -/
  saved : Settings
  step : UInt8
  lit : Bool
  nextFrameMs : UInt32
  /-- When a hold ends. Zero is no hold. -/
  holdExpiryMs : UInt32

/-- What has happened on the shared pin. No code reads it. -/
structure Seen where
  /-- When the line was last high under the status LED, before its present level. -/
  lastHigh : Option ℕ
  /-- When a pixel was last handed to the state machine. -/
  lastPixel : Option ℕ
  /-- When the waiting pixel may go, and how much later than that the last one went. -/
  waitsUntil : ℕ
  late : ℕ
  /-- When the pin is due back with the status LED. -/
  dueBack : ℕ
  /-- When the status LED was last lit, or given the pin. -/
  litAt : ℕ

/-- The state machine's claim, the engine's flags and due times, and the pad. -/
structure Pin where
  claimed : Bool
  parkPending : Bool
  pinWithPio : Bool
  writePending : Bool
  parkedHigh : Bool
  resetOwed : Bool
  parkDueUs : UInt32
  writeDueUs : UInt32
  pendingPixel : UInt32
  statusLedEnabled : Bool
  /-- Whether the RGB LED's pad follows the state machine. -/
  pioOwns : Bool
  /-- The level SIO has out for the status LED's pad. -/
  sioHigh : Bool
  seen : Seen

/-- What is done to the pin, when, and with what found there. -/
inductive Moment
  /-- A frame begins. -/
  | frame (us : ℕ) (pin : Pin)
  /-- A colour is to be shown. -/
  | writing (us : ℕ) (pin : Pin)
  /-- A pixel is handed to the state machine. -/
  | handed (us : ℕ) (grb : UInt32) (pin : Pin)
  /-- The pin is taken back for the status LED. -/
  | parking (us : ℕ) (pin : Pin)

structure Engine where
  channel : Led → Channel
  pin : Pin
  log : List Moment

/-! ### Constants -/

def gpioNone : UInt8 := 255
def ledParkDelayUs : UInt32 := 150
def ledResetDelayUs : UInt32 := 200
def ledMaxHoldMs : UInt32 := 60000
def ledBeaconDefaultDurationMs : UInt32 := 2500
def ledRequestMinSize : UInt8 := 16
def ledMinFrameMs : UInt32 := 10
def ledDefaultBrightness : UInt8 := 25
def ledFlameDefaultPeriodMs : UInt32 := 575
def ledCycleSteps : UInt8 := 100
def ledBreatheSteps : UInt8 := 100

/-- The flame's flicker, as on and off times in milliseconds. -/
def ledFlameTable : List (Bool × UInt32) :=
  [(true, 60), (true, 40), (false, 15), (true, 35), (true, 55),
   (false, 20), (true, 70), (false, 10), (true, 45), (true, 30),
   (false, 25), (true, 50), (true, 65), (false, 15), (true, 40)]

/-! ### The board -/

/-- Whether a board wires both LEDs to one GPIO. -/
def ledPinIsShared (hw : LedHw) : Bool :=
  hw.gpioStatus < hw.maxGpios && hw.gpioStatus == hw.gpioNeopixel

/-- The GPIO an LED is on, or none. -/
def ledGpio (hw : LedHw) (led : Led) : Option UInt8 :=
  let gpio := match led with
    | .rgb => hw.gpioNeopixel
    | .status => hw.gpioStatus
  if gpio < hw.maxGpios then some gpio else none

/-! ### Modes -/

def ledModeRepeats : Mode → Bool
  | .beacon | .flame | .cycle | .breathe | .blink => true
  | _ => false

def ledModeNeedsColour : Mode → Bool
  | .cycle | .breathe => true
  | _ => false

def ledDefaultPeriod : Mode → UInt16
  | .cycle | .breathe => 5000
  | .blink => 1000
  | .beacon => 100
  | .flame => 575
  | _ => 0

def ledMinPeriod : Mode → UInt16
  | .cycle | .breathe => 1000
  | .blink | .beacon => 50
  | .flame => 500
  | _ => 0

def ledModeSteps : Mode → UInt32
  | .cycle => ledCycleSteps.toUInt32
  | .breathe => ledBreatheSteps.toUInt32
  | .blink | .beacon => 2
  | _ => 1

/-- The milliseconds between frames. -/
def ledFrameInterval (s : Settings) : UInt32 :=
  let interval := s.periodMs.toUInt32 / ledModeSteps s.mode
  if interval < ledMinFrameMs then ledMinFrameMs else interval

/-- The colour at a step through the hue circle. -/
def ledHue (step : UInt8) : UInt8 × UInt8 × UInt8 :=
  let position := step.toUInt32 * 1536 / ledCycleSteps.toUInt32
  let along := (position % 256).toUInt8
  let back := 255 - along
  match (position / 256).toUInt8 with
  | 0 => (255, along, 0)
  | 1 => (back, 255, 0)
  | 2 => (0, 255, along)
  | 3 => (0, back, 255)
  | 4 => (along, 0, 255)
  | _ => (255, 0, back)

/-- How far up the fade a breathe step is. -/
def ledBreatheLevel (step : UInt8) : UInt8 :=
  let half := ledBreatheSteps / 2
  if step < half then (step.toUInt32 * 255 / half.toUInt32).toUInt8
  else ((ledBreatheSteps - step).toUInt32 * 255 / half.toUInt32).toUInt8

/-! ### Time -/

/-- Milliseconds since the timer started, in 32-bit pieces as the firmware works them out. -/
def oraGetPluginUptimeMs (us : UInt64) : UInt32 :=
  let hi := (us >>> 32).toUInt32
  let lo := us.toUInt32
  let r := hi % 1000
  r * 4294967 + lo / 1000 + (r * 296 + lo % 1000) / 1000

/-- A deadline has come: the difference is not negative as a signed number. -/
def reached (now due : UInt32) : Bool := now - due < 0x80000000

/-! ### The pad -/

namespace Pin

/-- When the line was last high under the status LED, up to now. -/
def lastHigh (p : Pin) (us : ℕ) : Option ℕ :=
  if p.pioOwns = false ∧ p.sioHigh then some us else p.seen.lastHigh

/-- The pad is given to the state machine, whose program leaves the line low. -/
def toPio (p : Pin) (us : ℕ) : Pin :=
  { p with pioOwns := true, seen := { p.seen with lastHigh := p.lastHigh us } }

/-- The pad is given to SIO. -/
def toSio (p : Pin) (us : ℕ) : Pin :=
  { p with pioOwns := false, seen := { p.seen with lastHigh := p.lastHigh us } }

/-- SIO's output for the status LED's pad. Where the state machine owns the pad it reaches
nothing. -/
def sio (p : Pin) (us : ℕ) (high : Bool) : Pin :=
  { p with
    sioHigh := high
    seen := { p.seen with lastHigh := p.lastHigh us } }

end Pin

def statusLedOn (us : ℕ) (p : Pin) : Pin := p.sio us false

def statusLedOff (us : ℕ) (p : Pin) : Pin := p.sio us true

/-- Reclaims the pin for SIO, driven high. -/
def setupStatusLed (us : ℕ) (p : Pin) : Pin := (p.toSio us).sio us true

/-! ### The RGB LED -/

namespace Engine

def setPin (e : Engine) (p : Pin) : Engine := { e with pin := p }

def setChannel (e : Engine) (led : Led) (ch : Channel) : Engine :=
  { e with channel := Function.update e.channel led ch }

def note (e : Engine) (m : Moment) : Engine := { e with log := e.log ++ [m] }

end Engine

/-- Hands a pixel to the state machine. -/
def ledPioWrite (us : UInt64) (grb : UInt32) (e : Engine) : Engine :=
  (e.note (.handed us.toNat grb e.pin)).setPin
    { e.pin with seen := { e.pin.seen with lastPixel := some us.toNat } }

/-- Programs and enables the state machine, which takes the pin low. -/
def ledPioClaim (hw : LedHw) (us : UInt64) (p : Pin) : Pin :=
  let p := { p.toPio us.toNat with claimed := true, resetOwed := true }
  if ledPinIsShared hw then
    { p with parkDueUs := us.toUInt32 + ledParkDelayUs, parkPending := true }
  else p

/-- Hands the shared pin back to the status LED. -/
def ledPark (hw : LedHw) (us : UInt64) (e : Engine) : Engine :=
  let p := { e.pin with parkPending := false }
  if ledPinIsShared hw then
    let p := setupStatusLed us.toNat { p with pinWithPio := false }
    let p := if p.statusLedEnabled then statusLedOn us.toNat p else statusLedOff us.toNat p
    (e.note (.parking us.toNat e.pin)).setPin
      { p with
        parkedHigh := !p.statusLedEnabled
        seen := { p.seen with litAt := us.toNat } }
  else e.setPin p

/-- Takes the shared pin back for the state machine. -/
def ledBorrowPin (hw : LedHw) (us : UInt64) (p : Pin) : Pin :=
  if ledPinIsShared hw then
    let p := p.toPio us.toNat
    { p with
      pinWithPio := true
      parkDueUs := us.toUInt32 + ledParkDelayUs
      parkPending := true
      seen := { p.seen with late := 0, dueBack := us.toNat + ledParkDelayUs.toNat } }
  else p

/-- A colour, scaled by brightness and by an envelope. -/
def ledPixel (brightness red green blue level : UInt8) : UInt32 :=
  let scale := brightness.toUInt32 * level.toUInt32
  let out (c : UInt8) : UInt32 := c.toUInt32 * scale / (100 * 255)
  (out green <<< 16) ||| (out red <<< 8) ||| out blue

/-- Sends a colour to the RGB LED. -/
def ledRgbWrite (hw : LedHw) (us : UInt64) (brightness red green blue level : UInt8)
    (e : Engine) : Engine :=
  match ledGpio hw .rgb with
  | none => e
  | some _ =>
    let e := e.note (.writing us.toNat e.pin)
    let p := ledBorrowPin hw us (if e.pin.claimed then e.pin else ledPioClaim hw us e.pin)
    let pixel := ledPixel brightness red green blue level
    if p.resetOwed || (ledPinIsShared hw && p.parkedHigh) then
      let due := us.toUInt32 + ledResetDelayUs
      e.setPin
        { p with
          pendingPixel := pixel
          writeDueUs := due
          writePending := true
          resetOwed := false
          parkDueUs := due + ledParkDelayUs
          seen := { p.seen with
            waitsUntil := us.toNat + ledResetDelayUs.toNat
            dueBack := us.toNat + ledResetDelayUs.toNat + ledParkDelayUs.toNat } }
    else if p.writePending then e.setPin { p with pendingPixel := pixel }
    else ledPioWrite us pixel (e.setPin p)

/-- Shows the colour of settings, lit or dark. -/
def ledRgbShow (hw : LedHw) (us : UInt64) (s : Settings) (lit : Bool) (e : Engine) : Engine :=
  ledRgbWrite hw us s.brightness s.red s.green s.blue (if lit then 255 else 0) e

/-! ### The status LED -/

/-- Lights or darkens the status LED, which is active low. -/
def ledStatusShow (hw : LedHw) (us : UInt64) (lit : Bool) (e : Engine) : Engine :=
  let p := { e.pin with
    statusLedEnabled := lit
    seen := { e.pin.seen with
      litAt := if lit && !e.pin.statusLedEnabled then us.toNat else e.pin.seen.litAt } }
  match ledGpio hw .status with
  | none => e.setPin p
  | some _ => e.setPin (if lit then statusLedOn us.toNat p else statusLedOff us.toNat p)

/-! ### Driving a channel -/

/-- Puts an LED at the level its channel calls for. -/
def ledShow (hw : LedHw) (us : UInt64) (led : Led) (lit : Bool) (e : Engine) : Engine :=
  let ch := { e.channel led with lit := lit }
  let e := e.setChannel led ch
  match led with
  | .rgb => ledRgbShow hw us ch.inForce lit e
  | .status => ledStatusShow hw us lit e

/-- Takes a channel back to what it was doing before its hold. -/
def ledRestore (hw : LedHw) (us : UInt64) (led : Led) (e : Engine) : Engine :=
  let ch := e.channel led
  let ch := { ch with inForce := ch.saved, step := 0, holdExpiryMs := 0 }
  let e := ledShow hw us led (ch.inForce.mode != .off) (e.setChannel led ch)
  if ledModeRepeats ch.inForce.mode then
    e.setChannel led { e.channel led with nextFrameMs := oraGetPluginUptimeMs us }
  else e

/-- The next step of a channel, out of `steps`. -/
def nextStep (ch : Channel) (steps : UInt8) : UInt8 := (ch.step + 1) % steps

/-- Advances one repeating channel, if its deadline has come. -/
def ledAdvance (hw : LedHw) (us : UInt64) (led : Led) (nowMs : UInt32) (e : Engine) : Engine :=
  let ch := e.channel led
  if reached nowMs ch.nextFrameMs = false then e
  else
    let due (e : Engine) (interval : UInt32) : Engine :=
      e.setChannel led { e.channel led with nextFrameMs := nowMs + interval }
    match ch.inForce.mode with
    | .beacon =>
      let e := e.setChannel led { ch with step := nextStep ch 2 }
      due (ledShow hw us led (!ch.lit) e) (ledFrameInterval ch.inForce)
    | .flame =>
      let step := nextStep ch ledFlameTable.length.toUInt8
      let entry := ledFlameTable.getD step.toNat (false, 0)
      let e := e.setChannel led { ch with step := step }
      let ms := entry.2 * ch.inForce.periodMs.toUInt32 / ledFlameDefaultPeriodMs
      due (ledShow hw us led entry.1 e) (if ms < 1 then 1 else ms)
    | .cycle =>
      let step := nextStep ch ledCycleSteps
      let (red, green, blue) := ledHue step
      let e := e.setChannel led { ch with step := step, lit := true }
      due (ledRgbWrite hw us ch.inForce.brightness red green blue 255 e)
        (ledFrameInterval ch.inForce)
    | .breathe =>
      let step := nextStep ch ledBreatheSteps
      let level := ledBreatheLevel step
      let e := e.setChannel led { ch with step := step, lit := level != 0 }
      due (ledRgbWrite hw us ch.inForce.brightness ch.inForce.red ch.inForce.green
        ch.inForce.blue level e) (ledFrameInterval ch.inForce)
    | .blink =>
      let step := nextStep ch 2
      let e := e.setChannel led { ch with step := step }
      due (ledShow hw us led (step == 0) e) (ledFrameInterval ch.inForce)
    | _ => e

/-! ### Frames -/

/-- Hands over the waiting pixel, if its time has come. -/
def ledWriteDue (us : UInt64) (e : Engine) : Engine :=
  if e.pin.writePending && reached us.toUInt32 e.pin.writeDueUs then
    ledPioWrite us e.pin.pendingPixel (e.setPin { e.pin with
      writePending := false
      seen := { e.pin.seen with late := us.toNat - e.pin.seen.waitsUntil } })
  else e

/-- Gives the pin back, if it is due. -/
def ledParkDue (hw : LedHw) (us : UInt64) (e : Engine) : Engine :=
  if e.pin.parkPending && reached us.toUInt32 e.pin.parkDueUs then ledPark hw us e else e

/-- A channel's part of a frame. -/
def ledChannelFrame (hw : LedHw) (us : UInt64) (led : Led) (e : Engine) : Engine :=
  let nowMs := oraGetPluginUptimeMs us
  let ch := e.channel led
  if ch.holdExpiryMs ≠ 0 ∧ reached nowMs ch.holdExpiryMs then ledRestore hw us led e
  else if ledModeRepeats ch.inForce.mode then ledAdvance hw us led nowMs e
  else e

def pioLedFrame (hw : LedHw) (us : UInt64) (e : Engine) : Engine :=
  let e := e.note (.frame us.toNat e.pin)
  let e := ledParkDue hw us (ledWriteDue us e)
  ledChannelFrame hw us .rgb (ledChannelFrame hw us .status e)

/-! ### Requests -/

structure LedRequest where
  size : UInt8
  led : UInt8
  mode : UInt8
  brightness : UInt8
  red : UInt8
  green : UInt8
  blue : UInt8
  periodMs : UInt16
  holdMs : UInt32
  deriving DecidableEq

inductive OraResult
  | invalidArg
  | invalidSize
  | notSupported
  deriving DecidableEq

def ledOf : UInt8 → Option Led
  | 0 => some .status
  | 1 => some .rgb
  | _ => none

def modeOf : UInt8 → Option Mode
  | 0 => some .off
  | 1 => some .on
  | 2 => some .beacon
  | 3 => some .flame
  | 4 => some .cycle
  | 5 => some .breathe
  | 6 => some .blink
  | _ => none

/-- The checks a request passes before anything is changed. -/
def ledCheck (hw : LedHw) (req : LedRequest) : Except OraResult (Led × Mode) :=
  if req.size < ledRequestMinSize then .error .invalidSize
  else match ledOf req.led with
  | none => .error .invalidArg
  | some led => match modeOf req.mode with
    | none => .error .invalidArg
    | some mode =>
      if ledModeNeedsColour mode ∧ led ≠ .rgb then .error .invalidArg
      else if req.brightness > 100 then .error .invalidArg
      else if req.holdMs > ledMaxHoldMs then .error .invalidArg
      else if req.periodMs ≠ 0 ∧ req.periodMs < ledMinPeriod mode then .error .invalidArg
      else if ledGpio hw led = none then .error .notSupported
      else .ok (led, mode)

/-- How long a request holds, zero if it does not: a beacon that names no hold gets its own. -/
def holdOf (mode : Mode) (req : LedRequest) : UInt32 :=
  if mode = .beacon ∧ req.holdMs = 0 then ledBeaconDefaultDurationMs else req.holdMs

/-- What a request sets its LED to. -/
def settingsOf (led : Led) (mode : Mode) (req : LedRequest) : Settings :=
  let periodMs := if req.periodMs ≠ 0 then req.periodMs else ledDefaultPeriod mode
  match led with
  | .rgb =>
    let brightness := if req.brightness ≠ 0 then req.brightness else ledDefaultBrightness
    if req.red ||| req.green ||| req.blue ≠ 0 then
      ⟨mode, brightness, req.red, req.green, req.blue, periodMs⟩
    else ⟨mode, brightness, 255, 0, 0, periodMs⟩
  | .status => ⟨mode, 0, 0, 0, 0, periodMs⟩

/-- When a hold that begins now ends: zero is taken, so the end is never there. -/
def holdExpiry (nowMs holdMs : UInt32) : UInt32 :=
  if nowMs + holdMs = 0 then 1 else nowMs + holdMs

/-- A channel as a request leaves it, before it is shown. -/
def ledTake (nowMs : UInt32) (led : Led) (mode : Mode) (req : LedRequest) (ch : Channel) :
    Channel :=
  let holdMs := holdOf mode req
  let hold := holdMs ≠ 0
  let bounded := hold ∨ mode = .beacon
  let alreadyBounded := ch.holdExpiryMs ≠ 0 ∨ ch.inForce.mode = .beacon
  { ch with
    saved := if bounded ∧ ¬alreadyBounded then ch.inForce else ch.saved
    inForce := settingsOf led mode req
    step := 0
    holdExpiryMs := if hold then holdExpiry nowMs holdMs else ch.holdExpiryMs }

def pioLedSet (hw : LedHw) (us : UInt64) (req : LedRequest) (e : Engine) :
    Except OraResult Engine := do
  let (led, mode) ← ledCheck hw req
  let nowMs := oraGetPluginUptimeMs us
  let e := e.setChannel led (ledTake nowMs led mode req (e.channel led))
  let e := ledShow hw us led (mode != .off) e
  if ledModeRepeats mode then
    pure (e.setChannel led { e.channel led with
      nextFrameMs := nowMs + ledFrameInterval (e.channel led).inForce })
  else pure e

/-! ### Runs -/

/-- Nothing asked of either LED, and the state machine not claimed. -/
def Settings.dark : Settings := ⟨.off, 0, 0, 0, 0, 0⟩

def Channel.reset : Channel := ⟨.dark, .dark, 0, false, 0, 0⟩

/-- The pad as boot leaves it: SIO's, and driven high. -/
def Pin.reset : Pin :=
  ⟨false, false, false, false, false, false, 0, 0, 0, true, false, true, ⟨none, none, 0, 0, 0, 0⟩⟩

def Engine.reset : Engine := ⟨fun _ => .reset, .reset, []⟩

/-- A call of the engine, and the timer's count when it is made. -/
inductive Event
  | set (us : UInt64) (req : LedRequest)
  | frame (us : UInt64)

namespace Event

def us : Event → UInt64
  | set us _ => us
  | frame us => us

/-- The millisecond of a call. -/
def ms (ev : Event) : ℕ := ev.us.toNat / 1000

end Event

def step (hw : LedHw) (e : Engine) : Event → Except OraResult Engine
  | .set us req => pioLedSet hw us req e
  | .frame us => .ok (pioLedFrame hw us e)

/-- The calls made one after the other, every request accepted. -/
def run (hw : LedHw) (e : Engine) (evs : List Event) : Except OraResult Engine :=
  evs.foldlM (step hw) e

lemma run_cons {hw : LedHw} {e t : Engine} {ev : Event} {evs : List Event}
    (h : run hw e (ev :: evs) = .ok t) : ∃ m, step hw e ev = .ok m ∧ run hw m evs = .ok t := by
  unfold run at h
  rw [List.foldlM_cons] at h
  exact bind_eq_ok.mp h

lemma run_append {hw : LedHw} {e t : Engine} {pre post : List Event}
    (h : run hw e (pre ++ post) = .ok t) :
    ∃ m, run hw e pre = .ok m ∧ run hw m post = .ok t := by
  unfold run at h
  rw [List.foldlM_append] at h
  exact bind_eq_ok.mp h

/-! ### Times -/

/-- It rests on 2^32 = 1000 * 4294967 + 296. -/
lemma uptime_split {q r lo : ℕ} :
    (4294967296 * (1000 * q + r) + lo) / 1000
      = 4294967296 * q + (r * 4294967 + lo / 1000 + (r * 296 + lo % 1000) / 1000) := by omega

/-- The firmware's milliseconds are those of its microseconds, modulo 2^32. -/
lemma uptimeMs_toNat (us : UInt64) :
    (oraGetPluginUptimeMs us).toNat = us.toNat / 1000 % 2 ^ 32 := by
  have hus := us.toNat_lt
  have hhi : us.toNat / 4294967296 % 4294967296 = us.toNat / 4294967296 := by omega
  simp only [oraGetPluginUptimeMs, UInt32.toNat_add, UInt32.toNat_mul, UInt32.toNat_div,
    UInt32.toNat_mod, UInt64.toNat_toUInt32, UInt64.toNat_shiftRight, Nat.shiftRight_eq_div_pow]
  simp only [show (32 : UInt64).toNat % 64 = 32 from rfl, show (1000 : UInt32).toNat = 1000 from rfl,
    show (4294967 : UInt32).toNat = 4294967 from rfl, show (296 : UInt32).toNat = 296 from rfl,
    Nat.reducePow, hhi]
  obtain ⟨q, r, hr, hdiv⟩ : ∃ q r, r < 1000 ∧ us.toNat / 4294967296 = 1000 * q + r :=
    ⟨_, _, Nat.mod_lt _ (by decide), (Nat.div_add_mod _ 1000).symm⟩
  obtain ⟨lo, hlo, hmod⟩ : ∃ lo, lo < 4294967296 ∧ us.toNat % 4294967296 = lo :=
    ⟨_, Nat.mod_lt _ (by decide), rfl⟩
  have hsum : us.toNat = 4294967296 * (1000 * q + r) + lo := by omega
  -- none of the pieces overflows
  have h₁ : r * 4294967 % 4294967296 = r * 4294967 := Nat.mod_eq_of_lt (by omega)
  have h₂ : (r * 296 % 4294967296 + lo % 1000) % 4294967296 = r * 296 + lo % 1000 := by omega
  rw [hdiv, hmod, hsum, uptime_split, show (1000 * q + r) % 1000 = r by omega, h₁, h₂,
    Nat.mul_add_mod, Nat.mod_add_mod]

/-- Within half the range of the counter, a deadline has come when its time has. -/
lemma reached_iff {now due : UInt32} {t d : ℕ} (hnow : now.toNat = t % 2 ^ 32)
    (hdue : due.toNat = d % 2 ^ 32) (hd : d ≤ t + 2 ^ 31) (ht : t < d + 2 ^ 31) :
    reached now due = true ↔ d ≤ t := by
  simp only [reached, decide_eq_true_eq, UInt32.lt_iff_toNat_lt, UInt32.toNat_sub, hnow, hdue,
    show (0x80000000 : UInt32).toNat = 2147483648 from rfl]
  omega

/-- However late it is looked at, a deadline that has not come is not taken for one that has. -/
lemma le_of_reached {now due : UInt32} {t d : ℕ} (hnow : now.toNat = t % 2 ^ 32)
    (hdue : due.toNat = d % 2 ^ 32) (hd : d ≤ t + 2 ^ 31) (h : reached now due = true) :
    d ≤ t := by
  simp only [reached, decide_eq_true_eq, UInt32.lt_iff_toNat_lt, UInt32.toNat_sub, hnow, hdue,
    show (0x80000000 : UInt32).toNat = 2147483648 from rfl] at h
  omega

/-! ### What each part leaves of the channels -/

section Channels

variable (hw : LedHw) (us : UInt64) (e : Engine)

@[simp] lemma setChannel_same (led : Led) (ch : Channel) :
    (e.setChannel led ch).channel led = ch := Function.update_self ..

lemma setChannel_ne {led l : Led} (h : l ≠ led) (ch : Channel) :
    (e.setChannel led ch).channel l = e.channel l := Function.update_of_ne h _ _

@[simp] lemma setPin_channel (p : Pin) : (e.setPin p).channel = e.channel := rfl
@[simp] lemma note_channel (m : Moment) : (e.note m).channel = e.channel := rfl
@[simp] lemma setChannel_pin (led : Led) (ch : Channel) : (e.setChannel led ch).pin = e.pin := rfl
@[simp] lemma setChannel_log (led : Led) (ch : Channel) : (e.setChannel led ch).log = e.log := rfl

@[simp] lemma ledPioWrite_channel (grb : UInt32) :
    (ledPioWrite us grb e).channel = e.channel := rfl

@[simp] lemma ledPark_channel : (ledPark hw us e).channel = e.channel := by
  unfold ledPark
  dsimp only
  split <;> rfl

@[simp] lemma ledRgbWrite_channel (brightness red green blue level : UInt8) :
    (ledRgbWrite hw us brightness red green blue level e).channel = e.channel := by
  unfold ledRgbWrite
  dsimp only
  split
  · rfl
  · split_ifs <;> rfl

@[simp] lemma ledStatusShow_channel (lit : Bool) :
    (ledStatusShow hw us lit e).channel = e.channel := by
  unfold ledStatusShow
  dsimp only
  split <;> rfl

@[simp] lemma ledShow_channel (led : Led) (lit : Bool) :
    (ledShow hw us led lit e).channel
      = Function.update e.channel led { e.channel led with lit := lit } := by
  cases led <;> simp [ledShow, ledRgbShow, Engine.setChannel]

@[simp] lemma ledWriteDue_channel : (ledWriteDue us e).channel = e.channel := by
  unfold ledWriteDue
  split_ifs <;> rfl

@[simp] lemma ledParkDue_channel : (ledParkDue hw us e).channel = e.channel := by
  unfold ledParkDue
  split_ifs
  · exact ledPark_channel hw us e
  · rfl

end Channels

end OneRom.LedEngine
