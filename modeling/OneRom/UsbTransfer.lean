import OneRom.Checks
import OneRom.LittleEndian
import OneRom.Resumable

/-!
The data phase of the USB plugin's own picoboot commands. `dispatch` checks a command and sets the
cursor of its response; `fill` is then called for as many bytes as the host has room for.

The bytes of a response are made again on each call, from the cursor on. `fill_resumes` says that
each call makes a piece of what is left of `response`.
-/

namespace OneRom.UsbTransfer

open OneRom.Checks OneRom.LittleEndian OneRom.Resumable

inductive PbStatus
  | unknownCmd
  | invalidCmdLength
  | invalidTransferLen
  | invalidArg
  | notFound
  | notPermitted
  | unknownError
  deriving DecidableEq, Repr

/-! ### The device -/

inductive RpVariant
  | a
  | b
  deriving DecidableEq, Repr

/-- The firmware's `MAX_GPIOS`. -/
def maxGpios : RpVariant → UInt8
  | .a => 30
  | .b => 48

structure GpioInfo where
  use : UInt8
  level : UInt8
  isOutput : UInt8
  deriving DecidableEq, Repr

structure OraLedState where
  present : UInt8
  mode : UInt8
  brightness : UInt8
  red : UInt8
  green : UInt8
  blue : UInt8
  gpio : UInt8
  periodMs : UInt16
  deriving DecidableEq, Repr

/-- The firmware the plugin runs on, as the plugin asks it. -/
structure Firmware where
  variant : RpVariant
  /-- The variant can be had from the metadata. -/
  variantKnown : Bool
  /-- `ora_gpio_set` and `ora_gpio_query` are there. -/
  gpioApi : Bool
  pads : UInt8 → GpioInfo
  ledSet : Bool
  /-- `ora_led_get`, which may refuse an LED. -/
  ledGet : Option (UInt8 → Option OraLedState)
  standbyApi : Bool

def ONEROM_FEAT_GPIO_SET : UInt32 := 1
def ONEROM_FEAT_GPIO_QUERY : UInt32 := 2
def ONEROM_FEAT_GPIO_HOLD : UInt32 := 4
def ONEROM_FEAT_LED_ARGS : UInt32 := 8
def ONEROM_FEAT_STANDBY : UInt32 := 16
def ORA_GPIO_MAX_HOLD_MS : UInt32 := 60000

variable (fw : Firmware)

/-- The number of GPIOs reported, 0 where it is not known. -/
def gpioNumGpios : UInt8 := if fw.variantKnown then maxGpios fw.variant else 0

/-- GPIOs can be controlled. -/
def gpioAvailable : Bool := fw.gpioApi && gpioNumGpios fw != 0

def numGpios : UInt8 := if fw.gpioApi then gpioNumGpios fw else 0

def features : UInt32 :=
  (if gpioAvailable fw then
    ONEROM_FEAT_GPIO_SET ||| ONEROM_FEAT_GPIO_QUERY ||| ONEROM_FEAT_GPIO_HOLD else 0) |||
  (if fw.ledSet then ONEROM_FEAT_LED_ARGS else 0) |||
  (if fw.standbyApi then ONEROM_FEAT_STANDBY else 0)

/-- What the firmware says of a GPIO. -/
def oraGpioQuery (gpio : UInt8) : Option GpioInfo :=
  if maxGpios fw.variant ≤ gpio then none else some (fw.pads gpio)

/-! ### The responses -/

def ONEROM_PBX_EXT_MAJOR : UInt8 := 1
def ONEROM_PBX_EXT_MINOR : UInt8 := 1
def ONEROM_CAPS_LEN : ℕ := 32
def ONEROM_LED_STATE_LEN : ℕ := 16
def GPIO_ENTRY_LEN : ℕ := 4

/-- `onerom_caps_t` -/
def caps : List UInt8 :=
  toBytes (UInt16.ofNat ONEROM_CAPS_LEN) ++ [ONEROM_PBX_EXT_MAJOR, ONEROM_PBX_EXT_MINOR] ++
    toBytes32 (features fw) ++ [numGpios fw, 0, 0, 0] ++
    toBytes32 (if features fw &&& ONEROM_FEAT_GPIO_HOLD ≠ 0 then ORA_GPIO_MAX_HOLD_MS else 0) ++
    List.replicate 16 0

/-- The firmware's name for an LED. -/
def ledOraId (ledId : UInt8) : Option UInt8 :=
  if ledId = 0 then some 0 else if ledId = 1 then some 1 else none

/-- `onerom_led_state_t` -/
def ledStateBytes (ledId : UInt8) (s : OraLedState) : List UInt8 :=
  toBytes (UInt16.ofNat ONEROM_LED_STATE_LEN) ++
    [ledId, s.present, s.mode, s.brightness, s.red, s.green, s.blue, s.gpio, 0] ++
    toBytes s.periodMs ++ [0, 0, 0]

/-- The state of an LED, as it is sent. -/
def ledFillState (ledGet : UInt8 → Option OraLedState) (ledId : UInt8) :
    Except PbStatus (List UInt8) :=
  match ledOraId ledId with
  | none => .error .notFound
  | some led =>
    match ledGet led with
    | none => .error .invalidArg
    | some s => .ok (ledStateBytes ledId s)

/-- `onerom_gpio_entry_t` -/
def gpioEntryBytes (info : GpioInfo) : List UInt8 := [info.use, info.level, info.isOutput, 0]

def gpioFillEntry (gpio : UInt8) : Except PbStatus (List UInt8) :=
  match oraGpioQuery fw gpio with
  | none => .error .unknownError
  | some info => .ok (gpioEntryBytes info)

/-! ### Dispatch -/

def PICOBOOT_DIR_IN : UInt8 := 0x80
def ONEROM_CMD_ARGS_LEN : ℕ := 16
def ONEROM_MAX_TRANSFER_LEN : ℕ := 256

structure Cmd where
  cmdId : UInt8
  cmdSize : ℕ
  transferLen : ℕ
  args : Vector UInt8 16
  deriving DecidableEq

inductive CmdId
  | setLed
  | getCaps
  | gpioSet
  | gpioQuery
  | ledQuery
  | setStandby
  deriving DecidableEq, Repr

/-- The command, without the bit that says the host will read. -/
def Cmd.id (cmd : Cmd) : Option CmdId :=
  let id := cmd.cmdId &&& ~~~PICOBOOT_DIR_IN
  if id = 0x01 then some .setLed
  else if id = 0x02 then some .getCaps
  else if id = 0x03 then some .gpioSet
  else if id = 0x04 then some .gpioQuery
  else if id = 0x05 then some .ledQuery
  else if id = 0x06 then some .setStandby
  else none

def Cmd.firstGpio (cmd : Cmd) : UInt8 := cmd.args[0]
def Cmd.count (cmd : Cmd) : UInt8 := cmd.args[1]
def Cmd.ledId (cmd : Cmd) : UInt8 := cmd.args[0]

/-- The cursor of a response. -/
structure InXfer where
  offset : ℕ
  total : ℕ
  firstGpio : UInt8
  ledId : UInt8
  deriving DecidableEq, Repr

def inXferBegin (cmd : Cmd) (firstGpio ledId : UInt8) : Except PbStatus InXfer :=
  if cmd.transferLen = 0 ∨ ONEROM_MAX_TRANSFER_LEN < cmd.transferLen then
    .error .invalidTransferLen
  else .ok ⟨0, cmd.transferLen, firstGpio, ledId⟩

def capsPrepare (cmd : Cmd) : Except PbStatus InXfer := inXferBegin cmd 0 0

def ledQueryPrepare (cmd : Cmd) : Except PbStatus InXfer :=
  match fw.ledGet with
  | none => .error .unknownCmd
  | some ledGet =>
    match ledFillState ledGet cmd.ledId with
    | .error e => .error e
    | .ok _ => inXferBegin cmd 0 cmd.ledId

def gpioQueryPrepare (cmd : Cmd) : Except PbStatus InXfer :=
  if features fw &&& ONEROM_FEAT_GPIO_QUERY = 0 then .error .notPermitted
  else if cmd.count = 0 ∨ (numGpios fw).toNat < cmd.firstGpio.toNat + cmd.count.toNat then
    .error .invalidArg
  else if cmd.transferLen ≠ cmd.count.toNat * GPIO_ENTRY_LEN then .error .invalidTransferLen
  else inXferBegin cmd cmd.firstGpio 0

/-- Checks a command. `apply` does one that has no data phase. -/
def dispatch (apply : CmdId → Cmd → Except PbStatus Unit) (cmd : Cmd) :
    Except PbStatus (Option InXfer) :=
  if cmd.cmdSize ≠ ONEROM_CMD_ARGS_LEN then .error .invalidCmdLength
  else
    match cmd.id with
    | some .getCaps => some <$> capsPrepare cmd
    | some .gpioQuery => some <$> gpioQueryPrepare fw cmd
    | some .ledQuery => some <$> ledQueryPrepare fw cmd
    | some id =>
      if cmd.transferLen ≠ 0 then .error .invalidCmdLength
      else (fun _ => none) <$> apply id cmd
    | none => .error .unknownCmd

/-! ### Filling -/

/-- The bytes of `src` from `offset`, with zeros past its end. -/
def window (src : List UInt8) (offset len : ℕ) : List UInt8 :=
  (List.range len).map fun i => src.getD (offset + i) 0

/-- The entries of a run of GPIOs from the one the cursor is at, `n` of them. -/
def gpioEntries (x : InXfer) (n : ℕ) : Except PbStatus (List UInt8) :=
  List.flatten <$> (List.range n).mapM fun i =>
    gpioFillEntry fw (x.firstGpio + UInt8.ofNat ((x.offset + i * GPIO_ENTRY_LEN) / GPIO_ENTRY_LEN))

/-- The bytes a call has to write: a piece of the response, of at most `len` bytes. -/
def fillBytes (cmd : Cmd) (x : InXfer) (len : ℕ) : Except PbStatus (List UInt8) :=
  match cmd.id with
  | some .getCaps => .ok (window (caps fw) x.offset len)
  | some .ledQuery =>
    match fw.ledGet with
    | none => .error .unknownError
    | some ledGet => (window · x.offset len) <$> ledFillState ledGet x.ledId
  | some .gpioQuery => gpioEntries fw x (len / GPIO_ENTRY_LEN)
  | _ => .error .unknownError

/-- Makes as much of the response as there is room for, in whole entries. -/
def fill (cmd : Cmd) : Generator InXfer ℕ UInt8 PbStatus := fun x maxLen =>
  (fun bytes =>
      (bytes, decide (x.total ≤ x.offset + bytes.length),
        { x with offset := x.offset + bytes.length })) <$>
    fillBytes fw cmd x (min maxLen (x.total - x.offset))

/-! ### What is put out -/

/-- A structure cut to a length, or padded to it with zeros. -/
def padded (src : List UInt8) (len : ℕ) : List UInt8 :=
  src.take len ++ List.replicate (len - src.length) 0

/-- The whole response to a command: its structure cut or padded, or its entries. -/
def response (cmd : Cmd) : List UInt8 :=
  match cmd.id with
  | some .getCaps => padded (caps fw) cmd.transferLen
  | some .ledQuery =>
    padded (((fw.ledGet.bind fun ledGet => (ledFillState ledGet cmd.ledId).toOption)).getD [])
      cmd.transferLen
  | some .gpioQuery =>
    (List.range' cmd.firstGpio.toNat cmd.count.toNat).flatMap fun gpio =>
      gpioEntryBytes (fw.pads (UInt8.ofNat gpio))
  | _ => []

@[simp] lemma length_window (src : List UInt8) (offset len : ℕ) :
    (window src offset len).length = len := by simp [window]

@[simp] lemma length_padded (src : List UInt8) (len : ℕ) : (padded src len).length = len := by
  simp only [padded, List.length_append, List.length_take, List.length_replicate]
  omega

/-- A piece of what is padded is the window of its place. -/
lemma padded_piece (src : List UInt8) {total offset len : ℕ} (h : offset + len ≤ total) :
    ((padded src total).drop offset).take len = window src offset len := by
  ext1 i
  rcases Nat.lt_or_ge i len with hi | hi
  · rw [List.getElem?_take_of_lt hi, List.getElem?_drop, window, List.getElem?_map,
      List.getElem?_range hi, padded, List.getElem?_append, List.getElem?_take_of_lt (by omega),
      List.getElem?_replicate, List.length_take]
    rcases Nat.lt_or_ge (offset + i) src.length with hsrc | hsrc
    · rw [if_pos (by omega), List.getElem?_eq_getElem hsrc]
      simp [List.getD, List.getElem?_eq_getElem hsrc]
    · rw [if_neg (by omega), if_pos (by omega)]
      simp [List.getD, List.getElem?_eq_none hsrc]
  · rw [List.getElem?_eq_none (by rw [List.length_take]; omega),
      List.getElem?_eq_none (by rwa [length_window])]

section Entries

variable (entry : ℕ → List UInt8)

lemma length_entries (hlen : ∀ i, (entry i).length = GPIO_ENTRY_LEN) (lo n : ℕ) :
    ((List.range' lo n).flatMap entry).length = n * GPIO_ENTRY_LEN := by
  rw [List.length_flatMap]
  simp [hlen]

/-- A piece of a run of entries is a run, where it is of whole entries. -/
lemma entries_piece (hlen : ∀ i, (entry i).length = GPIO_ENTRY_LEN) {lo count j n : ℕ}
    (h : j + n ≤ count) :
    (((List.range' lo count).flatMap entry).drop (j * GPIO_ENTRY_LEN)).take (n * GPIO_ENTRY_LEN) =
      (List.range' (lo + j) n).flatMap entry := by
  obtain ⟨m, rfl⟩ : ∃ m, count = j + (n + m) := ⟨count - j - n, by omega⟩
  rw [← List.range'_append_1, ← List.range'_append_1, List.flatMap_append, List.flatMap_append,
    List.drop_left' (length_entries entry hlen lo j),
    List.take_left' (length_entries entry hlen (lo + j) n)]

end Entries

/-! ### An accepted command -/

variable {fw}

/-- The least room that a call makes something of. -/
def unit (cmd : Cmd) : ℕ := if cmd.id = some .gpioQuery then GPIO_ENTRY_LEN else 1

/-- The cursor of the response to `cmd`, as it was set and as calls have moved it. -/
structure At (cmd : Cmd) (firstGpio ledId : UInt8) (x : InXfer) : Prop where
  total : x.total = cmd.transferLen
  offset_le : x.offset ≤ x.total
  firstGpio : x.firstGpio = firstGpio
  ledId : x.ledId = ledId
  aligned : unit cmd ∣ x.offset

/-- What calls make of the response to a command. -/
structure Fills (fw : Firmware) (cmd : Cmd) (first led : UInt8) : Prop where
  length : (response fw cmd).length = cmd.transferLen
  pos : 0 < cmd.transferLen
  aligned : unit cmd ∣ cmd.transferLen
  bytes : ∀ x len, At cmd first led x → len ≤ x.total - x.offset → ∃ k ≤ len,
    fillBytes fw cmd x len = .ok (((response fw cmd).drop x.offset).take k) ∧
    unit cmd ∣ k ∧ (unit cmd ≤ len → 0 < k)

lemma inXferBegin_ok {cmd : Cmd} {first led : UInt8} {x : InXfer}
    (h : inXferBegin cmd first led = .ok x) :
    0 < cmd.transferLen ∧ x.offset = 0 ∧ At cmd first led x := by
  unfold inXferBegin at h
  split at h
  · cases h
  · next hlen =>
    cases h
    exact ⟨by omega, rfl, rfl, Nat.zero_le _, rfl, rfl, dvd_zero _⟩

/-- A response that is a structure. -/
lemma fills_window {cmd : Cmd} {first led : UInt8} {src : List UInt8}
    (hid : cmd.id ≠ some .gpioQuery) (hpos : 0 < cmd.transferLen)
    (hresponse : response fw cmd = padded src cmd.transferLen)
    (hbytes : ∀ x len, At cmd first led x →
      fillBytes fw cmd x len = .ok (window src x.offset len)) :
    Fills fw cmd first led where
  length := by rw [hresponse, length_padded]
  pos := hpos
  aligned := by simp [unit, hid]
  bytes x len hx hlen := by
    refine ⟨len, le_rfl, ?_, by simp [unit, hid], fun h => ?_⟩
    · rw [hbytes x len hx, hresponse, padded_piece]
      have := hx.total
      have := hx.offset_le
      omega
    · simp only [unit, hid, if_false] at h
      exact h

lemma mapM_ok {α β : Type} {f : α → Except PbStatus β} {g : α → β} {l : List α}
    (h : ∀ a ∈ l, f a = .ok (g a)) : l.mapM f = .ok (l.map g) := by
  induction l with
  | nil => rfl
  | cons a l ih =>
    rw [List.mapM_cons, h a (by simp), ih fun b hb => h b (by simp [hb])]
    rfl

lemma map_eq_some {x : InXfer} {r : Except PbStatus InXfer}
    (h : some <$> r = .ok (some x)) : ∃ y, r = .ok y ∧ y = x := by
  obtain ⟨y, hy, heq⟩ := map_eq_ok.mp h
  exact ⟨y, hy, Option.some.inj heq⟩

/-- The entries that follow the cursor. -/
lemma gpioEntries_ok {cmd : Cmd} {x : InXfer} {j n : ℕ} (hx : At cmd cmd.firstGpio 0 x)
    (hoffset : x.offset = j * GPIO_ENTRY_LEN) (hn : j + n ≤ cmd.count.toNat)
    (hrange : cmd.firstGpio.toNat + cmd.count.toNat ≤ (maxGpios fw.variant).toNat) :
    gpioEntries fw x n = .ok ((List.range' (cmd.firstGpio.toNat + j) n).flatMap fun gpio =>
      gpioEntryBytes (fw.pads (UInt8.ofNat gpio))) := by
  have hmax : (maxGpios fw.variant).toNat < 256 := UInt8.toNat_lt _
  have hentry : ∀ i ∈ List.range n, gpioFillEntry fw (x.firstGpio +
      UInt8.ofNat ((x.offset + i * GPIO_ENTRY_LEN) / GPIO_ENTRY_LEN)) =
      .ok (gpioEntryBytes (fw.pads (UInt8.ofNat (cmd.firstGpio.toNat + j + i)))) := by
    intro i hi
    have hi := List.mem_range.mp hi
    have hindex : (x.offset + i * GPIO_ENTRY_LEN) / GPIO_ENTRY_LEN = j + i := by
      rw [hoffset, ← Nat.add_mul, Nat.mul_div_cancel _ (by decide)]
    have hgpio : x.firstGpio + UInt8.ofNat (j + i) =
        UInt8.ofNat (cmd.firstGpio.toNat + j + i) := by
      rw [hx.firstGpio, Nat.add_assoc, UInt8.ofNat_add cmd.firstGpio.toNat, UInt8.ofNat_toNat]
    have hlt : ¬maxGpios fw.variant ≤ UInt8.ofNat (cmd.firstGpio.toNat + j + i) := by
      rw [UInt8.le_iff_toNat_le, UInt8.toNat_ofNat']
      omega
    rw [hindex, hgpio, gpioFillEntry, oraGpioQuery, if_neg hlt]
  rw [gpioEntries, mapM_ok hentry, List.range'_eq_map_range, List.flatMap_map]
  rfl

lemma numGpios_le : (numGpios fw).toNat ≤ (maxGpios fw.variant).toNat := by
  unfold numGpios gpioNumGpios
  split_ifs <;> simp

lemma fills_led {cmd : Cmd} {x : InXfer} (hid : cmd.id = some .ledQuery)
    (h : ledQueryPrepare fw cmd = .ok x) :
    x.offset = 0 ∧ At cmd 0 cmd.ledId x ∧ Fills fw cmd 0 cmd.ledId := by
  unfold ledQueryPrepare at h
  split at h
  · cases h
  next ledGet hget =>
  split at h
  · cases h
  next bytes hstate =>
  obtain ⟨hpos, h0, hat⟩ := inXferBegin_ok h
  have hresponse : response fw cmd = padded bytes cmd.transferLen := by
    simp [response, hid, hget, hstate, Except.toOption]
  refine ⟨h0, hat, fills_window (by simp [hid]) hpos hresponse ?_⟩
  intro y len hy
  simp [fillBytes, hid, hget, hy.ledId, hstate]

lemma fills_gpio {cmd : Cmd} {x : InXfer} (hid : cmd.id = some .gpioQuery)
    (h : gpioQueryPrepare fw cmd = .ok x) :
    x.offset = 0 ∧ At cmd cmd.firstGpio 0 x ∧ Fills fw cmd cmd.firstGpio 0 := by
  unfold gpioQueryPrepare at h
  split at h
  · cases h
  split at h
  · cases h
  next hargs =>
  split at h
  · cases h
  next htotal =>
  obtain ⟨hpos, h0, hat⟩ := inXferBegin_ok h
  have htotal : cmd.transferLen = cmd.count.toNat * GPIO_ENTRY_LEN := not_not.mp htotal
  have hrange : cmd.firstGpio.toNat + cmd.count.toNat ≤ (maxGpios fw.variant).toNat := by
    have hmax := @numGpios_le fw
    omega
  have hresponse : response fw cmd = (List.range' cmd.firstGpio.toNat cmd.count.toNat).flatMap
      fun gpio => gpioEntryBytes (fw.pads (UInt8.ofNat gpio)) := by simp [response, hid]
  have hentry : ∀ gpio, (gpioEntryBytes (fw.pads (UInt8.ofNat gpio))).length = GPIO_ENTRY_LEN :=
    fun _ => rfl
  have hunit : unit cmd = GPIO_ENTRY_LEN := by simp [unit, hid]
  refine ⟨h0, hat, ⟨?_, hpos, ?_, ?_⟩⟩
  · rw [hresponse, length_entries _ hentry, htotal]
  · rw [hunit, htotal]
    exact dvd_mul_left ..
  · intro y len hy hlen
    obtain ⟨j, hj⟩ := hy.aligned
    rw [hunit] at hj ⊢
    have hle := hy.offset_le
    have hytotal := hy.total
    rw [htotal] at hytotal
    have hn : j + len / GPIO_ENTRY_LEN ≤ cmd.count.toNat := by
      rw [show GPIO_ENTRY_LEN = 4 from rfl] at hj hytotal ⊢
      omega
    refine ⟨len / GPIO_ENTRY_LEN * GPIO_ENTRY_LEN, Nat.div_mul_le_self .., ?_,
      dvd_mul_left .., ?_⟩
    · have hentries := gpioEntries_ok (n := len / GPIO_ENTRY_LEN) hy (by rw [hj, Nat.mul_comm]) hn
        hrange
      rw [hresponse, hj, Nat.mul_comm GPIO_ENTRY_LEN j, entries_piece _ hentry hn]
      simpa [fillBytes, hid] using hentries
    · intro hroom
      rw [show GPIO_ENTRY_LEN = 4 from rfl] at hroom ⊢
      omega

/-- **Acceptance**: a command whose data phase is begun has a response of the length it asks for,
and calls make it piece by piece. -/
lemma fills_of_dispatch {apply : CmdId → Cmd → Except PbStatus Unit} {cmd : Cmd} {x : InXfer}
    (h : dispatch fw apply cmd = .ok (some x)) :
    ∃ first led, x.offset = 0 ∧ At cmd first led x ∧ Fills fw cmd first led := by
  unfold dispatch at h
  split at h
  · cases h
  split at h
  · next hid =>
    obtain ⟨y, hy, rfl⟩ := map_eq_some h
    obtain ⟨hpos, h0, hat⟩ := inXferBegin_ok hy
    have hresponse : response fw cmd = padded (caps fw) cmd.transferLen := by
      simp [response, hid]
    refine ⟨_, _, h0, hat, fills_window (by simp [hid]) hpos hresponse ?_⟩
    intro x len hx
    simp [fillBytes, hid]
  · next hid =>
    obtain ⟨y, hy, rfl⟩ := map_eq_some h
    obtain ⟨h0, hat, hfills⟩ := fills_gpio hid hy
    exact ⟨_, _, h0, hat, hfills⟩
  · next hid =>
    obtain ⟨y, hy, rfl⟩ := map_eq_some h
    obtain ⟨h0, hat, hfills⟩ := fills_led hid hy
    exact ⟨_, _, h0, hat, hfills⟩
  · split at h
    · cases h
    · obtain ⟨-, -, heq⟩ := map_eq_ok.mp h
      cases heq
  · cases h

/-! ### The calls -/

/-- A call on the response makes a piece of it, of `k` bytes. -/
lemma fill_eq {cmd : Cmd} {first led : UInt8} (h : Fills fw cmd first led) {x : InXfer}
    (hx : At cmd first led x) (maxLen : ℕ) :
    ∃ k ≤ min maxLen (x.total - x.offset), unit cmd ∣ k ∧
      (unit cmd ≤ maxLen → x.offset < x.total → 0 < k) ∧
      fill fw cmd x maxLen = .ok (((response fw cmd).drop x.offset).take k,
        decide (x.total ≤ x.offset + k), { x with offset := x.offset + k }) := by
  obtain ⟨k, hk, hbytes, haligned, hpos⟩ :=
    h.bytes x (min maxLen (x.total - x.offset)) hx (Nat.min_le_right ..)
  have hlen : (((response fw cmd).drop x.offset).take k).length = k := by
    rw [List.length_take, List.length_drop, h.length, ← hx.total]
    omega
  refine ⟨k, hk, haligned, fun hunit hleft => hpos (le_min hunit ?_), ?_⟩
  · have hdvd : unit cmd ∣ x.total - x.offset := Nat.dvd_sub (hx.total ▸ h.aligned) hx.aligned
    exact Nat.le_of_dvd (Nat.sub_pos_of_lt hleft) hdvd
  · rw [fill, hbytes, ← hlen]
    simp only [Functor.map, Except.map, hlen]

/-- What is left of the response at a cursor. -/
abbrev left (fw : Firmware) (cmd : Cmd) (x : InXfer) : List UInt8 :=
  (response fw cmd).drop x.offset

lemma left_eq_nil {cmd : Cmd} {first led : UInt8} (h : Fills fw cmd first led) {x : InXfer}
    (hx : At cmd first led x) : left fw cmd x = [] ↔ x.total ≤ x.offset := by
  rw [List.drop_eq_nil_iff, h.length, hx.total]

lemma fill_resumes {cmd : Cmd} {first led : UInt8} (h : Fills fw cmd first led) :
    Resumes (fill fw cmd) (At cmd first led) (left fw cmd) where
  step x maxLen hx := by
    obtain ⟨k, hk, haligned, -, hfill⟩ := fill_eq h hx maxLen
    have hle := hx.offset_le
    have hx' : At cmd first led { x with offset := x.offset + k } :=
      ⟨hx.total, by dsimp only; omega, hx.firstGpio, hx.ledId, dvd_add hx.aligned haligned⟩
    refine ⟨_, _, _, hfill, hx', ?_, fun hdone => (left_eq_nil h hx').mpr ?_⟩
    · rw [left, left, ← List.drop_drop, List.take_append_drop]
    · exact of_decide_eq_true hdone

lemma fill_prompt {cmd : Cmd} {first led : UInt8} (h : Fills fw cmd first led) :
    Prompt (fill fw cmd) (At cmd first led) (left fw cmd) := by
  intro x maxLen out done y hx hgen hnil
  have hy := ((fill_resumes h).step_ok hx hgen).1
  obtain ⟨k, hk, -, -, hfill⟩ := fill_eq h hx maxLen
  rw [hfill] at hgen
  cases hgen
  exact decide_eq_true ((left_eq_nil h hy).mp hnil)

/-- A call makes something of the response where it has room for a piece of it. -/
lemma fill_feeds {cmd : Cmd} {first led : UInt8} (h : Fills fw cmd first led) {x y : InXfer}
    {maxLen : ℕ} {out : List UInt8} {done : Bool} (hx : At cmd first led x)
    (hroom : unit cmd ≤ maxLen) (hne : left fw cmd x ≠ [])
    (hgen : fill fw cmd x maxLen = .ok (out, done, y)) : out ≠ [] := by
  obtain ⟨k, -, -, hpos, hfill⟩ := fill_eq h hx maxLen
  rw [hfill] at hgen
  cases hgen
  have hleft : x.offset < x.total := Nat.lt_of_not_le ((left_eq_nil h hx).not.mp hne)
  have hk := hpos hroom hleft
  rw [Ne, List.take_eq_nil_iff]
  rintro (h0 | hnil)
  · omega
  · exact hne hnil

/-- What the calls on an accepted command, with room for `maxLens`, have put out: no more than
there was room for, a beginning of the response, and all of it on the call that is done. -/
structure Chunked (fw : Firmware) (cmd : Cmd) (calls : List (Call ℕ UInt8)) : Prop where
  room : ∀ c ∈ calls, c.out.length ≤ c.input
  initial : sent calls <+: response fw cmd
  done : ∀ pre c post, calls = pre ++ c :: post →
    (c.done = true ↔ c.out ≠ [] ∧ sent (pre ++ [c]) = response fw cmd)

/-- **Chunking**: however an accepted command's response is asked for, it is put out in order, and
all of it where room for a piece of it keeps coming. -/
lemma response_chunked {apply : CmdId → Cmd → Except PbStatus Unit} {cmd : Cmd} {x : InXfer}
    (haccept : dispatch fw apply cmd = .ok (some x)) :
    (response fw cmd).length = cmd.transferLen ∧
    (∀ maxLens, ∃ calls y, drain (fill fw cmd) x maxLens = .ok (calls, y) ∧
      Chunked fw cmd calls) ∧
    ∀ maxLens : ℕ → ℕ, (∀ n, ∃ k, n ≤ k ∧ unit cmd ≤ maxLens k) →
      ∃ n calls y, drain (fill fw cmd) x ((List.range n).map maxLens) = .ok (calls, y) ∧
        sent calls = response fw cmd := by
  obtain ⟨first, led, h0, hx, h⟩ := fills_of_dispatch haccept
  have hall : left fw cmd x = response fw cmd := by rw [left, h0, List.drop_zero]
  have hresumes := fill_resumes h
  refine ⟨h.length, fun maxLens => ?_, fun maxLens hfair => ?_⟩
  · obtain ⟨calls, y, hdrain, -, hleft⟩ := hresumes.drain hx maxLens
    refine ⟨calls, y, hdrain, fun c hc => ?_, ?_, fun pre c post hcalls => ?_⟩
    · obtain ⟨pre, post, hcalls⟩ := List.append_of_mem hc
      obtain ⟨u, v, hu, hgen, -⟩ := hresumes.drain_call hx hdrain hcalls
      obtain ⟨k, hk, -, -, hfill⟩ := fill_eq h hu c.input
      rw [hfill] at hgen
      have hout : ((response fw cmd).drop u.offset).take k = c.out :=
        congrArg Prod.fst (Except.ok.inj hgen)
      rw [← hout, List.length_take]
      omega
    · exact ⟨left fw cmd y, by rw [← hleft, hall]⟩
    · have hne : left fw cmd x ≠ [] := by
        rw [Ne, left_eq_nil h hx, h0, hx.total]
        have := h.pos
        omega
      rw [← hall]
      exact hresumes.done_iff (fill_prompt h) hx hdrain hne hcalls
  · obtain ⟨n, calls, y, hdrain, hsent⟩ := hresumes.drain_all
      (fun s i out done t hs hroom hne hgen => fill_feeds h hs hroom hne hgen) hx maxLens hfair
    exact ⟨n, calls, y, hdrain, hsent.trans hall⟩

end OneRom.UsbTransfer
