import OneRom.LedEngine

/-!
The USB plugin's control of GPIOs. A command drives a pin, for good or for a time; a pass of the
plugin's task gives back the pins whose time is over. The times are kept in a table of four
entries, one for each pin that is held.
-/

namespace OneRom.UsbGpio

open LedEngine (reached reached_iff)

def maxHolds : ℕ := 4
def oraGpioMaxHoldMs : UInt32 := 60000
def gpioFlagForce : UInt8 := 1

/-- A hold waiting for its deadline. -/
structure Hold where
  gpio : UInt8
  afterState : UInt8
  active : Bool
  deadlineMs : UInt32

/-- What a pass has driven. -/
structure Release where
  ms : ℕ
  gpio : UInt8
  state : UInt8
  deriving DecidableEq

/-- The plugin's context, the state each pin was last put in, and what passes have driven, which no
code reads. The feature bits for GPIOs are all set or all clear. -/
structure Context where
  available : Bool
  holds : Fin maxHolds → Hold
  pins : UInt8 → UInt8
  log : List Release

structure SetArgs where
  gpio : UInt8
  state : UInt8
  afterState : UInt8
  flags : UInt8
  durationMs : UInt32

inductive OraResult
  | ok
  | invalidArg
  | gpioInUse
  | other
  deriving DecidableEq

inductive PbStatus
  | ok
  | notPermitted
  | invalidArg
  | preconditionNotMet
  | unknownError
  deriving DecidableEq

/-! ### The firmware's call -/

/-- Low, high, or an input. -/
def gpioStateValid (state : UInt8) : Bool := state == 0 || state == 1 || state == 2

/-- Puts a pin in a state, unless One ROM uses it and nothing forces it. -/
def oraGpioSet (maxGpios : UInt8) (busy : UInt8 → Bool) (gpio state : UInt8) (force : Bool)
    (pins : UInt8 → UInt8) : OraResult × (UInt8 → UInt8) :=
  if maxGpios ≤ gpio then (.invalidArg, pins)
  else if gpioStateValid state = false then (.invalidArg, pins)
  else if force = false ∧ busy gpio = true then (.gpioInUse, pins)
  else (.ok, Function.update pins gpio state)

/-- A call that is refused for a reason of its own, or made. -/
def gpioSet (maxGpios : UInt8) (refusal : Option OraResult) (busy : UInt8 → Bool)
    (gpio state : UInt8) (force : Bool) (pins : UInt8 → UInt8) : OraResult × (UInt8 → UInt8) :=
  match refusal with
  | some .invalidArg => (.invalidArg, pins)
  | some .gpioInUse => (.gpioInUse, pins)
  | some .other => (.other, pins)
  | _ => oraGpioSet maxGpios busy gpio state force pins

def gpioStatusFromOra : OraResult → PbStatus
  | .ok => .ok
  | .gpioInUse => .notPermitted
  | .invalidArg => .invalidArg
  | .other => .unknownError

/-! ### Commands -/

/-- The pending hold of a pin. -/
def gpioFindHold (holds : Fin maxHolds → Hold) (gpio : UInt8) : Option (Fin maxHolds) :=
  (List.finRange maxHolds).find? fun i => (holds i).active && (holds i).gpio == gpio

/-- A free entry. -/
def gpioClaimHold (holds : Fin maxHolds → Hold) : Option (Fin maxHolds) :=
  (List.finRange maxHolds).find? fun i => !(holds i).active

/-- The plugin's clock. -/
def uptimeMs (ms : ℕ) : UInt32 := UInt32.ofNat ms

section Calls

variable (maxGpios : UInt8)

def gpioHandleSet (ms : ℕ) (refusal : Option OraResult) (busy : UInt8 → Bool) (args : SetArgs)
    (c : Context) : PbStatus × Context :=
  if c.available = false then (.notPermitted, c)
  else if args.durationMs ≠ 0 ∧ oraGpioMaxHoldMs < args.durationMs then (.invalidArg, c)
  else if args.durationMs ≠ 0 ∧ gpioStateValid args.afterState = false then (.invalidArg, c)
  else
    let force := args.flags &&& gpioFlagForce != 0
    let existing := gpioFindHold c.holds args.gpio
    let hold :=
      if args.durationMs ≠ 0 then existing.or (gpioClaimHold c.holds) else none
    if args.durationMs ≠ 0 ∧ hold = none then (.preconditionNotMet, c)
    else
      let (result, pins) := gpioSet maxGpios refusal busy args.gpio args.state force c.pins
      let c := { c with pins := pins }
      if result ≠ .ok then (gpioStatusFromOra result, c)
      else match hold, existing with
      | some i, _ =>
        let held := ⟨args.gpio, args.afterState, true, uptimeMs ms + args.durationMs⟩
        (.ok, { c with holds := Function.update c.holds i held })
      | none, some i =>
        let freed := { c.holds i with active := false }
        (.ok, { c with holds := Function.update c.holds i freed })
      | none, none => (.ok, c)

/-! ### Passes -/

/-- An entry's part of a pass. -/
def releaseHold (ms : ℕ) (busy : UInt8 → Bool) (c : Context) (i : Fin maxHolds) : Context :=
  let hold := c.holds i
  if hold.active && reached (uptimeMs ms) hold.deadlineMs then
    let c := { c with holds := Function.update c.holds i { hold with active := false } }
    let (result, pins) := oraGpioSet maxGpios busy hold.gpio hold.afterState true c.pins
    { c with
      pins := pins
      log := if result = .ok then c.log ++ [⟨ms, hold.gpio, hold.afterState⟩] else c.log }
  else c

def gpioReleaseExpiredHolds (ms : ℕ) (busy : UInt8 → Bool) (c : Context) : Context :=
  if c.available = false then c
  else (List.finRange maxHolds).foldl (releaseHold maxGpios ms busy) c

end Calls

/-! ### Runs -/

/-- A command or a pass, when it comes, and what One ROM uses then. -/
inductive Event
  | set (ms : ℕ) (refusal : Option OraResult) (busy : UInt8 → Bool) (args : SetArgs)
  | pass (ms : ℕ) (busy : UInt8 → Bool)

namespace Event

def ms : Event → ℕ
  | set ms _ _ _ => ms
  | pass ms _ => ms

/-- When a pass comes. -/
def passMs : Event → Option ℕ
  | set _ _ _ _ => none
  | pass ms _ => some ms

end Event

def step (maxGpios : UInt8) (c : Context) : Event → Context
  | .set ms refusal busy args => (gpioHandleSet maxGpios ms refusal busy args c).2
  | .pass ms busy => gpioReleaseExpiredHolds maxGpios ms busy c

def run (maxGpios : UInt8) (c : Context) (evs : List Event) : Context :=
  evs.foldl (step maxGpios) c

/-- No entry in use. -/
def Context.reset (available : Bool) (pins : UInt8 → UInt8) : Context :=
  ⟨available, fun _ => ⟨0, 0, false, 0⟩, pins, []⟩

@[simp] lemma run_nil (maxGpios : UInt8) (c : Context) : run maxGpios c [] = c := rfl

@[simp] lemma run_cons (maxGpios : UInt8) (c : Context) (ev : Event) (evs : List Event) :
    run maxGpios c (ev :: evs) = run maxGpios (step maxGpios c ev) evs := rfl

lemma run_append (maxGpios : UInt8) (c : Context) (pre post : List Event) :
    run maxGpios c (pre ++ post) = run maxGpios (run maxGpios c pre) post := by
  simp [run, List.foldl_append]

/-! ### The table -/

/-- No pin is held twice, and every hold can be released. -/
structure Good (maxGpios : UInt8) (holds : Fin maxHolds → Hold) : Prop where
  one : ∀ i j, (holds i).active = true → (holds j).active = true →
    (holds i).gpio = (holds j).gpio → i = j
  inRange : ∀ i, (holds i).active = true → (holds i).gpio < maxGpios
  valid : ∀ i, (holds i).active = true → gpioStateValid (holds i).afterState = true

lemma good_reset (maxGpios : UInt8) (available : Bool) (pins : UInt8 → UInt8) :
    Good maxGpios (Context.reset available pins).holds where
  one _ _ h := Bool.noConfusion h
  inRange _ h := Bool.noConfusion h
  valid _ h := Bool.noConfusion h

section Table

variable {maxGpios : UInt8} {holds : Fin maxHolds → Hold} {gpio : UInt8} {i : Fin maxHolds}

lemma findHold_some (h : gpioFindHold holds gpio = some i) :
    (holds i).active = true ∧ (holds i).gpio = gpio := by
  have hi := List.find?_some h
  simpa using hi

lemma findHold_none (h : gpioFindHold holds gpio = none) (j : Fin maxHolds)
    (hj : (holds j).active = true) : (holds j).gpio ≠ gpio := by
  have hall := List.find?_eq_none.mp h j (List.mem_finRange j)
  simpa [hj] using hall

lemma claimHold_some (h : gpioClaimHold holds = some i) : (holds i).active = false := by
  have hi := List.find?_some h
  simpa using hi

/-- The entry a hold goes to is the pin's own, or free where the pin has none. -/
def Settled (holds : Fin maxHolds → Hold) (gpio : UInt8) (i : Fin maxHolds) : Prop :=
  ∀ j, j ≠ i → (holds j).active = true → (holds j).gpio ≠ gpio

lemma settled_of_choice (hgood : Good maxGpios holds)
    (h : (gpioFindHold holds gpio).or (gpioClaimHold holds) = some i) : Settled holds gpio i := by
  intro j hj hact hgpio
  cases hfind : gpioFindHold holds gpio with
  | none => exact findHold_none hfind j hact hgpio
  | some k =>
    rw [hfind, Option.some_or, Option.some.injEq] at h
    obtain ⟨hk, hkg⟩ := findHold_some hfind
    exact hj ((hgood.one j k hact hk (hgpio.trans hkg.symm)).trans h)

lemma own_of_choice (h : (gpioFindHold holds gpio).or (gpioClaimHold holds) = some i)
    (hact : (holds i).active = true) : (holds i).gpio = gpio := by
  cases hfind : gpioFindHold holds gpio with
  | none =>
    rw [hfind, Option.none_or] at h
    exact absurd hact (by rw [claimHold_some h]; decide)
  | some k =>
    rw [hfind, Option.some_or, Option.some.injEq] at h
    exact h ▸ (findHold_some hfind).2

/-- An entry written over: where it is in use, its pin is held by no other. -/
lemma Good.update (h : Good maxGpios holds) {entry : Hold}
    (hset : entry.active = true → Settled holds entry.gpio i)
    (hrange : entry.active = true → entry.gpio < maxGpios)
    (hvalid : entry.active = true → gpioStateValid entry.afterState = true) :
    Good maxGpios (Function.update holds i entry) := by
  constructor
  · intro j k hj hk heq
    by_cases hji : j = i <;> by_cases hki : k = i
    · exact hji.trans hki.symm
    · subst hji
      rw [Function.update_self] at hj heq
      rw [Function.update_of_ne hki] at hk heq
      exact absurd heq.symm (hset hj k hki hk)
    · subst hki
      rw [Function.update_self] at hk heq
      rw [Function.update_of_ne hji] at hj heq
      exact absurd heq (hset hk j hji hj)
    · rw [Function.update_of_ne hji] at hj heq
      rw [Function.update_of_ne hki] at hk heq
      exact h.one j k hj hk heq
  · intro j hj
    by_cases hji : j = i
    · subst hji
      rw [Function.update_self] at hj ⊢
      exact hrange hj
    · rw [Function.update_of_ne hji] at hj ⊢
      exact h.inRange j hj
  · intro j hj
    by_cases hji : j = i
    · subst hji
      rw [Function.update_self] at hj ⊢
      exact hvalid hj
    · rw [Function.update_of_ne hji] at hj ⊢
      exact h.valid j hj

lemma Good.free (h : Good maxGpios holds) (i : Fin maxHolds) :
    Good maxGpios (Function.update holds i { holds i with active := false }) :=
  h.update (fun h => Bool.noConfusion h) (fun h => Bool.noConfusion h)
    fun h => Bool.noConfusion h

end Table

/-! ### Calls of the firmware -/

section Ora

variable {maxGpios gpio state : UInt8} {busy : UInt8 → Bool} {force : Bool}
  {pins : UInt8 → UInt8}

/-- A call that succeeds drives the pin, and no other; one that does not drives none. -/
lemma oraGpioSet_cases :
    ((oraGpioSet maxGpios busy gpio state force pins).1 = .ok ∧
      (oraGpioSet maxGpios busy gpio state force pins).2 = Function.update pins gpio state ∧
      gpio < maxGpios ∧ gpioStateValid state = true) ∨
    ((oraGpioSet maxGpios busy gpio state force pins).1 ≠ .ok ∧
      (oraGpioSet maxGpios busy gpio state force pins).2 = pins) := by
  unfold oraGpioSet
  split_ifs with hrange hvalid hbusy
  · exact Or.inr ⟨OraResult.noConfusion, rfl⟩
  · exact Or.inr ⟨OraResult.noConfusion, rfl⟩
  · exact Or.inr ⟨OraResult.noConfusion, rfl⟩
  · exact Or.inl ⟨rfl, rfl, UInt8.not_le.mp hrange, Bool.not_eq_false _ ▸ hvalid⟩

lemma gpioSet_cases (maxGpios gpio state : UInt8) (busy : UInt8 → Bool) (force : Bool)
    (pins : UInt8 → UInt8) (refusal : Option OraResult) :
    ((gpioSet maxGpios refusal busy gpio state force pins).1 = .ok ∧
      (gpioSet maxGpios refusal busy gpio state force pins).2 = Function.update pins gpio state ∧
      gpio < maxGpios ∧ gpioStateValid state = true) ∨
    ((gpioSet maxGpios refusal busy gpio state force pins).1 ≠ .ok ∧
      (gpioSet maxGpios refusal busy gpio state force pins).2 = pins) := by
  unfold gpioSet
  split
  · exact Or.inr ⟨OraResult.noConfusion, rfl⟩
  · exact Or.inr ⟨OraResult.noConfusion, rfl⟩
  · exact Or.inr ⟨OraResult.noConfusion, rfl⟩
  · exact oraGpioSet_cases

/-- A release is never refused: it is forced, and of a pin and to a state that exist. -/
lemma oraGpioSet_force (hrange : gpio < maxGpios) (hvalid : gpioStateValid state = true) :
    oraGpioSet maxGpios busy gpio state true pins = (.ok, Function.update pins gpio state) := by
  unfold oraGpioSet
  rw [if_neg (UInt8.not_le.mpr hrange), hvalid, if_neg (by decide), if_neg (by simp)]

end Ora

/-! ### What is held -/

/-- What the table holds for a pin: a state to put it in, and when. -/
def Held (holds : Fin maxHolds → Hold) (gpio : UInt8) : Option (UInt8 × UInt32) → Prop
  | none => ∀ i, (holds i).active = true → (holds i).gpio ≠ gpio
  | some (state, deadlineMs) => ∃ i, (holds i).active = true ∧ (holds i).gpio = gpio ∧
      (holds i).afterState = state ∧ (holds i).deadlineMs = deadlineMs

section Held

variable {holds : Fin maxHolds → Hold} {gpio : UInt8} {i : Fin maxHolds} {entry : Hold}

/-- An entry written over has no part in what is held for a pin it was not, and is not, for. -/
lemma Held.update {held : Option (UInt8 × UInt32)} (h : Held holds gpio held)
    (hold : (holds i).active = true → (holds i).gpio ≠ gpio)
    (hnew : entry.active = true → entry.gpio ≠ gpio) :
    Held (Function.update holds i entry) gpio held := by
  cases held with
  | none =>
    intro j hj
    by_cases hji : j = i
    · subst hji
      rw [Function.update_self] at hj ⊢
      exact hnew hj
    · rw [Function.update_of_ne hji] at hj ⊢
      exact h j hj
  | some held =>
    obtain ⟨j, hact, hgpio, hrest⟩ := h
    have hji : j ≠ i := by
      rintro rfl
      exact hold hact hgpio
    refine ⟨j, ?_⟩
    rw [Function.update_of_ne hji]
    exact ⟨hact, hgpio, hrest⟩

lemma held_hold (hact : entry.active = true) :
    Held (Function.update holds i entry) entry.gpio (some (entry.afterState, entry.deadlineMs)) :=
  ⟨i, by rw [Function.update_self]; exact ⟨hact, rfl, rfl, rfl⟩⟩

lemma held_free (hset : Settled holds gpio i) :
    Held (Function.update holds i { holds i with active := false }) gpio none := by
  intro j hj
  have hji : j ≠ i := by
    rintro rfl
    rw [Function.update_self] at hj
    exact Bool.noConfusion hj
  rw [Function.update_of_ne hji] at hj ⊢
  exact hset j hji hj

end Held

/-! ### What a command does -/

/-- What an accepted command leaves. -/
structure Accepted (maxGpios : UInt8) (ms : ℕ) (args : SetArgs) (c c' : Context) : Prop where
  available : c.available = true
  good : Good maxGpios c'.holds
  bound : args.durationMs ≤ oraGpioMaxHoldMs
  pins : c'.pins = Function.update c.pins args.gpio args.state
  log : c'.log = c.log
  own : Held c'.holds args.gpio (if args.durationMs = 0 then none else
    some (args.afterState, uptimeMs ms + args.durationMs))
  others : ∀ gpio held, gpio ≠ args.gpio → Held c.holds gpio held → Held c'.holds gpio held

lemma status_refused {result : OraResult} (h : result ≠ .ok) :
    gpioStatusFromOra result ≠ .ok := by
  cases result with
  | ok => exact absurd rfl h
  | _ => exact PbStatus.noConfusion

/-- A command is refused, and nothing is changed, or it is accepted. -/
lemma handleSet_cases {maxGpios : UInt8} {c : Context} (hgood : Good maxGpios c.holds) (ms : ℕ)
    (refusal : Option OraResult) (busy : UInt8 → Bool) (args : SetArgs) :
    ((gpioHandleSet maxGpios ms refusal busy args c).1 ≠ .ok ∧
      (gpioHandleSet maxGpios ms refusal busy args c).2 = c) ∨
    ((gpioHandleSet maxGpios ms refusal busy args c).1 = .ok ∧
      Accepted maxGpios ms args c (gpioHandleSet maxGpios ms refusal busy args c).2) := by
  unfold gpioHandleSet
  by_cases havail : c.available = false
  · rw [if_pos havail]
    exact Or.inl ⟨PbStatus.noConfusion, rfl⟩
  rw [if_neg havail]
  rw [Bool.not_eq_false] at havail
  by_cases hlong : args.durationMs ≠ 0 ∧ oraGpioMaxHoldMs < args.durationMs
  · rw [if_pos hlong]
    exact Or.inl ⟨PbStatus.noConfusion, rfl⟩
  rw [if_neg hlong]
  by_cases hafter : args.durationMs ≠ 0 ∧ gpioStateValid args.afterState = false
  · rw [if_pos hafter]
    exact Or.inl ⟨PbStatus.noConfusion, rfl⟩
  rw [if_neg hafter]
  dsimp only
  by_cases hroom : args.durationMs ≠ 0 ∧ (if args.durationMs ≠ 0 then
      (gpioFindHold c.holds args.gpio).or (gpioClaimHold c.holds) else none) = none
  · rw [if_pos hroom]
    exact Or.inl ⟨PbStatus.noConfusion, rfl⟩
  rw [if_neg hroom]
  rcases gpioSet_cases maxGpios args.gpio args.state busy
    (args.flags &&& gpioFlagForce != 0) c.pins refusal with
    ⟨hok, hpins, hrange, -⟩ | ⟨hno, hpins⟩
  · rw [hok, hpins, if_neg (by simp : ¬OraResult.ok ≠ .ok)]
    refine Or.inr ?_
    by_cases hdur : args.durationMs = 0
    · rw [if_neg (not_not.mpr hdur)]
      have hbound : args.durationMs ≤ oraGpioMaxHoldMs := by rw [hdur]; decide
      cases hfind : gpioFindHold c.holds args.gpio with
      | none =>
        refine ⟨rfl, havail, hgood, hbound, rfl, rfl, ?_, fun _ _ _ h => h⟩
        rw [if_pos hdur]
        exact findHold_none hfind
      | some i =>
        obtain ⟨hact, hgpio⟩ := findHold_some hfind
        have hset : Settled c.holds args.gpio i := fun j hj hjact hjgpio =>
          hj (hgood.one j i hjact hact (hjgpio.trans hgpio.symm))
        refine ⟨rfl, havail, hgood.free i, hbound, rfl, rfl, ?_, fun g held hne h =>
          h.update (fun _ hg => hne (hg.symm.trans hgpio)) fun h => Bool.noConfusion h⟩
        rw [if_pos hdur]
        exact held_free hset
    · rw [if_pos hdur] at hroom ⊢
      obtain ⟨i, hi⟩ := Option.ne_none_iff_exists'.mp fun h => hroom ⟨hdur, h⟩
      have hbound : args.durationMs ≤ oraGpioMaxHoldMs :=
        UInt32.not_lt.mp fun h => hlong ⟨hdur, h⟩
      have hvalid : gpioStateValid args.afterState = true := by
        by_contra h
        exact hafter ⟨hdur, Bool.not_eq_true _ ▸ h⟩
      rw [hi]
      refine ⟨rfl, havail, hgood.update (fun _ => settled_of_choice hgood hi) (fun _ => hrange)
        (fun _ => hvalid), hbound, rfl, rfl, ?_, fun g held hne h =>
          h.update (fun hact hg => hne (hg.symm.trans (own_of_choice hi hact)))
            fun _ hg => hne hg.symm⟩
      rw [if_neg hdur]
      exact held_hold rfl
  · rw [hpins, if_pos hno]
    exact Or.inl ⟨status_refused hno, rfl⟩

/-! ### What a pass does -/

/-- The releases of a pin, in order. -/
def releasesOf (gpio : UInt8) (c : Context) : List Release := c.log.filter (·.gpio == gpio)

/-- An entry whose deadline has come. -/
def due (ms : ℕ) (hold : Hold) : Bool := hold.active && reached (uptimeMs ms) hold.deadlineMs

section Pass

variable {maxGpios : UInt8} (ms : ℕ) (busy : UInt8 → Bool) {gpio : UInt8} {c : Context}
  {held : Option (UInt8 × UInt32)}

/-- A pass leaves a pin and what is held for it alone. -/
structure Kept (gpio : UInt8) (held : Option (UInt8 × UInt32)) (c c' : Context) : Prop where
  held : Held c'.holds gpio held
  log : releasesOf gpio c' = releasesOf gpio c
  pins : c'.pins gpio = c.pins gpio

/-- A pass gives a pin back. -/
structure Released (ms : ℕ) (gpio : UInt8) (held : Option (UInt8 × UInt32)) (c c' : Context) :
    Prop where
  free : Held c'.holds gpio none
  due : ∃ state deadlineMs, held = some (state, deadlineMs) ∧
    reached (uptimeMs ms) deadlineMs = true ∧
    releasesOf gpio c' = releasesOf gpio c ++ [⟨ms, gpio, state⟩] ∧ c'.pins gpio = state

lemma releaseHold_eq (hgood : Good maxGpios c.holds) (i : Fin maxHolds) :
    releaseHold maxGpios ms busy c i = if due ms (c.holds i) then
      { c with
        holds := Function.update c.holds i { c.holds i with active := false }
        pins := Function.update c.pins (c.holds i).gpio (c.holds i).afterState
        log := c.log ++ [⟨ms, (c.holds i).gpio, (c.holds i).afterState⟩] }
    else c := by
  unfold releaseHold due
  dsimp only
  by_cases hdue : ((c.holds i).active && reached (uptimeMs ms) (c.holds i).deadlineMs) = true
  · rw [if_pos hdue, if_pos hdue]
    rw [Bool.and_eq_true] at hdue
    rw [oraGpioSet_force (hgood.inRange i hdue.1) (hgood.valid i hdue.1)]
    rfl
  · rw [if_neg hdue, if_neg hdue]

lemma releaseHold_good (hgood : Good maxGpios c.holds) (i : Fin maxHolds) :
    Good maxGpios (releaseHold maxGpios ms busy c i).holds := by
  rw [releaseHold_eq ms busy hgood]
  split_ifs
  · exact hgood.free i
  · exact hgood

/-- An entry's part of a pass frees it if it is due, and leaves the others. -/
lemma releaseHold_due (hgood : Good maxGpios c.holds) (i j : Fin maxHolds)
    (h : j = i ∨ due ms (c.holds j) = false) :
    due ms ((releaseHold maxGpios ms busy c i).holds j) = false := by
  rw [releaseHold_eq ms busy hgood]
  split_ifs with hdue
  · by_cases hji : j = i
    · subst hji
      dsimp only
      rw [Function.update_self]
      rfl
    · dsimp only
      rw [Function.update_of_ne hji]
      exact h.resolve_left hji
  · rcases h with rfl | h
    · exact Bool.eq_false_iff.mpr hdue
    · exact h

/-- An entry's part of a pass releases a pin, or has no part in it. -/
lemma releaseHold_held (hgood : Good maxGpios c.holds) (h : Held c.holds gpio held)
    (i : Fin maxHolds) : Kept gpio held c (releaseHold maxGpios ms busy c i) ∨
      Released ms gpio held c (releaseHold maxGpios ms busy c i) := by
  rw [releaseHold_eq ms busy hgood]
  split_ifs with hdue
  · unfold due at hdue
    rw [Bool.and_eq_true] at hdue
    by_cases hi : (c.holds i).gpio = gpio
    · refine Or.inr ⟨?_, ?_⟩
      · exact held_free fun j hj hact hgpio =>
          hj (hgood.one j i hact hdue.1 (hgpio.trans hi.symm))
      · cases held with
        | none => exact absurd hi (h i hdue.1)
        | some held =>
          obtain ⟨k, hact, hk, hstate, hdead⟩ := h
          obtain rfl := hgood.one k i hact hdue.1 (hk.trans hi.symm)
          refine ⟨held.1, held.2, rfl, hdead ▸ hdue.2, ?_, ?_⟩
          · simp [releasesOf, hi, hstate]
          · simp [hi, hstate]
    · refine Or.inl ⟨h.update (fun _ => hi) fun hact => Bool.noConfusion hact, ?_, ?_⟩
      · simp [releasesOf, hi]
      · exact Function.update_of_ne (Ne.symm hi) _ _
  · exact Or.inl ⟨h, rfl, rfl⟩

lemma foldl_good (is : List (Fin maxHolds)) (hgood : Good maxGpios c.holds) :
    Good maxGpios (is.foldl (releaseHold maxGpios ms busy) c).holds := by
  induction is generalizing c with
  | nil => exact hgood
  | cons i is ih => exact ih (releaseHold_good ms busy hgood i)

lemma foldl_due (is : List (Fin maxHolds)) (hgood : Good maxGpios c.holds) (j : Fin maxHolds)
    (h : j ∈ is ∨ due ms (c.holds j) = false) :
    due ms ((is.foldl (releaseHold maxGpios ms busy) c).holds j) = false := by
  induction is generalizing c with
  | nil => exact h.resolve_left List.not_mem_nil
  | cons i is ih =>
    rw [List.foldl_cons]
    refine ih (releaseHold_good ms busy hgood i) ?_
    rcases h with h | h
    · rcases List.mem_cons.mp h with rfl | h
      · exact Or.inr (releaseHold_due ms busy hgood j j (Or.inl rfl))
      · exact Or.inl h
    · exact Or.inr (releaseHold_due ms busy hgood i j (Or.inr h))

lemma foldl_held (is : List (Fin maxHolds)) (hgood : Good maxGpios c.holds)
    (h : Held c.holds gpio held) :
    Kept gpio held c (is.foldl (releaseHold maxGpios ms busy) c) ∨
      Released ms gpio held c (is.foldl (releaseHold maxGpios ms busy) c) := by
  induction is generalizing c held with
  | nil => exact Or.inl ⟨h, rfl, rfl⟩
  | cons i is ih =>
    rw [List.foldl_cons]
    have hgood' := releaseHold_good ms busy hgood i
    rcases releaseHold_held ms busy hgood h i with hk | hr
    · rcases ih hgood' hk.held with hk' | hr'
      · exact Or.inl ⟨hk'.held, hk'.log.trans hk.log, hk'.pins.trans hk.pins⟩
      · obtain ⟨state, deadlineMs, heq, hdue, hlog, hpins⟩ := hr'.due
        exact Or.inr ⟨hr'.free, state, deadlineMs, heq, hdue, hk.log ▸ hlog, hpins⟩
    · -- once released, the pin is held no more, and the rest leaves it alone
      obtain ⟨state, deadlineMs, heq, hdue, hlog, hpins⟩ := hr.due
      rcases ih hgood' hr.free with hk' | hr'
      · exact Or.inr ⟨hk'.held, state, deadlineMs, heq, hdue, hk'.log.trans hlog,
          hk'.pins.trans hpins⟩
      · obtain ⟨_, _, hnone, -⟩ := hr'.due
        cases hnone

/-- A pass gives a pin back if its deadline has come, and leaves it alone if not. -/
lemma release_cases (hgood : Good maxGpios c.holds) (havail : c.available = true)
    (h : Held c.holds gpio held) :
    Good maxGpios (gpioReleaseExpiredHolds maxGpios ms busy c).holds ∧
    ((Kept gpio held c (gpioReleaseExpiredHolds maxGpios ms busy c) ∧
        ∀ state deadlineMs, held = some (state, deadlineMs) →
          reached (uptimeMs ms) deadlineMs = false) ∨
      Released ms gpio held c (gpioReleaseExpiredHolds maxGpios ms busy c)) := by
  unfold gpioReleaseExpiredHolds
  rw [if_neg (by rw [havail]; decide)]
  refine ⟨foldl_good ms busy _ hgood, ?_⟩
  rcases foldl_held ms busy (List.finRange maxHolds) hgood h with hk | hr
  · refine Or.inl ⟨hk, ?_⟩
    rintro state deadlineMs rfl
    obtain ⟨i, hact, -, -, hdead⟩ := hk.held
    have hnot := foldl_due ms busy _ hgood i (Or.inl (List.mem_finRange i))
    unfold due at hnot
    rwa [hact, hdead, Bool.true_and] at hnot
  · exact Or.inr hr

end Pass

/-! ### Calls one after the other -/

section Runs

variable {maxGpios : UInt8}

lemma foldl_available (ms : ℕ) (busy : UInt8 → Bool) (is : List (Fin maxHolds)) (c : Context) :
    (is.foldl (releaseHold maxGpios ms busy) c).available = c.available := by
  induction is generalizing c with
  | nil => rfl
  | cons i is ih =>
    rw [List.foldl_cons, ih]
    unfold releaseHold
    dsimp only
    split_ifs <;> rfl

lemma step_available (c : Context) (ev : Event) :
    (step maxGpios c ev).available = c.available := by
  cases ev with
  | set ms refusal busy args =>
    change (gpioHandleSet maxGpios ms refusal busy args c).2.available = _
    unfold gpioHandleSet
    dsimp only
    split_ifs <;> first | rfl | (split <;> rfl)
  | pass ms busy =>
    change (gpioReleaseExpiredHolds maxGpios ms busy c).available = _
    unfold gpioReleaseExpiredHolds
    split_ifs
    · rfl
    · exact foldl_available ms busy _ c

lemma step_good {c : Context} (hgood : Good maxGpios c.holds) (ev : Event) :
    Good maxGpios (step maxGpios c ev).holds := by
  cases ev with
  | set ms refusal busy args =>
    change Good maxGpios (gpioHandleSet maxGpios ms refusal busy args c).2.holds
    rcases handleSet_cases hgood ms refusal busy args with ⟨-, heq⟩ | ⟨-, hacc⟩
    · rw [heq]
      exact hgood
    · exact hacc.good
  | pass ms busy =>
    change Good maxGpios (gpioReleaseExpiredHolds maxGpios ms busy c).holds
    unfold gpioReleaseExpiredHolds
    split_ifs
    · exact hgood
    · exact foldl_good ms busy _ hgood

lemma run_good {c : Context} (hgood : Good maxGpios c.holds) (evs : List Event) :
    Good maxGpios (run maxGpios c evs).holds := by
  induction evs generalizing c with
  | nil => exact hgood
  | cons ev evs ih => exact ih (step_good hgood ev)

lemma run_available (c : Context) (evs : List Event) :
    (run maxGpios c evs).available = c.available := by
  induction evs generalizing c with
  | nil => rfl
  | cons ev evs ih => exact (ih _).trans (step_available c ev)

end Runs

/-! ### The history -/

/-- Calls in order of time, and passes that are not half the clock's range apart: each comes soon
enough after the pass before it, or, where it is the first, after the commands before it. -/
structure Regular (evs : List Event) : Prop where
  ordered : evs.Pairwise (·.ms ≤ ·.ms)
  close : ∀ pre ms busy post, evs = pre ++ .pass ms busy :: post →
    (∀ q, (pre.filterMap Event.passMs).getLast? = some q → ms < q + 2 ^ 31) ∧
    (pre.filterMap Event.passMs = [] → ∀ ev ∈ pre, ms < ev.ms + 2 ^ 31)

lemma Regular.left {pre post : List Event} (h : Regular (pre ++ post)) : Regular pre where
  ordered := (List.pairwise_append.mp h.ordered).1
  close pre' ms busy post' heq := h.close pre' ms busy (post' ++ post) (by rw [heq]; simp)

/-- What a command leaves to be done: the state to put its pin in, and when. -/
def owedBy (ms : ℕ) (args : SetArgs) : Option (UInt8 × ℕ) :=
  if args.durationMs = 0 then none else some (args.afterState, ms + args.durationMs.toNat)

/-- How the table holds it. -/
def entryOf (owed : UInt8 × ℕ) : UInt8 × UInt32 := (owed.1, uptimeMs owed.2)

/-- What is left to be done comes to a release by the first pass at or after its deadline. -/
def released (gpio : UInt8) (owed : Option (UInt8 × ℕ)) (evs : List Event) : Option Release :=
  owed.bind fun (state, deadline) =>
    ((evs.filterMap Event.passMs).find? (deadline ≤ ·)).map fun ms => ⟨ms, gpio, state⟩

/-- No command for a pin is accepted. -/
def Quiet (maxGpios gpio : UInt8) (c : Context) (evs : List Event) : Prop :=
  ∀ pre ms refusal busy args post, evs = pre ++ .set ms refusal busy args :: post →
    args.gpio = gpio → (gpioHandleSet maxGpios ms refusal busy args (run maxGpios c pre)).1 ≠ .ok

/-- Between two accepted commands for a pin: it has been released if that was due, and is as the
command, or the release, has put it. -/
structure Tracks (gpio state : UInt8) (owed : Option (UInt8 × ℕ)) (c : Context)
    (evs : List Event) (c' : Context) : Prop where
  held : Held c'.holds gpio (if (released gpio owed evs).isSome then none else owed.map entryOf)
  log : releasesOf gpio c' = releasesOf gpio c ++ (released gpio owed evs).toList
  pins : c'.pins gpio = ((released gpio owed evs).map (·.state)).getD state

section Track

variable {maxGpios gpio state : UInt8} {owed : Option (UInt8 × ℕ)} {c c' : Context}
  {evs : List Event}

@[simp] lemma released_nil (gpio : UInt8) (owed : Option (UInt8 × ℕ)) :
    released gpio owed [] = none := by
  cases owed <;> rfl

lemma released_set (gpio : UInt8) (owed : Option (UInt8 × ℕ)) (evs : List Event) (ms : ℕ)
    (refusal : Option OraResult) (busy : UInt8 → Bool) (args : SetArgs) :
    released gpio owed (evs ++ [.set ms refusal busy args]) = released gpio owed evs := by
  simp [released, Event.passMs]

lemma released_pass (gpio : UInt8) (owed : Option (UInt8 × ℕ)) (evs : List Event) (ms : ℕ)
    (busy : UInt8 → Bool) : released gpio owed (evs ++ [.pass ms busy]) =
      (released gpio owed evs).or (owed.bind fun (state, deadline) =>
        if deadline ≤ ms then some ⟨ms, gpio, state⟩ else none) := by
  cases owed with
  | none => rfl
  | some owed =>
    obtain ⟨state, deadline⟩ := owed
    simp only [released, Option.bind_some, List.filterMap_append, List.find?_append,
      List.filterMap_cons, List.filterMap_nil, Event.passMs]
    cases (evs.filterMap Event.passMs).find? (deadline ≤ ·) with
    | some q => rfl
    | none =>
      by_cases hdue : deadline ≤ ms <;> simp [hdue]

/-- An accepted command begins it. -/
lemma tracks_accepted {ms : ℕ} {args : SetArgs} (h : Accepted maxGpios ms args c c') :
    Tracks args.gpio args.state (owedBy ms args) c [] c' where
  held := by
    have hown := h.own
    unfold owedBy
    rw [released_nil, if_neg (by simp)]
    split_ifs at hown ⊢
    · exact hown
    · have hclock : uptimeMs (ms + args.durationMs.toNat) = uptimeMs ms + args.durationMs := by
        unfold uptimeMs
        rw [UInt32.ofNat_add, UInt32.ofNat_toNat]
      change Held c'.holds args.gpio (some (args.afterState, uptimeMs _))
      rw [hclock]
      exact hown
  log := by
    rw [released_nil, Option.toList_none, List.append_nil]
    unfold releasesOf
    rw [h.log]
  pins := by
    rw [released_nil, h.pins, Function.update_self]
    rfl

/-- A command for another pin, or one that is refused, leaves it as it is. -/
lemma tracks_set (ht : Tracks gpio state owed c evs c') (hgood : Good maxGpios c'.holds) (ms : ℕ)
    (refusal : Option OraResult) (busy : UInt8 → Bool) (args : SetArgs)
    (hquiet : args.gpio = gpio → (gpioHandleSet maxGpios ms refusal busy args c').1 ≠ .ok) :
    Tracks gpio state owed c (evs ++ [.set ms refusal busy args])
      (step maxGpios c' (.set ms refusal busy args)) := by
  change Tracks gpio state owed c _ (gpioHandleSet maxGpios ms refusal busy args c').2
  rcases handleSet_cases hgood ms refusal busy args with ⟨-, heq⟩ | ⟨hok, hacc⟩
  · rw [heq]
    constructor <;> rw [released_set]
    · exact ht.held
    · exact ht.log
    · exact ht.pins
  · have hne : gpio ≠ args.gpio := fun h => hquiet h.symm hok
    constructor <;> rw [released_set]
    · exact hacc.others gpio _ hne ht.held
    · unfold releasesOf
      rw [hacc.log]
      exact ht.log
    · rw [hacc.pins, Function.update_of_ne hne]
      exact ht.pins

/-- A pass releases the pin where that is due and has not been done. -/
lemma tracks_pass (ht : Tracks gpio state owed c evs c') (hgood : Good maxGpios c'.holds)
    (havail : c'.available = true) (ms : ℕ) (busy : UInt8 → Bool)
    (hclose : released gpio owed evs = none → ∀ o, owed = some o →
      ms < o.2 + 2 ^ 31 ∧ o.2 ≤ ms + 2 ^ 31) :
    Tracks gpio state owed c (evs ++ [.pass ms busy])
      (step maxGpios c' (.pass ms busy)) := by
  change Tracks gpio state owed c _ (gpioReleaseExpiredHolds maxGpios ms busy c')
  obtain ⟨-, hcases⟩ := release_cases ms busy hgood havail ht.held
  cases hrel : released gpio owed evs with
  | some r =>
    rw [hrel] at hcases
    rcases hcases with ⟨hk, -⟩ | hr
    · constructor <;> rw [released_pass, hrel, Option.some_or]
      · exact hk.held
      · rw [hk.log, ht.log, hrel]
      · rw [hk.pins, ht.pins, hrel]
    · obtain ⟨_, _, hnone, -⟩ := hr.due
      cases hnone
  | none =>
    rw [hrel] at hcases
    cases owed with
    | none =>
      rcases hcases with ⟨hk, -⟩ | hr
      · constructor <;> rw [released_pass, hrel, Option.none_or]
        · exact hk.held
        · rw [hk.log, ht.log, hrel]
          rfl
        · rw [hk.pins, ht.pins, hrel]
          rfl
      · obtain ⟨_, _, hnone, -⟩ := hr.due
        cases hnone
    | some o =>
      obtain ⟨after, deadline⟩ := o
      obtain ⟨hlt, hle⟩ := hclose hrel _ rfl
      have hiff : reached (uptimeMs ms) (uptimeMs deadline) = true ↔ deadline ≤ ms :=
        reached_iff rfl rfl hle hlt
      rcases hcases with ⟨hk, hnot⟩ | hr
      · have hno : ¬deadline ≤ ms := fun h => by
          rw [hnot after (uptimeMs deadline) rfl] at hiff
          exact absurd (hiff.mpr h) (by decide)
        have hnext : released gpio (some (after, deadline)) (evs ++ [.pass ms busy]) = none := by
          rw [released_pass, hrel, Option.none_or]
          exact if_neg hno
        constructor <;> rw [hnext]
        · exact hk.held
        · rw [hk.log, ht.log, hrel]
        · rw [hk.pins, ht.pins, hrel]
      · obtain ⟨_, _, heq, hdue, hlog, hpins⟩ := hr.due
        cases heq
        have hnext : released gpio (some (after, deadline)) (evs ++ [.pass ms busy])
            = some ⟨ms, gpio, after⟩ := by
          rw [released_pass, hrel, Option.none_or]
          exact if_pos (hiff.mp hdue)
        constructor <;> rw [hnext]
        · exact hr.free
        · rw [hlog, ht.log, hrel, Option.toList_none, List.append_nil]
          rfl
        · exact hpins

end Track

/-! ### Runs -/

section Run

variable {maxGpios : UInt8} {c : Context} {pre mid : List Event} {ms : ℕ}
  {refusal : Option OraResult} {busy : UInt8 → Bool} {args : SetArgs}

/-- A pass that comes while a release is owed is within half the clock's range of its deadline. -/
lemma close_of_regular {p : ℕ} {busy' : UInt8 → Bool}
    (hreg : Regular (pre ++ .set ms refusal busy args :: mid ++ [.pass p busy']))
    (hbound : args.durationMs ≤ oraGpioMaxHoldMs)
    (hrel : released args.gpio (owedBy ms args) mid = none) {o : UInt8 × ℕ}
    (ho : owedBy ms args = some o) : p < o.2 + 2 ^ 31 ∧ o.2 ≤ p + 2 ^ 31 := by
  unfold owedBy at ho hrel
  split_ifs at ho hrel with hdur
  obtain rfl := Option.some.inj ho
  have hle : args.durationMs.toNat ≤ 60000 := UInt32.le_iff_toNat_le.mp hbound
  have hord := List.pairwise_append.mp hreg.ordered
  have hafter : ms ≤ p := hord.2.2 _ (List.mem_append_right _ List.mem_cons_self) _
    List.mem_cons_self
  refine ⟨?_, by dsimp only; omega⟩
  obtain ⟨hlast, hfirst⟩ := hreg.close _ p busy' [] rfl
  -- the pass before it is one before the command, or one the deadline had not come for
  cases hq : (List.filterMap Event.passMs
      (pre ++ .set ms refusal busy args :: mid)).getLast? with
  | none =>
    have := hfirst (List.getLast?_eq_none_iff.mp hq) (.set ms refusal busy args)
      (List.mem_append_right _ List.mem_cons_self)
    change p < ms + 2 ^ 31 at this
    dsimp only
    omega
  | some q =>
    have hclose := hlast q hq
    have hmem := List.mem_of_getLast? hq
    rw [List.filterMap_append, List.mem_append] at hmem
    rcases hmem with hmem | hmem
    · obtain ⟨ev, hev, hqev⟩ := List.mem_filterMap.mp hmem
      have hbefore : ev.ms ≤ ms :=
        (List.pairwise_append.mp hord.1).2.2 ev hev _ List.mem_cons_self
      cases ev with
      | set => cases hqev
      | pass q' =>
        obtain rfl := Option.some.inj hqev
        change q' ≤ ms at hbefore
        dsimp only
        omega
    · have hmid : q ∈ mid.filterMap Event.passMs := hmem
      rw [released, Option.bind_some, Option.map_eq_none_iff, List.find?_eq_none] at hrel
      have hbefore := hrel q hmid
      simp only [decide_eq_true_eq, not_le] at hbefore
      dsimp only
      omega

/-- Up to the next accepted command for its pin, an accepted command's release comes when it is
due, and once. -/
lemma run_tracks (hgood : Good maxGpios c.holds)
    (hok : (gpioHandleSet maxGpios ms refusal busy args c).1 = .ok)
    (hreg : Regular (pre ++ .set ms refusal busy args :: mid))
    (hquiet : Quiet maxGpios args.gpio (step maxGpios c (.set ms refusal busy args)) mid) :
    Tracks args.gpio args.state (owedBy ms args) c mid
      (run maxGpios c (.set ms refusal busy args :: mid)) := by
  have hacc : Accepted maxGpios ms args c (step maxGpios c (.set ms refusal busy args)) := by
    rcases handleSet_cases hgood ms refusal busy args with ⟨hno, -⟩ | ⟨-, hacc⟩
    · exact absurd hok hno
    · exact hacc
  have havail : (step maxGpios c (.set ms refusal busy args)).available = true :=
    (step_available c _).trans hacc.available
  rw [run_cons]
  induction mid using List.reverseRecOn with
  | nil => exact tracks_accepted hacc
  | append_singleton mid ev ih =>
    rw [← List.cons_append, ← List.append_assoc] at hreg
    have ht := ih hreg.left fun pre' ms' refusal' busy' args' post' heq =>
      hquiet pre' ms' refusal' busy' args' (post' ++ [ev]) (by rw [heq]; simp)
    have hgood' := run_good hacc.good mid
    rw [run_append]
    cases ev with
    | set ms' refusal' busy' args' =>
      exact tracks_set ht hgood' ms' refusal' busy' args'
        (hquiet mid ms' refusal' busy' args' [] rfl)
    | pass ms' busy' =>
      refine tracks_pass ht hgood' ?_ ms' busy' fun hrel o ho =>
        close_of_regular hreg hacc.bound hrel ho
      exact (run_available _ mid).trans havail

end Run

/-- Whatever commands and passes come: no pin has two holds; a refused command changes nothing; and
after an accepted one, until the next for its pin, the pin is released by the first pass at or after
the deadline, if it has one, and by that one alone. -/
theorem holds_released (maxGpios : UInt8) (available : Bool) (pins : UInt8 → UInt8)
    (evs : List Event) (hreg : Regular evs) :
    (∀ pre post, evs = pre ++ post → ∀ i j,
      ((run maxGpios (.reset available pins) pre).holds i).active = true →
      ((run maxGpios (.reset available pins) pre).holds j).active = true →
      ((run maxGpios (.reset available pins) pre).holds i).gpio
        = ((run maxGpios (.reset available pins) pre).holds j).gpio → i = j) ∧
    ∀ pre ms refusal busy args mid post,
      evs = pre ++ .set ms refusal busy args :: (mid ++ post) →
      ∀ c, c = run maxGpios (.reset available pins) pre →
      ((gpioHandleSet maxGpios ms refusal busy args c).1 ≠ .ok →
        (gpioHandleSet maxGpios ms refusal busy args c).2 = c) ∧
      ((gpioHandleSet maxGpios ms refusal busy args c).1 = .ok →
        Quiet maxGpios args.gpio (step maxGpios c (.set ms refusal busy args)) mid →
        Tracks args.gpio args.state (owedBy ms args) c mid
          (run maxGpios c (.set ms refusal busy args :: mid))) := by
  have hgood : ∀ pre, Good maxGpios (run maxGpios (.reset available pins) pre).holds :=
    fun pre => run_good (good_reset maxGpios available pins) pre
  refine ⟨fun pre _ _ => (hgood pre).one, ?_⟩
  rintro pre ms refusal busy args mid post rfl c rfl
  constructor
  · intro hno
    rcases handleSet_cases (hgood pre) ms refusal busy args with ⟨-, heq⟩ | ⟨hok, -⟩
    · exact heq
    · exact absurd hok hno
  · intro hok hquiet
    rw [← List.cons_append, ← List.append_assoc] at hreg
    exact run_tracks (hgood pre) hok hreg.left hquiet

/-! ### A run -/

lemma regular_of_early {evs : List Event} (hord : evs.Pairwise (·.ms ≤ ·.ms))
    (h : ∀ ev ∈ evs, ev.ms < 2 ^ 31) : Regular evs where
  ordered := hord
  close pre ms busy post heq := by
    have hms : ms < 2 ^ 31 := h (.pass ms busy) (by rw [heq]; simp)
    exact ⟨fun q _ => by omega, fun _ ev _ => by omega⟩

/-- A pin held high for a tenth of a second, then put low. -/
def held : SetArgs := ⟨5, 1, 0, 0, 100⟩

/-- Three passes, the second of them the first after the deadline. -/
def passes : List Event := [.pass 50 fun _ => false, .pass 120 fun _ => false,
  .pass 130 fun _ => false]

theorem holds_released_pass : releasesOf 5 (run 30 (.reset true fun _ => 2)
    (.set 0 none (fun _ => false) held :: passes)) = [⟨120, 5, 0⟩] := by
  have hreg : Regular (.set 0 none (fun _ => false) held :: passes) :=
    regular_of_early (by decide) (by decide)
  have htracks := ((holds_released 30 true (fun _ => 2) _ hreg).2 [] 0 none (fun _ => false) held
    passes [] rfl _ rfl).2 (by decide)
  refine (htracks ?_).log
  rintro (_ | ⟨a, _ | ⟨b, _ | ⟨c, pre⟩⟩⟩) ms refusal busy args post heq <;> simp [passes] at heq

end OneRom.UsbGpio
