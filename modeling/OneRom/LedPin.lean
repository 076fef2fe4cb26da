import OneRom.LedEngine

/-!
The two LEDs on one pin. A pixel is clocked at the RGB LED while the state machine has the pin and
after the line has been low long enough to be a reset; the status LED gets the pin back once the
pixel has been taken.
-/

namespace OneRom.LedPin

open LedEngine Checks

/-! ### What a pixel needs -/

/-- How long the line is low before a pixel, and how long the pin is the state machine's after. -/
def resetDelay : ℕ := 200
def parkDelay : ℕ := 150

/-- A pixel is handed over while the state machine owns the pin and after a reset, and the pin is
not taken back too soon after one. -/
def Intact : Moment → Prop
  | .handed us _ p => p.pioOwns = true ∧ ∀ h ∈ p.lastHigh us, h + resetDelay ≤ us
  | .parking us p => ∀ x ∈ p.seen.lastPixel, x + parkDelay ≤ us
  | _ => True

/-- What keeps a pixel intact. A frame that finds a pixel waiting comes before the pin is due back
too, and the frame that finds the pin due back is no less late for it than the pixel was. No colour
is shown while a pixel waits out the reset that the claim owes. A colour that finds the pin with a
status LED that was lit when it got it finds the LED lit, and for as long as a reset. -/
def Careful : Moment → Prop
  | .frame us p => (p.writePending → us < p.seen.waitsUntil + parkDelay) ∧
    (p.writePending = false → p.parkPending → p.seen.dueBack ≤ us →
      p.seen.dueBack + p.seen.late ≤ us)
  | .writing us p => (p.writePending → p.parkedHigh) ∧
    (p.claimed → p.pinWithPio = false → p.parkedHigh = false →
      p.statusLedEnabled ∧ p.seen.litAt + resetDelay ≤ us)
  | _ => True

instance : DecidablePred Intact
  | .handed _ _ _ => inferInstanceAs (Decidable (_ ∧ _))
  | .parking _ _ => inferInstanceAs (Decidable (∀ _ ∈ _, _))
  | .frame _ _ | .writing _ _ => inferInstanceAs (Decidable True)

instance : DecidablePred Careful
  | .frame _ _ | .writing _ _ => inferInstanceAs (Decidable (_ ∧ _))
  | .handed _ _ _ | .parking _ _ => inferInstanceAs (Decidable True)

/-! ### The invariant -/

/-- What holds of the pin up to a time. -/
structure Inv (p : Pin) (now : ℕ) : Prop where
  unclaimed : p.claimed = false → p.pinWithPio = false
  owed : p.resetOwed = false
  owns : p.pioOwns = p.pinWithPio
  pending : p.parkPending = p.pinWithPio
  high : ∀ h ∈ p.seen.lastHigh, h ≤ now
  pixel : ∀ x ∈ p.seen.lastPixel, x ≤ now
  park : p.pinWithPio = true → p.parkDueUs.toNat = p.seen.dueBack % 2 ^ 32 ∧
    p.seen.dueBack ≤ now + resetDelay + parkDelay
  /-- The pin is due back long enough after a pixel, but for how late the pixel was. -/
  sent : p.pinWithPio = true → p.writePending = false →
    ∀ x ∈ p.seen.lastPixel, x + parkDelay ≤ p.seen.dueBack + p.seen.late
  /-- A pixel that waits does so for the whole of a reset. -/
  waits : p.writePending = true → p.pinWithPio = true ∧
    p.writeDueUs.toNat = p.seen.waitsUntil % 2 ^ 32 ∧
    p.seen.dueBack = p.seen.waitsUntil + parkDelay ∧
    ∀ h ∈ p.seen.lastHigh, h + resetDelay ≤ p.seen.waitsUntil
  settled : p.pinWithPio = true → p.writePending = false →
    ∀ h ∈ p.seen.lastHigh, h + resetDelay ≤ now
  /-- With a status LED that is lit, the line is low, and has been since that was so. -/
  parked : p.claimed = true → p.pinWithPio = false → p.statusLedEnabled = true →
    p.sioHigh = false ∧ ∀ h ∈ p.seen.lastHigh, h ≤ p.seen.litAt

lemma Inv.mono {p : Pin} {now us : ℕ} (h : Inv p now) (hle : now ≤ us) : Inv p us where
  unclaimed := h.unclaimed
  owed := h.owed
  owns := h.owns
  pending := h.pending
  high x hx := (h.high x hx).trans hle
  pixel x hx := (h.pixel x hx).trans hle
  park hp := by
    obtain ⟨hdue, hback⟩ := h.park hp
    exact ⟨hdue, by omega⟩
  sent := h.sent
  waits := h.waits
  settled hp hw x hx := (h.settled hp hw x hx).trans hle
  parked := h.parked

lemma inv_reset : Inv .reset 0 where
  unclaimed _ := rfl
  owed := rfl
  owns := rfl
  pending := rfl
  high := by simp [Pin.reset]
  pixel := by simp [Pin.reset]
  park := by simp [Pin.reset]
  sent := by simp [Pin.reset]
  waits := by simp [Pin.reset]
  settled := by simp [Pin.reset]
  parked := by simp [Pin.reset]

/-- When the line was last high is not after now. -/
lemma lastHigh_le {p : Pin} {now : ℕ} (h : ∀ x ∈ p.seen.lastHigh, x ≤ now) :
    ∀ x ∈ p.lastHigh now, x ≤ now := by
  unfold Pin.lastHigh
  split_ifs
  · rintro x ⟨⟩
    exact le_rfl
  · exact h

lemma lastHigh_low (p : Pin) (us : ℕ) (h : p.pioOwns = true ∨ p.sioHigh = false) :
    p.lastHigh us = p.seen.lastHigh :=
  if_neg fun hc => h.elim (fun h => by rw [h] at hc; exact absurd hc.1 (by decide))
    fun h => by rw [h] at hc; exact absurd hc.2 (by decide)

/-- Where every moment so far was careful, the pin is as it should be and every moment intact. -/
def Sound (e : Engine) (now : ℕ) : Prop :=
  (∀ m ∈ e.log, Careful m) → Inv e.pin now ∧ ∀ m ∈ e.log, Intact m

lemma Sound.mono {e : Engine} {now us : ℕ} (h : Sound e now) (hle : now ≤ us) : Sound e us :=
  fun hc => ⟨(h hc).1.mono hle, (h hc).2⟩

/-- Channels are no part of it. -/
lemma Sound.setChannel {e : Engine} {now : ℕ} (h : Sound e now) (led : Led) (ch : Channel) :
    Sound (e.setChannel led ch) now := h

/-- A moment more. -/
lemma sound_note {e : Engine} {m : Moment} {now : ℕ} (h : Sound e now)
    (hm : Inv e.pin now → Careful m → Intact m) : Sound (e.note m) now := by
  intro hc
  have hold : ∀ m' ∈ e.log, Careful m' := fun m' hm' => hc m' (List.mem_append_left _ hm')
  obtain ⟨hinv, hint⟩ := h hold
  have hmc := hc m (List.mem_append_right _ List.mem_cons_self)
  refine ⟨hinv, fun m' hm' => ?_⟩
  rcases List.mem_append.mp hm' with hm' | hm'
  · exact hint m' hm'
  · obtain rfl := List.mem_singleton.mp hm'
    exact hm hinv hmc

/-! ### Taking the pin -/

section Shared

variable {hw : LedHw} (hshared : ledPinIsShared hw = true)

include hshared in
lemma gpio_of_shared : ∃ g, ledGpio hw .rgb = some g := by
  unfold ledPinIsShared at hshared
  simp only [Bool.and_eq_true, decide_eq_true_eq, beq_iff_eq] at hshared
  refine ⟨hw.gpioNeopixel, if_pos ?_⟩
  rw [← hshared.2]
  exact hshared.1

include hshared in
lemma status_of_shared : ∃ g, ledGpio hw .status = some g := by
  unfold ledPinIsShared at hshared
  simp only [Bool.and_eq_true, decide_eq_true_eq] at hshared
  exact ⟨hw.gpioStatus, if_pos hshared.1⟩

/-- The pin as a colour finds it once it has been taken. -/
def taken (hw : LedHw) (us : UInt64) (p : Pin) : Pin :=
  ledBorrowPin hw us (if p.claimed then p else ledPioClaim hw us p)

/-- What taking the pin sets, and what it leaves. -/
structure Taken (us : UInt64) (p q : Pin) : Prop where
  claimed : q.claimed = true
  pinWithPio : q.pinWithPio = true
  pioOwns : q.pioOwns = true
  parkPending : q.parkPending = true
  parkDueUs : q.parkDueUs = us.toUInt32 + ledParkDelayUs
  writePending : q.writePending = p.writePending
  parkedHigh : q.parkedHigh = p.parkedHigh
  resetOwed : q.resetOwed = (p.resetOwed || !p.claimed)
  seen : q.seen = { p.seen with
    lastHigh := p.lastHigh us.toNat, late := 0, dueBack := us.toNat + parkDelay }

include hshared in
lemma taken_spec (us : UInt64) (p : Pin) : Taken us p (taken hw us p) := by
  unfold taken ledBorrowPin
  rw [if_pos hshared]
  cases hc : p.claimed with
  | true =>
    have howed : p.resetOwed = (p.resetOwed || !p.claimed) := by
      rw [hc, Bool.not_true, Bool.or_false]
    exact ⟨hc, rfl, rfl, rfl, rfl, rfl, rfl, howed, rfl⟩
  | false =>
    have hclaim : ledPioClaim hw us p = { p.toPio us.toNat with
        claimed := true, resetOwed := true, parkDueUs := us.toUInt32 + ledParkDelayUs,
        parkPending := true } := if_pos hshared
    have howed : true = (p.resetOwed || !p.claimed) := by
      rw [hc, Bool.not_false, Bool.or_true]
    rw [if_neg Bool.false_ne_true, hclaim]
    refine ⟨rfl, rfl, rfl, rfl, rfl, rfl, rfl, howed, ?_⟩
    -- the claim has the pad already, so the borrow sees nothing new on the line
    exact congrArg (fun h => { p.seen with
      lastHigh := h, late := 0, dueBack := us.toNat + parkDelay })
      (lastHigh_low (p.toPio us.toNat) us.toNat (Or.inl rfl))

lemma parkDue_toNat (us : UInt64) :
    (us.toUInt32 + ledParkDelayUs).toNat = (us.toNat + parkDelay) % 2 ^ 32 := by
  rw [UInt32.toNat_add, UInt64.toNat_toUInt32, Nat.mod_add_mod]
  rfl

lemma writeDue_toNat (us : UInt64) :
    (us.toUInt32 + ledResetDelayUs).toNat = (us.toNat + resetDelay) % 2 ^ 32 := by
  rw [UInt32.toNat_add, UInt64.toNat_toUInt32, Nat.mod_add_mod]
  rfl

lemma writeParkDue_toNat (us : UInt64) : (us.toUInt32 + ledResetDelayUs + ledParkDelayUs).toNat
    = (us.toNat + resetDelay + parkDelay) % 2 ^ 32 := by
  rw [UInt32.toNat_add, writeDue_toNat, Nat.mod_add_mod]
  rfl

/-! ### Showing a colour -/

variable {us : UInt64} {p q : Pin}

/-- A pixel that is to wait does so for a whole reset. -/
lemma inv_wait (h : Inv p us.toNat) (ht : Taken us p q) (grb : UInt32) :
    Inv { q with
      pendingPixel := grb
      writeDueUs := us.toUInt32 + ledResetDelayUs
      writePending := true
      resetOwed := false
      parkDueUs := us.toUInt32 + ledResetDelayUs + ledParkDelayUs
      seen := { q.seen with
        waitsUntil := us.toNat + ledResetDelayUs.toNat
        dueBack := us.toNat + ledResetDelayUs.toNat + ledParkDelayUs.toNat } } us.toNat where
  unclaimed hc := absurd (ht.claimed.symm.trans hc) (by decide)
  owed := rfl
  owns := ht.pioOwns.trans ht.pinWithPio.symm
  pending := ht.parkPending.trans ht.pinWithPio.symm
  high := by
    rw [ht.seen]
    exact lastHigh_le h.high
  pixel := by
    rw [ht.seen]
    exact h.pixel
  park _ := ⟨writeParkDue_toNat us, le_rfl⟩
  sent _ hw := Bool.noConfusion hw
  waits _ := by
    refine ⟨ht.pinWithPio, writeDue_toNat us, rfl, fun x hx => ?_⟩
    rw [ht.seen] at hx
    exact Nat.add_le_add_right (lastHigh_le h.high x hx) _
  settled _ hw := Bool.noConfusion hw
  parked _ hp := absurd (ht.pinWithPio.symm.trans hp) (by decide)

/-- A pixel that goes at once has the pin, and a line that has been low for a reset. -/
lemma high_of_careful (h : Inv p us.toNat) (hc : Careful (.writing us.toNat p))
    (hclaimed : p.claimed = true) (hhigh : p.parkedHigh = false) :
    p.writePending = false ∧ ∀ x ∈ p.lastHigh us.toNat, x + resetDelay ≤ us.toNat := by
  have hwait : p.writePending = false := by
    by_contra hw
    rw [Bool.not_eq_false] at hw
    exact absurd ((hc.1 hw).symm.trans hhigh) (by decide)
  refine ⟨hwait, ?_⟩
  cases hpin : p.pinWithPio with
  | true =>
    rw [lastHigh_low p us.toNat (Or.inl (h.owns.trans hpin))]
    exact h.settled hpin hwait
  | false =>
    obtain ⟨hlit, hsince⟩ := hc.2 hclaimed hpin hhigh
    obtain ⟨hlow, hx⟩ := h.parked hclaimed hpin hlit
    rw [lastHigh_low p us.toNat (Or.inr hlow)]
    exact fun x hxm => (Nat.add_le_add_right (hx x hxm) _).trans hsince

/-- After a pixel the pin is the state machine's until it has been taken. -/
lemma inv_sent (h : Inv p us.toNat) (ht : Taken us p q) (hwait : p.writePending = false)
    (howed : p.resetOwed = false) (hclaimed : p.claimed = true)
    (hhigh : ∀ x ∈ p.lastHigh us.toNat, x + resetDelay ≤ us.toNat) :
    Inv { q with seen := { q.seen with lastPixel := some us.toNat } } us.toNat where
  unclaimed hc := absurd (ht.claimed.symm.trans hc) (by decide)
  owed := by
    change q.resetOwed = false
    rw [ht.resetOwed, howed, hclaimed]
    rfl
  owns := ht.pioOwns.trans ht.pinWithPio.symm
  pending := ht.parkPending.trans ht.pinWithPio.symm
  high := by
    rw [ht.seen]
    exact lastHigh_le h.high
  pixel := by
    rintro x ⟨⟩
    exact le_rfl
  park _ := by
    change q.parkDueUs.toNat = _ ∧ _
    rw [ht.parkDueUs, ht.seen]
    exact ⟨parkDue_toNat us, Nat.add_le_add_right (Nat.le_add_right ..) _⟩
  sent _ _ := by
    rw [ht.seen]
    rintro x ⟨⟩
    exact le_rfl
  waits hw := absurd ((ht.writePending.trans hwait).symm.trans hw) (by decide)
  settled _ _ := by
    rw [ht.seen]
    exact hhigh
  parked _ hp := absurd (ht.pinWithPio.symm.trans hp) (by decide)

include hshared in
/-- What showing a colour does once it has the pin. -/
lemma ledRgbWrite_cases (us : UInt64) (e : Engine) (brightness red green blue level : UInt8) :
    ∃ grb q, Taken us e.pin q ∧
      ((q.resetOwed = true ∨ q.parkedHigh = true) ∧
        ledRgbWrite hw us brightness red green blue level e
          = (e.note (.writing us.toNat e.pin)).setPin { q with
              pendingPixel := grb
              writeDueUs := us.toUInt32 + ledResetDelayUs
              writePending := true
              resetOwed := false
              parkDueUs := us.toUInt32 + ledResetDelayUs + ledParkDelayUs
              seen := { q.seen with
                waitsUntil := us.toNat + ledResetDelayUs.toNat
                dueBack := us.toNat + ledResetDelayUs.toNat + ledParkDelayUs.toNat } } ∨
      (q.resetOwed = false ∧ q.parkedHigh = false) ∧ q.writePending = true ∧
        ledRgbWrite hw us brightness red green blue level e
          = (e.note (.writing us.toNat e.pin)).setPin { q with pendingPixel := grb } ∨
      (q.resetOwed = false ∧ q.parkedHigh = false) ∧ q.writePending = false ∧
        ledRgbWrite hw us brightness red green blue level e
          = ledPioWrite us grb ((e.note (.writing us.toNat e.pin)).setPin q)) := by
  obtain ⟨g, hg⟩ := gpio_of_shared hshared
  refine ⟨ledPixel brightness red green blue level, taken hw us e.pin,
    taken_spec hshared us e.pin, ?_⟩
  have hbody : ledRgbWrite hw us brightness red green blue level e
      = (fun q : Pin => if q.resetOwed || (true && q.parkedHigh) then
          (e.note (.writing us.toNat e.pin)).setPin { q with
            pendingPixel := ledPixel brightness red green blue level
            writeDueUs := us.toUInt32 + ledResetDelayUs
            writePending := true
            resetOwed := false
            parkDueUs := us.toUInt32 + ledResetDelayUs + ledParkDelayUs
            seen := { q.seen with
              waitsUntil := us.toNat + ledResetDelayUs.toNat
              dueBack := us.toNat + ledResetDelayUs.toNat + ledParkDelayUs.toNat } }
        else if q.writePending then (e.note (.writing us.toNat e.pin)).setPin
          { q with pendingPixel := ledPixel brightness red green blue level }
        else ledPioWrite us (ledPixel brightness red green blue level)
          ((e.note (.writing us.toNat e.pin)).setPin q)) (taken hw us e.pin) := by
    unfold ledRgbWrite
    rw [hg, hshared]
    rfl
  rw [hbody]
  generalize taken hw us e.pin = q
  dsimp only
  split_ifs with hwait hpend
  · rw [Bool.true_and, Bool.or_eq_true] at hwait
    exact Or.inl ⟨hwait, rfl⟩
  · rw [Bool.true_and, Bool.or_eq_true, not_or, Bool.not_eq_true, Bool.not_eq_true] at hwait
    exact Or.inr (Or.inl ⟨hwait, hpend, rfl⟩)
  · rw [Bool.true_and, Bool.or_eq_true, not_or, Bool.not_eq_true, Bool.not_eq_true] at hwait
    exact Or.inr (Or.inr ⟨hwait, Bool.eq_false_iff.mpr hpend, rfl⟩)

include hshared in
/-- Showing a colour keeps pixels intact. -/
lemma ledRgbWrite_sound {e : Engine} {now : ℕ} (h : Sound e now) (hle : now ≤ us.toNat)
    (brightness red green blue level : UInt8) :
    Sound (ledRgbWrite hw us brightness red green blue level e) us.toNat := by
  have hnote : Sound (e.note (.writing us.toNat e.pin)) us.toNat :=
    sound_note (h.mono hle) fun _ _ => trivial
  obtain ⟨grb, q, ht, ⟨hwait, heq⟩ | ⟨⟨howed, hhigh⟩, hpend, heq⟩ | ⟨⟨howed, hhigh⟩, hpend, heq⟩⟩ :=
    ledRgbWrite_cases hshared us e brightness red green blue level
  · rw [heq]
    intro hc
    obtain ⟨hinv, hint⟩ := hnote hc
    exact ⟨inv_wait hinv ht grb, hint⟩
  all_goals
    rw [ht.resetOwed, Bool.or_eq_false_iff, Bool.not_eq_false'] at howed
    rw [ht.parkedHigh] at hhigh
    rw [ht.writePending] at hpend
    rw [heq]
  · -- no pixel waits: it would be one that the claim's reset holds back
    intro hc
    obtain ⟨hinv, hint⟩ := hnote hc
    have hcare : Careful (.writing us.toNat e.pin) :=
      hc _ (List.mem_append_right _ List.mem_cons_self)
    have hnone := (high_of_careful hinv hcare howed.2 hhigh).1
    exact absurd (hnone.symm.trans hpend) (by decide)
  · intro hc
    have hc' : ∀ m ∈ (e.note (.writing us.toNat e.pin)).log, Careful m :=
      fun m hm => hc m (List.mem_append_left _ hm)
    obtain ⟨hinv, hint⟩ := hnote hc'
    have hcare : Careful (.writing us.toNat e.pin) :=
      hc' _ (List.mem_append_right _ List.mem_cons_self)
    obtain ⟨-, hlow⟩ := high_of_careful hinv hcare howed.2 hhigh
    refine ⟨inv_sent hinv ht hpend howed.1 howed.2 hlow, fun m hm => ?_⟩
    rcases List.mem_append.mp hm with hm | hm
    · exact hint m hm
    · obtain rfl := List.mem_singleton.mp hm
      refine ⟨ht.pioOwns, ?_⟩
      change ∀ x ∈ q.lastHigh us.toNat, _
      rw [lastHigh_low q us.toNat (Or.inl ht.pioOwns), ht.seen]
      exact hlow

/-! ### Lighting the status LED -/

/-- The pin once the status LED is lit or dark. -/
def shown (us : UInt64) (lit : Bool) (p : Pin) : Pin :=
  Pin.sio { p with
    statusLedEnabled := lit
    seen := { p.seen with
      litAt := if lit && !p.statusLedEnabled then us.toNat else p.seen.litAt } } us.toNat (!lit)

lemma inv_status (h : Inv p us.toNat) (lit : Bool) : Inv (shown us lit p) us.toNat where
  unclaimed := h.unclaimed
  owed := h.owed
  owns := h.owns
  pending := h.pending
  high := lastHigh_le h.high
  pixel := h.pixel
  park := h.park
  sent := h.sent
  waits hw := by
    obtain ⟨hpin, hdue, hback, hhigh⟩ := h.waits hw
    refine ⟨hpin, hdue, hback, fun x hx => hhigh x ?_⟩
    rwa [← lastHigh_low p us.toNat (Or.inl (h.owns.trans hpin))]
  settled hpin hw x hx := by
    refine h.settled hpin hw x ?_
    rwa [← lastHigh_low p us.toNat (Or.inl (h.owns.trans hpin))]
  parked hc hpin hlit := by
    obtain rfl : lit = true := hlit
    refine ⟨rfl, fun x hx => ?_⟩
    change x ≤ if _ then _ else _
    split_ifs with hwas
    · exact lastHigh_le h.high x hx
    · -- it was lit already, so the line stays as it was
      rw [Bool.true_and, Bool.not_eq_true', Bool.not_eq_false] at hwas
      obtain ⟨hlow, hsince⟩ := h.parked hc hpin hwas
      refine hsince x ?_
      rwa [← lastHigh_low p us.toNat (Or.inr hlow)]

include hshared in
lemma ledStatusShow_eq (e : Engine) (lit : Bool) :
    ledStatusShow hw us lit e = e.setPin (shown us lit e.pin) := by
  obtain ⟨g, hg⟩ := status_of_shared hshared
  unfold ledStatusShow
  rw [hg]
  cases lit <;> rfl

include hshared in
/-- Lighting or darkening the status LED keeps pixels intact. -/
lemma ledStatusShow_sound {e : Engine} {now : ℕ} (h : Sound e now) (hle : now ≤ us.toNat)
    (lit : Bool) : Sound (ledStatusShow hw us lit e) us.toNat := by
  rw [ledStatusShow_eq hshared e lit]
  intro hc
  obtain ⟨hinv, hint⟩ := h.mono hle hc
  exact ⟨inv_status hinv lit, hint⟩

/-! ### Giving the pin back -/

/-- The pin once the status LED has it back. -/
def parked (us : UInt64) (p : Pin) : Pin :=
  let p' := setupStatusLed us.toNat { p with parkPending := false, pinWithPio := false }
  let p' := p'.sio us.toNat (!p'.statusLedEnabled)
  { p' with
    parkedHigh := !p'.statusLedEnabled
    seen := { p'.seen with litAt := us.toNat } }

include hshared in
lemma ledPark_eq (e : Engine) :
    ledPark hw us e = (e.note (.parking us.toNat e.pin)).setPin (parked us e.pin) := by
  unfold ledPark parked
  rw [if_pos hshared]
  cases he : e.pin.statusLedEnabled <;>
    simp [setupStatusLed, Pin.toSio, Pin.sio, statusLedOn, statusLedOff]

lemma parked_high (h : ∀ x ∈ p.seen.lastHigh, x ≤ us.toNat) :
    ∀ x ∈ (parked us p).seen.lastHigh, x ≤ us.toNat := by
  have hsio : ∀ {q : Pin} (high : Bool), (∀ x ∈ q.seen.lastHigh, x ≤ us.toNat) →
      ∀ x ∈ (q.sio us.toNat high).seen.lastHigh, x ≤ us.toNat := fun _ hq => lastHigh_le hq
  have hpad : ∀ x ∈ (Pin.toSio { p with parkPending := false, pinWithPio := false }
      us.toNat).seen.lastHigh, x ≤ us.toNat := lastHigh_le h
  exact hsio (!p.statusLedEnabled) (hsio true hpad)

/-- Once no pixel waits the pin may go back. -/
lemma inv_parked (h : Inv p us.toNat) (hwait : p.writePending = false) :
    Inv (parked us p) us.toNat where
  unclaimed _ := rfl
  owed := h.owed
  owns := rfl
  pending := rfl
  high := parked_high h.high
  pixel := h.pixel
  park hp := Bool.noConfusion hp
  sent hp := Bool.noConfusion hp
  waits hw := absurd (hwait.symm.trans hw) (by decide)
  settled hp := Bool.noConfusion hp
  parked _ _ hlit := ⟨congrArg not hlit, parked_high h.high⟩

/-! ### Frames -/

/-- A waiting pixel goes after a reset. -/
lemma writeDue_sound {e : Engine} (hinv : Inv e.pin us.toNat) (hint : ∀ m ∈ e.log, Intact m) :
    Inv (ledWriteDue us e).pin us.toNat ∧ ∀ m ∈ (ledWriteDue us e).log, Intact m := by
  unfold ledWriteDue
  split_ifs with hdue
  · rw [Bool.and_eq_true] at hdue
    obtain ⟨hpin, hdueUs, hback, hhigh⟩ := hinv.waits hdue.1
    obtain ⟨hpark, hle⟩ := hinv.park hpin
    have hcome : e.pin.seen.waitsUntil ≤ us.toNat :=
      le_of_reached (UInt64.toNat_toUInt32 us) hdueUs (by
        unfold resetDelay parkDelay at hle
        omega) hdue.2
    have howns : e.pin.pioOwns = true := hinv.owns.trans hpin
    constructor
    · exact
        { unclaimed := hinv.unclaimed
          owed := hinv.owed
          owns := hinv.owns
          pending := hinv.pending
          high := hinv.high
          pixel := by
            rintro x ⟨⟩
            exact le_rfl
          park := fun _ => ⟨hpark, hle⟩
          sent := by
            rintro - - x ⟨⟩
            change us.toNat + parkDelay ≤ e.pin.seen.dueBack + (us.toNat - e.pin.seen.waitsUntil)
            omega
          waits := fun hw => Bool.noConfusion hw
          settled := fun _ _ x hx => (hhigh x hx).trans hcome
          parked := hinv.parked }
    · intro m hm
      rcases List.mem_append.mp hm with hm | hm
      · exact hint m hm
      · obtain rfl := List.mem_singleton.mp hm
        refine ⟨howns, fun x hx => (hhigh x ?_).trans hcome⟩
        rwa [← lastHigh_low e.pin us.toNat (Or.inl howns)]
  · exact ⟨hinv, hint⟩

/-- What the frame is careful about: the pin is not due back while a pixel waits, and once it is
due back the last pixel has been taken. -/
def Timely (us : UInt64) (p : Pin) : Prop :=
  (p.writePending = true → us.toNat < p.seen.dueBack) ∧
    (p.parkPending = true → p.seen.dueBack ≤ us.toNat →
      ∀ x ∈ p.seen.lastPixel, x + parkDelay ≤ us.toNat)

lemma timely_of_careful (hinv : Inv p us.toNat) (hcare : Careful (.frame us.toNat p)) :
    Timely us p := by
  have hwait : p.writePending = true → us.toNat < p.seen.dueBack := fun hw => by
    rw [(hinv.waits hw).2.2.1]
    exact hcare.1 hw
  refine ⟨hwait, fun hp hdue x hx => ?_⟩
  cases hw : p.writePending with
  | true => exact absurd (hwait hw) (not_lt.mpr hdue)
  | false =>
    exact (hinv.sent (hinv.pending.symm.trans hp) hw x hx).trans (hcare.2 hw hp hdue)

/-- A frame that hands a pixel over does not give the pin back. -/
lemma timely_writeDue {e : Engine} (h : Timely us e.pin) : Timely us (ledWriteDue us e).pin := by
  unfold ledWriteDue
  split_ifs with hdue
  · rw [Bool.and_eq_true] at hdue
    exact ⟨fun hw => Bool.noConfusion hw, fun _ hback => absurd (h.1 hdue.1) (not_lt.mpr hback)⟩
  · exact h

include hshared in
/-- The pin goes back only once a pixel has been taken. -/
lemma parkDue_sound {e : Engine} (hinv : Inv e.pin us.toNat) (hint : ∀ m ∈ e.log, Intact m)
    (htime : Timely us e.pin) :
    Inv (ledParkDue hw us e).pin us.toNat ∧ ∀ m ∈ (ledParkDue hw us e).log, Intact m := by
  unfold ledParkDue
  split_ifs with hdue
  · rw [Bool.and_eq_true] at hdue
    obtain ⟨hpark, hle⟩ := hinv.park (hinv.pending.symm.trans hdue.1)
    have hcome : e.pin.seen.dueBack ≤ us.toNat :=
      le_of_reached (UInt64.toNat_toUInt32 us) hpark (by
        unfold resetDelay parkDelay at hle
        omega) hdue.2
    have hnone : e.pin.writePending = false := by
      by_contra hw
      rw [Bool.not_eq_false] at hw
      exact absurd (htime.1 hw) (not_lt.mpr hcome)
    rw [ledPark_eq hshared]
    refine ⟨inv_parked hinv hnone, fun m hm => ?_⟩
    rcases List.mem_append.mp hm with hm | hm
    · exact hint m hm
    · obtain rfl := List.mem_singleton.mp hm
      exact htime.2 hdue.1 hcome
  · exact ⟨hinv, hint⟩

include hshared in
lemma mem_log_ledPark {e : Engine} {m : Moment} (hm : m ∈ e.log) :
    m ∈ (ledParkDue hw us e).log := by
  unfold ledParkDue
  split_ifs
  · rw [ledPark_eq hshared]
    exact List.mem_append_left _ hm
  · exact hm

lemma mem_log_ledWrite {e : Engine} {m : Moment} (hm : m ∈ e.log) :
    m ∈ (ledWriteDue us e).log := by
  unfold ledWriteDue
  split_ifs
  · exact List.mem_append_left _ hm
  · exact hm

include hshared in
/-- A frame's own work on the pin keeps pixels intact. -/
lemma frame_pin_sound {e : Engine} {now : ℕ} (h : Sound e now) (hle : now ≤ us.toNat) :
    Sound (ledParkDue hw us (ledWriteDue us (e.note (.frame us.toNat e.pin)))) us.toNat := by
  intro hc
  have hc' : ∀ m ∈ (e.note (.frame us.toNat e.pin)).log, Careful m :=
    fun m hm => hc m (mem_log_ledPark hshared (mem_log_ledWrite hm))
  have hnote : Sound (e.note (.frame us.toNat e.pin)) us.toNat :=
    sound_note (h.mono hle) fun _ _ => trivial
  obtain ⟨hinv, hint⟩ := hnote hc'
  have hcare : Careful (.frame us.toNat e.pin) :=
    hc' _ (List.mem_append_right _ List.mem_cons_self)
  have htime := timely_writeDue (e := e.note (.frame us.toNat e.pin)) (timely_of_careful hinv hcare)
  obtain ⟨hinv, hint⟩ := writeDue_sound hinv hint
  exact parkDue_sound hshared hinv hint htime

/-! ### Channels -/

include hshared in
lemma ledShow_sound {e : Engine} {now : ℕ} (h : Sound e now) (hle : now ≤ us.toNat) (led : Led)
    (lit : Bool) : Sound (ledShow hw us led lit e) us.toNat := by
  have hset := h.setChannel led { e.channel led with lit := lit }
  cases led with
  | rgb => exact ledRgbWrite_sound hshared hset hle _ _ _ _ _
  | status => exact ledStatusShow_sound hshared hset hle _

include hshared in
lemma ledRestore_sound {e : Engine} {now : ℕ} (h : Sound e now) (hle : now ≤ us.toNat)
    (led : Led) : Sound (ledRestore hw us led e) us.toNat := by
  have hset := h.setChannel led
    { e.channel led with inForce := (e.channel led).saved, step := 0, holdExpiryMs := 0 }
  have hshow := ledShow_sound hshared hset hle led ((e.channel led).saved.mode != .off)
  unfold ledRestore
  dsimp only
  split_ifs
  · exact hshow.setChannel led _
  · exact hshow

include hshared in
lemma ledAdvance_sound {e : Engine} {now : ℕ} (h : Sound e now) (hle : now ≤ us.toNat)
    (led : Led) (nowMs : UInt32) : Sound (ledAdvance hw us led nowMs e) us.toNat := by
  have hset := h.setChannel led
  unfold ledAdvance
  dsimp only
  split
  · exact h.mono hle
  · split
    · exact (ledShow_sound hshared (hset _) hle led _).setChannel led _
    · exact (ledShow_sound hshared (hset _) hle led _).setChannel led _
    · exact (ledRgbWrite_sound hshared (hset _) hle _ _ _ _ _).setChannel led _
    · exact (ledRgbWrite_sound hshared (hset _) hle _ _ _ _ _).setChannel led _
    · exact (ledShow_sound hshared (hset _) hle led _).setChannel led _
    · exact h.mono hle

include hshared in
lemma ledChannelFrame_sound {e : Engine} {now : ℕ} (h : Sound e now) (hle : now ≤ us.toNat)
    (led : Led) : Sound (ledChannelFrame hw us led e) us.toNat := by
  unfold ledChannelFrame
  dsimp only
  split_ifs
  · exact ledRestore_sound hshared h hle led
  · exact ledAdvance_sound hshared h hle led _
  · exact h.mono hle

/-! ### Runs -/

include hshared in
/-- A call keeps pixels intact. -/
lemma step_sound {e t : Engine} {now : ℕ} {ev : Event} (h : Sound e now)
    (hle : now ≤ ev.us.toNat) (hs : step hw e ev = .ok t) : Sound t ev.us.toNat := by
  cases ev with
  | frame us =>
    obtain rfl := Except.ok.inj hs
    have hpin := frame_pin_sound hshared h hle
    exact ledChannelFrame_sound hshared (ledChannelFrame_sound hshared hpin le_rfl _) le_rfl _
  | set us req =>
    change pioLedSet hw us req e = .ok t at hs
    unfold pioLedSet at hs
    obtain ⟨⟨led, mode⟩, -, hs⟩ := bind_eq_ok.mp hs
    dsimp only at hs
    have hset := h.setChannel led
      (ledTake (oraGetPluginUptimeMs us) led mode req (e.channel led))
    have hshow := ledShow_sound hshared hset hle led (mode != .off)
    split_ifs at hs
    · obtain rfl := Except.ok.inj hs
      exact hshow.setChannel led _
    · obtain rfl := Except.ok.inj hs
      exact hshow

include hshared in
/-- Calls made in order keep pixels intact. -/
lemma run_sound {e t : Engine} {now : ℕ} {evs : List Event} (h : Sound e now)
    (hnow : ∀ ev ∈ evs, now ≤ ev.us.toNat) (horder : evs.Pairwise (·.us ≤ ·.us))
    (hr : run hw e evs = .ok t) : ∃ last, Sound t last := by
  induction evs generalizing e now with
  | nil =>
    obtain rfl := Except.ok.inj hr
    exact ⟨now, h⟩
  | cons ev evs ih =>
    obtain ⟨m, hs, hr⟩ := run_cons hr
    obtain ⟨hfirst, horder⟩ := List.pairwise_cons.mp horder
    exact ih (step_sound hshared h (hnow ev List.mem_cons_self) hs)
      (fun ev' hev' => UInt64.le_iff_toNat_le.mp (hfirst ev' hev')) horder hr

end Shared

/-! ### The results -/

def sharedBoard : LedHw := ⟨48, 25, 25⟩

/-- The status LED lit or dark, and the RGB LED red or green, until something changes it. -/
def statusOn : LedRequest := ⟨16, 0, 1, 0, 0, 0, 0, 0, 0⟩
def statusOff : LedRequest := ⟨16, 0, 0, 0, 0, 0, 0, 0, 0⟩
def red : LedRequest := ⟨16, 1, 1, 50, 255, 0, 0, 0, 0⟩
def green : LedRequest := ⟨16, 1, 1, 50, 0, 255, 0, 0, 0⟩

/-- Frames ten microseconds late, and a second colour while the status LED is lit. -/
def careful : List Event :=
  [.set 0 statusOn, .set 1000000 red, .frame 1000210, .frame 1000360, .set 2000000 green,
   .frame 2000160]

/-- A frame late for the first pixel gives the pin back as it hands the pixel over. -/
def late : List Event := [.set 1000000 red, .frame 1001000]

/-- A colour that replaces a waiting one has the pin due back before the pixel is taken. -/
def replaced : List Event :=
  [.set 1000000 red, .set 1000100 green, .frame 1000200, .frame 1000250]

/-- A status LED that has gone dark leaves the line high up to a pixel. -/
def darkened : List Event :=
  [.set 0 statusOn, .set 1000000 red, .frame 1000200, .frame 1000350, .set 2000000 statusOff,
   .set 3000000 green]

end OneRom.LedPin
