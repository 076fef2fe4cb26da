import OneRom.LedEngine

/-!
Holds give the LED back. A request that holds, or a beacon, has the LED for a time; what it
interrupted comes back when the last of a group of them has ended.
-/

namespace OneRom.LedHold

open LedEngine Checks

/-! ### Holds on a channel -/

/-- The part of a channel that requests and holds decide. -/
structure Hold where
  inForce : Settings
  saved : Settings
  holdExpiryMs : UInt32

def holdIn (ch : Channel) : Hold := ⟨ch.inForce, ch.saved, ch.holdExpiryMs⟩

def holdOn (e : Engine) (led : Led) : Hold := holdIn (e.channel led)

section Keep

variable {hw : LedHw} {us : UInt64} {led : Led} {e : Engine}

lemma holdOn_congr {e' : Engine} (h : e'.channel = e.channel) (l : Led) :
    holdOn e' l = holdOn e l := by
  unfold holdOn
  rw [h]

/-- A channel that changes in nothing a hold decides. -/
lemma holdOn_setChannel {ch : Channel} (h : holdIn ch = holdOn e led) (l : Led) :
    holdOn (e.setChannel led ch) l = holdOn e l := by
  unfold holdOn
  by_cases hl : l = led
  · subst hl
    rw [setChannel_same, h]
    rfl
  · rw [setChannel_ne e hl]

lemma holdOn_nextFrame (ms : UInt32) (l : Led) :
    holdOn (e.setChannel led { e.channel led with nextFrameMs := ms }) l = holdOn e l :=
  holdOn_setChannel (by rfl) l

lemma holdOn_ledShow (lit : Bool) (l : Led) :
    holdOn (ledShow hw us led lit e) l = holdOn e l := by
  have h : (ledShow hw us led lit e).channel
      = (e.setChannel led { e.channel led with lit := lit }).channel :=
    ledShow_channel hw us e led lit
  rw [holdOn_congr h, holdOn_setChannel (by rfl)]

/-- Frames between requests change no more than what is shown. -/
lemma holdOn_ledAdvance (nowMs : UInt32) (l : Led) :
    holdOn (ledAdvance hw us led nowMs e) l = holdOn e l := by
  unfold ledAdvance
  dsimp only
  split
  · rfl
  · split
    · rw [holdOn_nextFrame, holdOn_ledShow, holdOn_setChannel (by rfl)]
    · rw [holdOn_nextFrame, holdOn_ledShow, holdOn_setChannel (by rfl)]
    · rw [holdOn_nextFrame, holdOn_congr (ledRgbWrite_channel ..),
        holdOn_setChannel (by rfl)]
    · rw [holdOn_nextFrame, holdOn_congr (ledRgbWrite_channel ..),
        holdOn_setChannel (by rfl)]
    · rw [holdOn_nextFrame, holdOn_ledShow, holdOn_setChannel (by rfl)]
    · rfl

/-- A hold that ends puts back what it saved, -/
lemma holdOn_ledRestore : holdOn (ledRestore hw us led e) led
    = ⟨(e.channel led).saved, (e.channel led).saved, 0⟩ := by
  unfold ledRestore
  dsimp only
  split
  · rw [holdOn_nextFrame, holdOn_ledShow]
    unfold holdOn
    rw [setChannel_same]
    rfl
  · rw [holdOn_ledShow]
    unfold holdOn
    rw [setChannel_same]
    rfl

/-- and leaves the other LED alone. -/
lemma holdOn_ledRestore_ne {l : Led} (h : l ≠ led) :
    holdOn (ledRestore hw us led e) l = holdOn e l := by
  unfold ledRestore
  dsimp only
  split
  · rw [holdOn_nextFrame, holdOn_ledShow]
    unfold holdOn
    rw [setChannel_ne e h]
  · rw [holdOn_ledShow]
    unfold holdOn
    rw [setChannel_ne e h]

/-- What a frame makes of a channel's hold. -/
def Hold.frame (nowMs : UInt32) (h : Hold) : Hold :=
  if h.holdExpiryMs ≠ 0 ∧ reached nowMs h.holdExpiryMs then ⟨h.saved, h.saved, 0⟩ else h

lemma holdOn_ledChannelFrame : holdOn (ledChannelFrame hw us led e) led
    = (holdOn e led).frame (oraGetPluginUptimeMs us) := by
  have hframe : (holdOn e led).frame (oraGetPluginUptimeMs us)
      = if (e.channel led).holdExpiryMs ≠ 0 ∧
          reached (oraGetPluginUptimeMs us) (e.channel led).holdExpiryMs then
        ⟨(e.channel led).saved, (e.channel led).saved, 0⟩ else holdOn e led := rfl
  rw [hframe]
  unfold ledChannelFrame
  dsimp only
  split_ifs
  · exact holdOn_ledRestore
  · exact holdOn_ledAdvance _ led
  · rfl

lemma holdOn_ledChannelFrame_ne {l : Led} (h : l ≠ led) :
    holdOn (ledChannelFrame hw us led e) l = holdOn e l := by
  unfold ledChannelFrame
  dsimp only
  split_ifs
  · exact holdOn_ledRestore_ne h
  · exact holdOn_ledAdvance _ l
  · rfl

/-- A frame takes a channel back where its hold is over, and leaves it in force where not. -/
lemma holdOn_frame : holdOn (pioLedFrame hw us e) led
    = (holdOn e led).frame (oraGetPluginUptimeMs us) := by
  have hpin : holdOn (ledParkDue hw us (ledWriteDue us (e.note (.frame us.toNat e.pin)))) led
      = holdOn e led := holdOn_congr (by simp) led
  unfold pioLedFrame
  dsimp only
  cases led with
  | status =>
    rw [holdOn_ledChannelFrame_ne (by decide), holdOn_ledChannelFrame, hpin]
  | rgb =>
    rw [holdOn_ledChannelFrame, holdOn_ledChannelFrame_ne (by decide), hpin]

lemma pioLedSet_ok {req : LedRequest} {e' : Engine} (h : pioLedSet hw us req e = .ok e') :
    ∃ l mode, ledCheck hw req = .ok (l, mode) ∧ ∀ led, holdOn e' led =
      if led = l then holdIn (ledTake (oraGetPluginUptimeMs us) l mode req (e.channel l))
      else holdOn e led := by
  obtain ⟨⟨l, mode⟩, hcheck, hset⟩ := bind_eq_ok.mp h
  refine ⟨l, mode, hcheck, fun led => ?_⟩
  have htake : holdOn (e.setChannel l (ledTake (oraGetPluginUptimeMs us) l mode req
      (e.channel l))) led
      = if led = l then holdIn (ledTake (oraGetPluginUptimeMs us) l mode req (e.channel l))
        else holdOn e led := by
    unfold holdOn
    split_ifs with hl
    · subst hl
      rw [setChannel_same]
    · rw [setChannel_ne e hl]
  rw [← htake]
  dsimp only at hset
  split at hset
  · obtain rfl := pure_eq_ok.mp hset
    rw [holdOn_nextFrame, holdOn_ledShow]
  · obtain rfl := pure_eq_ok.mp hset
    rw [holdOn_ledShow]

end Keep

/-! ### The history -/

/-- What an accepted call asks of an LED. -/
def asks (hw : LedHw) (led : Led) : Event → Option (Mode × LedRequest)
  | .frame _ => none
  | .set _ req =>
    match ledCheck hw req with
    | .error _ => none
    | .ok (l, mode) => if l = led then some (mode, req) else none

/-- The call asks an LED for a mode that nothing bounds. -/
def Unheld (hw : LedHw) (led : Led) (ev : Event) : Prop :=
  ∃ mode req, asks hw led ev = some (mode, req) ∧ holdOf mode req = 0

/-- When a hold that begins at `ms` ends. The firmware's counter wraps, and takes zero for no hold,
so a hold that would end there ends a millisecond later. -/
def holdEnd (ms : ℕ) (holdMs : UInt32) : ℕ :=
  if (ms + holdMs.toNat) % 2 ^ 32 = 0 then ms + holdMs.toNat + 1 else ms + holdMs.toNat

/-- The end of the hold an LED is under after a call. -/
def heldAfter (hw : LedHw) (led : Led) (held : Option ℕ) (ev : Event) : Option ℕ :=
  match ev with
  | .frame _ => held.filter (ev.ms < ·)
  | .set _ _ =>
    match asks hw led ev with
    | none => held
    | some (mode, req) =>
      if holdOf mode req = 0 then none else some (holdEnd ev.ms (holdOf mode req))

/-- The end of the hold an LED is under after the calls, none if it is under none. -/
def running (hw : LedHw) (led : Led) (evs : List Event) : Option ℕ :=
  evs.foldl (heldAfter hw led) none

@[simp] lemma running_nil (hw : LedHw) (led : Led) : running hw led [] = none := rfl

lemma running_snoc (hw : LedHw) (led : Led) (evs : List Event) (ev : Event) :
    running hw led (evs ++ [ev]) = heldAfter hw led (running hw led evs) ev := by
  simp [running]

/-- Calls in order of time, none of them half the counter's range past the end of a hold. -/
structure Regular (hw : LedHw) (evs : List Event) : Prop where
  ordered : evs.Pairwise fun a b => a.us.toNat ≤ b.us.toNat
  timely : ∀ pre ev post, evs = pre ++ ev :: post → ∀ led d, running hw led pre = some d →
    ev.ms < d + 2 ^ 31

/-- No request without a hold comes to an LED that is under one. -/
def UnheldFree (hw : LedHw) (evs : List Event) : Prop :=
  ∀ pre ev post, evs = pre ++ ev :: post → ∀ led, Unheld hw led ev → running hw led pre = none

/-! ### What a call makes of a hold -/

/-- The longest a request can hold, and a millisecond. -/
def holdBound : ℕ := 60001

lemma holdOf_le {hw : LedHw} {req : LedRequest} {led : Led} {mode : Mode}
    (h : ledCheck hw req = .ok (led, mode)) : (holdOf mode req).toNat ≤ 60000 := by
  unfold ledCheck at h
  split at h
  · cases h
  · split at h
    · cases h
    · split at h
      · cases h
      · split_ifs at h with h₁ h₂ h₃ h₄ h₅
        obtain ⟨rfl, rfl⟩ := Prod.mk.inj (Except.ok.inj h)
        unfold holdOf
        split_ifs
        · decide
        · exact UInt32.le_iff_toNat_le.mp (UInt32.not_lt.mp h₃)

lemma holdOf_beacon (req : LedRequest) : holdOf .beacon req ≠ 0 := by
  unfold holdOf
  split_ifs with h
  · decide
  · exact fun h0 => h ⟨rfl, h0⟩

lemma settingsOf_mode (led : Led) (mode : Mode) (req : LedRequest) :
    (settingsOf led mode req).mode = mode := by
  cases led
  · rfl
  · unfold settingsOf
    dsimp only
    split_ifs <;> rfl

/-- A channel follows the history: its hold is that of the calls, and ends when they say. -/
structure Tracks (hw : LedHw) (led : Led) (evs : List Event) (h : Hold) : Prop where
  clear : running hw led evs = none → h.holdExpiryMs = 0 ∧ h.inForce.mode ≠ .beacon
  expiry : ∀ d, running hw led evs = some d →
    h.holdExpiryMs.toNat = d % 2 ^ 32 ∧ h.holdExpiryMs ≠ 0 ∧ ∃ ev ∈ evs, d ≤ ev.ms + holdBound
  back : ∀ d, running hw led evs = some d → h.saved.mode ≠ .beacon

/-- What a hold leaves: the settings in force, or those saved while one runs. -/
structure Keeps (hw : LedHw) (led : Led) (evs : List Event) (s : Settings) (h : Hold) : Prop where
  clear : running hw led evs = none → h.inForce = s
  held : ∀ d, running hw led evs = some d → h.saved = s

section Step

variable {hw : LedHw} {led : Led} {evs : List Event} {h : Hold} {s : Settings} {ch : Channel}

/-- A frame ends a hold exactly when its end has come. -/
lemma Tracks.over_iff (ht : Tracks hw led evs h) {us : UInt64} {d : ℕ}
    (hd : running hw led evs = some d) (hlt : us.toNat / 1000 < d + 2 ^ 31)
    (hord : ∀ ev ∈ evs, ev.us.toNat ≤ us.toNat) :
    (h.holdExpiryMs ≠ 0 ∧ reached (oraGetPluginUptimeMs us) h.holdExpiryMs = true) ↔
      d ≤ us.toNat / 1000 := by
  obtain ⟨hexp, hne, ev, hev, hle⟩ := ht.expiry d hd
  have hms : ev.ms ≤ us.toNat / 1000 := Nat.div_le_div_right (hord ev hev)
  unfold holdBound at hle
  rw [reached_iff (uptimeMs_toNat us) hexp (by omega) hlt]
  exact ⟨fun h => h.2, fun h => ⟨hne, h⟩⟩

/-- What a frame does to the history and to the channel: nothing, or the end of a hold. -/
lemma frame_cases (ht : Tracks hw led evs h) {us : UInt64}
    (htimely : ∀ d, running hw led evs = some d → us.toNat / 1000 < d + 2 ^ 31)
    (hord : ∀ ev ∈ evs, ev.us.toNat ≤ us.toNat) :
    (running hw led (evs ++ [.frame us]) = running hw led evs ∧
      h.frame (oraGetPluginUptimeMs us) = h) ∨
    ((running hw led evs).isSome ∧ running hw led (evs ++ [.frame us]) = none ∧
      h.frame (oraGetPluginUptimeMs us) = ⟨h.saved, h.saved, 0⟩) := by
  rw [running_snoc]
  unfold Hold.frame
  cases hrun : running hw led evs with
  | none => exact Or.inl ⟨rfl, if_neg fun hover => hover.1 (ht.clear hrun).1⟩
  | some d =>
    have hiff := ht.over_iff hrun (htimely d hrun) hord
    by_cases hd : d ≤ us.toNat / 1000
    · refine Or.inr ⟨rfl, ?_, if_pos (hiff.mpr hd)⟩
      exact if_neg fun hlt => hd.not_gt (of_decide_eq_true hlt)
    · refine Or.inl ⟨?_, if_neg fun hover => hd (hiff.mp hover)⟩
      exact if_pos (decide_eq_true (not_le.mp hd))

lemma frame_tracks (ht : Tracks hw led evs h) {us : UInt64}
    (htimely : ∀ d, running hw led evs = some d → us.toNat / 1000 < d + 2 ^ 31)
    (hord : ∀ ev ∈ evs, ev.us.toNat ≤ us.toNat) :
    Tracks hw led (evs ++ [.frame us]) (h.frame (oraGetPluginUptimeMs us)) := by
  rcases frame_cases ht htimely hord with ⟨hrun, hframe⟩ | ⟨hsome, hrun, hframe⟩
  · rw [hframe]
    refine ⟨hrun ▸ ht.clear, fun d hd => ?_, hrun ▸ ht.back⟩
    obtain ⟨hexp, hne, ev, hev, hle⟩ := ht.expiry d (hrun ▸ hd)
    exact ⟨hexp, hne, ev, List.mem_append_left _ hev, hle⟩
  · obtain ⟨d, hd⟩ := Option.isSome_iff_exists.mp hsome
    rw [hframe]
    refine ⟨fun _ => ⟨rfl, ht.back d hd⟩, fun d' hd' => ?_, fun d' hd' => ?_⟩
    · rw [hrun] at hd'
      cases hd'
    · rw [hrun] at hd'
      cases hd'

lemma frame_keeps (ht : Tracks hw led evs h) (hk : Keeps hw led evs s h) {us : UInt64}
    (htimely : ∀ d, running hw led evs = some d → us.toNat / 1000 < d + 2 ^ 31)
    (hord : ∀ ev ∈ evs, ev.us.toNat ≤ us.toNat) :
    Keeps hw led (evs ++ [.frame us]) s (h.frame (oraGetPluginUptimeMs us)) := by
  rcases frame_cases ht htimely hord with ⟨hrun, hframe⟩ | ⟨hsome, hrun, hframe⟩
  · rw [hframe]
    exact ⟨hrun ▸ hk.clear, hrun ▸ hk.held⟩
  · obtain ⟨d, hd⟩ := Option.isSome_iff_exists.mp hsome
    rw [hframe]
    refine ⟨fun _ => hk.held d hd, fun d' hd' => ?_⟩
    rw [hrun] at hd'
    cases hd'

/-- A request is already bounded by a hold exactly where the calls so far leave one running. -/
lemma Tracks.bounded_iff (ht : Tracks hw led evs (holdIn ch)) :
    (ch.holdExpiryMs ≠ 0 ∨ ch.inForce.mode = .beacon) ↔ running hw led evs ≠ none := by
  cases hrun : running hw led evs with
  | none =>
    obtain ⟨hz, hb⟩ := ht.clear hrun
    exact ⟨fun h => (h.elim (fun h => h hz) hb).elim, fun h => (h rfl).elim⟩
  | some d => exact ⟨fun _ => Option.some_ne_none d, fun _ => Or.inl (ht.expiry d hrun).2.1⟩

/-- The firmware's end of a hold is the history's. -/
lemma holdExpiry_toNat (us : UInt64) (holdMs : UInt32) :
    (holdExpiry (oraGetPluginUptimeMs us) holdMs).toNat
        = holdEnd (us.toNat / 1000) holdMs % 2 ^ 32 ∧
      holdExpiry (oraGetPluginUptimeMs us) holdMs ≠ 0 := by
  have hsum : (oraGetPluginUptimeMs us + holdMs).toNat
      = (us.toNat / 1000 + holdMs.toNat) % 2 ^ 32 := by
    rw [UInt32.toNat_add, uptimeMs_toNat, Nat.mod_add_mod]
  have hz : oraGetPluginUptimeMs us + holdMs = 0 ↔
      (us.toNat / 1000 + holdMs.toNat) % 2 ^ 32 = 0 := by
    rw [← hsum, ← UInt32.toNat_inj]
    rfl
  unfold holdExpiry holdEnd
  by_cases h : oraGetPluginUptimeMs us + holdMs = 0
  · rw [if_pos h, if_pos (hz.mp h)]
    refine ⟨?_, by decide⟩
    have := hz.mp h
    rw [show (1 : UInt32).toNat = 1 from rfl]
    omega
  · rw [if_neg h, if_neg fun h' => h (hz.mpr h')]
    exact ⟨hsum, h⟩

variable {us : UInt64} {req : LedRequest} {mode : Mode}

lemma asks_set (us : UInt64) (hcheck : ledCheck hw req = .ok (led, mode)) :
    asks hw led (.set us req) = some (mode, req) := by
  unfold asks
  dsimp only
  rw [hcheck]
  exact if_pos rfl

lemma asks_set_ne {l : Led} (us : UInt64) (hcheck : ledCheck hw req = .ok (l, mode))
    (h : led ≠ l) :
    asks hw led (.set us req) = none := by
  unfold asks
  dsimp only
  rw [hcheck]
  exact if_neg h.symm

lemma running_set (us : UInt64) (evs : List Event)
    (hcheck : ledCheck hw req = .ok (led, mode)) :
    running hw led (evs ++ [.set us req]) = if holdOf mode req = 0 then none
      else some (holdEnd (us.toNat / 1000) (holdOf mode req)) := by
  rw [running_snoc]
  unfold heldAfter
  dsimp only
  rw [asks_set us hcheck]
  rfl

lemma running_set_ne {l : Led} (us : UInt64) (evs : List Event)
    (hcheck : ledCheck hw req = .ok (l, mode)) (h : led ≠ l) :
    running hw led (evs ++ [.set us req]) = running hw led evs := by
  rw [running_snoc]
  unfold heldAfter
  dsimp only
  rw [asks_set_ne us hcheck h]

/-- What a bounded request saves is what the channel goes back to. -/
lemma saved_take (ht : Tracks hw led evs (holdIn ch)) (hhold : holdOf mode req ≠ 0)
    (nowMs : UInt32) : (ledTake nowMs led mode req ch).saved
      = if running hw led evs = none then ch.inForce else ch.saved := by
  unfold ledTake
  dsimp only
  by_cases hrun : running hw led evs = none
  · rw [if_pos hrun, if_pos ⟨Or.inl hhold, fun h => ht.bounded_iff.mp h hrun⟩]
  · rw [if_neg hrun, if_neg fun h => h.2 (ht.bounded_iff.mpr hrun)]

lemma set_tracks (ht : Tracks hw led evs (holdIn ch)) (hcheck : ledCheck hw req = .ok (led, mode))
    (hfree : holdOf mode req = 0 → running hw led evs = none) :
    Tracks hw led (evs ++ [.set us req])
      (holdIn (ledTake (oraGetPluginUptimeMs us) led mode req ch)) := by
  have hrun := running_set us evs hcheck
  by_cases hhold : holdOf mode req = 0
  · rw [if_pos hhold] at hrun
    have hclear := ht.clear (hfree hhold)
    refine ⟨fun _ => ⟨?_, ?_⟩, fun d hd => ?_, fun d hd => ?_⟩
    · unfold ledTake
      exact (if_neg fun h => h hhold).trans hclear.1
    · change (settingsOf led mode req).mode ≠ .beacon
      rw [settingsOf_mode]
      rintro rfl
      exact holdOf_beacon req hhold
    · rw [hrun] at hd
      cases hd
    · rw [hrun] at hd
      cases hd
  · rw [if_neg hhold] at hrun
    have hexp := holdExpiry_toNat us (holdOf mode req)
    have hle := holdOf_le hcheck
    refine ⟨fun hd => ?_, fun d hd => ?_, fun d _ => ?_⟩
    · rw [hrun] at hd
      cases hd
    · obtain rfl : holdEnd (us.toNat / 1000) (holdOf mode req) = d :=
        Option.some.inj (hrun.symm.trans hd)
      have hset : (holdIn (ledTake (oraGetPluginUptimeMs us) led mode req ch)).holdExpiryMs
          = holdExpiry (oraGetPluginUptimeMs us) (holdOf mode req) := if_pos hhold
      rw [hset]
      refine ⟨hexp.1, hexp.2, _, List.mem_append_right _ List.mem_cons_self, ?_⟩
      change holdEnd _ _ ≤ us.toNat / 1000 + 60001
      unfold holdEnd
      split_ifs <;> omega
    · change (ledTake (oraGetPluginUptimeMs us) led mode req ch).saved.mode ≠ .beacon
      rw [saved_take ht hhold]
      split_ifs with hnone
      · exact (ht.clear hnone).2
      · obtain ⟨d', hd'⟩ := Option.ne_none_iff_exists'.mp hnone
        exact ht.back d' hd'

/-- A bounded request leaves what the LED goes back to as it was. -/
lemma set_keeps (ht : Tracks hw led evs (holdIn ch)) (hk : Keeps hw led evs s (holdIn ch))
    (hcheck : ledCheck hw req = .ok (led, mode)) (hhold : holdOf mode req ≠ 0) :
    Keeps hw led (evs ++ [.set us req]) s
      (holdIn (ledTake (oraGetPluginUptimeMs us) led mode req ch)) := by
  have hrun := running_set us evs hcheck
  rw [if_neg hhold] at hrun
  refine ⟨fun hd => ?_, fun d _ => ?_⟩
  · rw [hrun] at hd
    cases hd
  · change (ledTake (oraGetPluginUptimeMs us) led mode req ch).saved = s
    rw [saved_take ht hhold]
    split_ifs with hnone
    · exact hk.clear hnone
    · obtain ⟨d', hd'⟩ := Option.ne_none_iff_exists'.mp hnone
      exact hk.held d' hd'

end Step

/-! ### Steps and runs -/

section Run

variable {hw : LedHw} {led : Led} {evs : List Event} {e t : Engine} {ev : Event} {s : Settings}

/-- One call: the channel follows the history, and keeps what it goes back to unless the call asks
for a mode nothing bounds. -/
lemma step_tracks (h : step hw e ev = .ok t) (ht : Tracks hw led evs (holdOn e led))
    (hord : ∀ ev' ∈ evs, ev'.us.toNat ≤ ev.us.toNat)
    (htimely : ∀ d, running hw led evs = some d → ev.ms < d + 2 ^ 31)
    (hfree : Unheld hw led ev → running hw led evs = none) :
    Tracks hw led (evs ++ [ev]) (holdOn t led) ∧
      (¬Unheld hw led ev → Keeps hw led evs s (holdOn e led) →
        Keeps hw led (evs ++ [ev]) s (holdOn t led)) ∧
      ∀ mode req, asks hw led ev = some (mode, req) →
        (holdOn t led).inForce = settingsOf led mode req := by
  cases ev with
  | frame us =>
    cases Except.ok.inj h
    rw [holdOn_frame]
    exact ⟨frame_tracks ht htimely hord, fun _ hk => frame_keeps ht hk htimely hord,
      fun _ _ hasks => by cases hasks⟩
  | set us req =>
    obtain ⟨l, mode, hcheck, hhold⟩ := pioLedSet_ok h
    rw [hhold led]
    by_cases hl : led = l
    · subst hl
      rw [if_pos rfl]
      have hasks := asks_set us hcheck
      refine ⟨set_tracks ht hcheck fun hz => hfree ⟨_, _, hasks, hz⟩, fun hun hk => ?_,
        fun mode' req' hasks' => ?_⟩
      · exact set_keeps ht hk hcheck fun hz => hun ⟨_, _, hasks, hz⟩
      · obtain ⟨rfl, rfl⟩ := Prod.mk.inj (Option.some.inj (hasks.symm.trans hasks'))
        rfl
    · rw [if_neg hl]
      have hrun := running_set_ne us evs hcheck hl
      refine ⟨⟨hrun ▸ ht.clear, fun d hd => ?_, hrun ▸ ht.back⟩,
        fun _ hk => ⟨hrun ▸ hk.clear, hrun ▸ hk.held⟩, fun mode' req' hasks' => ?_⟩
      · obtain ⟨hexp, hne, ev', hev', hle⟩ := ht.expiry d (hrun ▸ hd)
        exact ⟨hexp, hne, ev', List.mem_append_left _ hev', hle⟩
      · rw [asks_set_ne us hcheck hl] at hasks'
        cases hasks'

/-- A run: the channel follows the history, and what it goes back to is kept as long as no request
asks for a mode nothing bounds. -/
lemma run_tracks {pre post : List Event} (hreg : Regular hw (pre ++ post))
    (hfree : UnheldFree hw (pre ++ post)) (h : run hw e post = .ok t)
    (ht : Tracks hw led pre (holdOn e led)) :
    Tracks hw led (pre ++ post) (holdOn t led) ∧
      ((∀ ev ∈ post, ¬Unheld hw led ev) → Keeps hw led pre s (holdOn e led) →
        Keeps hw led (pre ++ post) s (holdOn t led)) := by
  induction post generalizing pre e with
  | nil =>
    cases Except.ok.inj h
    rw [List.append_nil]
    exact ⟨ht, fun _ hk => hk⟩
  | cons ev post ih =>
    obtain ⟨m, hstep, hrest⟩ := run_cons h
    have hord : ∀ ev' ∈ pre, ev'.us.toNat ≤ ev.us.toNat := fun ev' hev' =>
      (List.pairwise_append.mp hreg.ordered).2.2 ev' hev' ev List.mem_cons_self
    obtain ⟨hm, hkeep, -⟩ := step_tracks (s := s) hstep ht hord
      (hreg.timely pre ev post rfl led) (hfree pre ev post rfl led)
    rw [List.append_cons] at hreg hfree ⊢
    obtain ⟨hend, hkeeps⟩ := ih hreg hfree hrest hm
    exact ⟨hend, fun hun hk => hkeeps (fun ev' hev' => hun ev' (List.mem_cons_of_mem _ hev'))
      (hkeep (hun ev List.mem_cons_self) hk)⟩

lemma tracks_reset : Tracks hw led [] (holdOn .reset led) :=
  ⟨fun _ => ⟨rfl, fun h => Mode.noConfusion h⟩, fun d hd => absurd hd.symm (Option.some_ne_none d),
    fun d hd => absurd hd.symm (Option.some_ne_none d)⟩

lemma Regular.left {pre post : List Event} (h : Regular hw (pre ++ post)) : Regular hw pre where
  ordered := (List.pairwise_append.mp h.ordered).1
  timely p ev q hpre := h.timely p ev (q ++ post) (by rw [hpre, List.append_assoc]; rfl)

lemma UnheldFree.left {pre post : List Event} (h : UnheldFree hw (pre ++ post)) :
    UnheldFree hw pre :=
  fun p ev q hpre => h p ev (q ++ post) (by rw [hpre, List.append_assoc]; rfl)

/-- Nothing runs on an LED that nothing is asked of. -/
lemma running_unasked {pre post : List Event} (h : running hw led pre = none)
    (hpost : ∀ ev ∈ post, asks hw led ev = none) : running hw led (pre ++ post) = none := by
  induction post generalizing pre with
  | nil => rwa [List.append_nil]
  | cons ev post ih =>
    rw [List.append_cons]
    refine ih ?_ fun ev' hev' => hpost ev' (List.mem_cons_of_mem _ hev')
    rw [running_snoc, h]
    cases ev with
    | frame us => rfl
    | set us req =>
      unfold heldAfter
      dsimp only
      rw [hpost _ List.mem_cons_self]

/-- A run from the start follows the history. -/
lemma run_reset_tracks (hreg : Regular hw evs) (hfree : UnheldFree hw evs)
    (h : run hw .reset evs = .ok t) : Tracks hw led evs (holdOn t led) :=
  (run_tracks (s := .dark) hreg hfree h tracks_reset).1

/-- Where no request without a hold comes to an LED that is under one, such a request is in force
until the next, and bounded requests that have all ended have given back what was in force when
the first of them came. -/
theorem hold_gives_back (h : run hw .reset evs = .ok t) (hreg : Regular hw evs)
    (hfree : UnheldFree hw evs) (led : Led) :
    (∀ pre ev post mode req, evs = pre ++ ev :: post → asks hw led ev = some (mode, req) →
      holdOf mode req = 0 → (∀ ev' ∈ post, asks hw led ev' = none) →
      (t.channel led).inForce = settingsOf led mode req) ∧
    ∀ pre post m, evs = pre ++ post → run hw .reset pre = .ok m → running hw led pre = none →
      (∀ ev ∈ post, ¬Unheld hw led ev) → running hw led evs = none →
      (t.channel led).inForce = (m.channel led).inForce := by
  constructor
  · rintro pre ev post mode req rfl hasks hhold hpost
    obtain ⟨m, hpre, hrest⟩ := run_append h
    obtain ⟨n, hstep, hend⟩ := run_cons hrest
    have hm : Tracks hw led pre (holdOn m led) := run_reset_tracks hreg.left hfree.left hpre
    have hord : ∀ ev' ∈ pre, ev'.us.toNat ≤ ev.us.toNat := fun ev' hev' =>
      (List.pairwise_append.mp hreg.ordered).2.2 ev' hev' ev List.mem_cons_self
    obtain ⟨hn, -, hset⟩ := step_tracks (s := .dark) hstep hm hord
      (hreg.timely pre ev post rfl led) (hfree pre ev post rfl led)
    have hrun : running hw led (pre ++ [ev]) = none := by
      rw [running_snoc]
      cases ev with
      | frame us => cases hasks
      | set us req' =>
        unfold heldAfter
        dsimp only
        rw [hasks]
        exact if_pos hhold
    have hkeep : Keeps hw led (pre ++ [ev]) (settingsOf led mode req) (holdOn n led) :=
      ⟨fun _ => hset mode req hasks, fun d hd => by rw [hrun] at hd; cases hd⟩
    have hsame : running hw led (pre ++ ev :: post) = none := by
      rw [List.append_cons]
      exact running_unasked hrun hpost
    rw [List.append_cons] at hreg hfree hsame
    exact ((run_tracks hreg hfree hend hn).2 (fun ev' hev' ⟨_, _, hask, _⟩ => by
      rw [hpost ev' hev'] at hask
      cases hask) hkeep).clear hsame
  · rintro pre post m rfl hpre hidle hun hend
    obtain ⟨m', hpre', hpost⟩ := run_append h
    obtain rfl : m' = m := Except.ok.inj (hpre'.symm.trans hpre)
    have hm : Tracks hw led pre (holdOn m' led) := run_reset_tracks hreg.left hfree.left hpre
    have hkeep : Keeps hw led pre (m'.channel led).inForce (holdOn m' led) :=
      ⟨fun _ => rfl, fun d hd => by rw [hidle] at hd; cases hd⟩
    exact ((run_tracks hreg hfree hpost hm).2 hun hkeep).clear hend

end Run

/-! ### Runs on a board with a status LED alone -/

def statusBoard : LedHw := ⟨48, 25, 255⟩

/-- The status LED lit for a second. -/
def lit : LedRequest := ⟨16, 0, 1, 0, 0, 0, 0, 0, 1000⟩

/-- The status LED blinking until something changes it. -/
def blinking : LedRequest := ⟨16, 0, 6, 0, 0, 0, 0, 0, 0⟩

lemma regular_of_early {hw : LedHw} {evs : List Event}
    (hord : evs.Pairwise fun a b => a.us.toNat ≤ b.us.toNat) (h : ∀ ev ∈ evs, ev.ms < 2 ^ 31) :
    Regular hw evs where
  ordered := hord
  timely pre ev post heq led d _ := by
    have := h ev (by rw [heq]; simp)
    omega

theorem hold_gives_back_lit : ∃ t, run statusBoard .reset
      [.set 0 lit, .frame 1000000, .set 2000000 blinking] = .ok t ∧
    (t.channel .status).inForce = settingsOf .status .blink blinking := by
  refine ⟨_, rfl, ?_⟩
  have hfree : UnheldFree statusBoard [.set 0 lit, .frame 1000000, .set 2000000 blinking] := by
    intro pre ev post heq led hun
    rcases pre with _ | ⟨a, _ | ⟨b, _ | ⟨c, pre⟩⟩⟩
    · rfl
    · obtain ⟨rfl, rfl, -⟩ : Event.set 0 lit = a ∧ Event.frame 1000000 = ev ∧ _ := by
        simpa using heq
      obtain ⟨_, _, hasks, -⟩ := hun
      cases hasks
    · obtain ⟨rfl, rfl, -⟩ : Event.set 0 lit = a ∧ Event.frame 1000000 = b ∧ _ := by
        simpa using heq
      cases led <;> decide
    · simp at heq
  exact (hold_gives_back rfl (regular_of_early (by decide) (by decide)) hfree .status).1
    [.set 0 lit, .frame 1000000] (.set 2000000 blinking) [] .blink blinking rfl (by decide)
    (by decide) (by simp)

/-- A request without a hold that comes while a hold runs is lost when the hold ends. -/
theorem unheld_request_lost : ∃ t, run statusBoard .reset
      [.set 0 lit, .set 100000 blinking, .frame 1000000] = .ok t ∧
    Regular statusBoard [.set 0 lit, .set 100000 blinking, .frame 1000000] ∧
    asks statusBoard .status (.set 100000 blinking) = some (.blink, blinking) ∧
    holdOf .blink blinking = 0 ∧ asks statusBoard .status (.frame 1000000) = none ∧
    (t.channel .status).inForce ≠ settingsOf .status .blink blinking :=
  ⟨_, rfl, regular_of_early (by decide) (by decide), by decide, by decide, by decide, by decide⟩

end OneRom.LedHold
