import OneRom.RbcpMemory
import OneRom.RbcpReset

/-!
The plugin's main loop. A knock opens a session, and the bytes that follow it are the session's until
it ends. Over all the knocks that are heard the plugin does the frames of the sessions, one after the
other: what is so of every run of commands is so of its whole life.
-/

namespace OneRom.Rbcp

open OneRom.Fallible OneRom.Fallible.Prog OneRom.Listener
open OneRom.AddrMap (Served)

variable [Firmware]

/-! ### Sessions -/

/-- The frames of a session that ends: it goes on after each but the last. -/
inductive Session : Plugin → List Frame → Plugin → Prop
  | last {p : Plugin} {frame : Frame} (hends : (perform p frame).active = false) :
    Session p [frame] (perform p frame)
  | more {p q : Plugin} {frame : Frame} {done : List Frame}
    (hactive : (perform p frame).active = true) (hrest : Session (perform p frame) done q) :
    Session p (frame :: done) q

lemma Session.performed {p q : Plugin} {done : List Frame} (h : Session p done q) :
    q = done.foldl perform p ∧ q.active = false := by
  induction h with
  | last hends => exact ⟨rfl, hends⟩
  | more _ _ ih => exact ih

/-- A session that ends has done the frames at the beginning of what it was told. -/
lemma session_ends {n : ℕ} {input rest : List UInt8} {p q : Plugin}
    (h : session n ⟨input, p⟩ = (.ok false, ⟨rest, q⟩)) :
    ∃ done, frames done.length input = some (done, rest) ∧ Session p done q := by
  induction n generalizing input p with
  | zero => cases h
  | succ n ih =>
    rcases command_eq input p with ⟨⟨t, hwait⟩, -⟩ | ⟨frame, left, hframe, -⟩
    · rw [session, bind_run, hwait] at h
      cases h
    rw [session_command hframe] at h
    split at h
    · next hactive =>
      obtain ⟨done, hdone, hsession⟩ := ih h
      refine ⟨frame :: done, ?_, .more hactive hsession⟩
      rw [List.length_cons, frames, hframe]
      dsimp only [Option.bind_eq_bind, Option.bind_some]
      rw [hdone]
      rfl
    · next hidle =>
      cases h
      refine ⟨[frame], ?_, .last (Bool.eq_false_of_not_eq_true hidle)⟩
      rw [List.length_singleton, frames, hframe]
      rfl

/-- A command takes two bytes at least, so a session of as many commands as there are bytes either
ends or waits. -/
lemma session_settles {n : ℕ} {input : List UInt8} (p : Plugin) (h : input.length < n) :
    (∃ rest q, session n ⟨input, p⟩ = (.ok false, ⟨rest, q⟩)) ∨
      ∃ t, session n ⟨input, p⟩ = (.error (), t) := by
  induction n generalizing input p with
  | zero => exact absurd h (Nat.not_lt_zero _)
  | succ n ih =>
    rcases command_eq input p with ⟨⟨t, hwait⟩, -⟩ | ⟨frame, left, hframe, -⟩
    · exact Or.inr ⟨_, by rw [session, bind_run, hwait]⟩
    rw [session_command hframe]
    split
    · obtain ⟨-, rfl⟩ := nextFrame_eq_some.mp hframe
      rw [List.length_append, Frame.bytes, List.length_cons, List.length_cons] at h
      exact ih _ (by omega)
    · exact Or.inl ⟨_, _, rfl⟩

/-! ### The main loop -/

/-- The session that a knock opens, where it ends. What it leaves unread isn't heard again. -/
def knocked (input : List UInt8) (p : Plugin) : Option Plugin :=
  match session (input.length + 1) ⟨input, p⟩ with
  | (.ok false, t) => some t.state
  | _ => none

/-- The loop over the knocks that are heard, each with the bytes that follow it. -/
def rbcpMain : List (List UInt8) → Plugin → Option Plugin
  | [], p => some p
  | input :: knocks, p => knocked input p >>= rbcpMain knocks

/-- What the loop starts from. -/
def rbcpSetup (p : Plugin) : Plugin := initBootSlots (initRbcp p)

lemma knocked_eq_none {input : List UInt8} {p : Plugin} :
    knocked input p = none ↔ ∃ t, session (input.length + 1) ⟨input, p⟩ = (.error (), t) := by
  unfold knocked
  rcases session_settles p (Nat.lt_succ_self input.length) with ⟨rest, q, hends⟩ | ⟨t, hwaits⟩
  · rw [hends]
    constructor
    · intro h
      cases h
    · rintro ⟨_, h⟩
      cases h
  · rw [hwaits]
    exact ⟨fun _ => ⟨t, rfl⟩, fun _ => rfl⟩

lemma knocked_eq_some {input : List UInt8} {p q : Plugin} (h : knocked input p = some q) :
    ∃ done rest, frames done.length input = some (done, rest) ∧ Session p done q := by
  unfold knocked at h
  rcases session_settles p (Nat.lt_succ_self input.length) with ⟨rest, r, hends⟩ | ⟨t, hwaits⟩
  · rw [hends] at h
    obtain rfl : r = q := Option.some.inj h
    obtain ⟨done, hdone⟩ := session_ends hends
    exact ⟨done, rest, hdone⟩
  · rw [hwaits] at h
    cases h

lemma initBootSlots_eq (p : Plugin) : ∃ bootFlashSlot bootRamSlot,
    initBootSlots p = { p with bootFlashSlot, bootRamSlot } := by
  unfold initBootSlots
  dsimp only
  split
  · exact ⟨_, _, rfl⟩
  · split
    · exact ⟨_, _, rfl⟩
    · split <;> exact ⟨_, _, rfl⟩

/-- The loop starts between two commands, in no session. -/
lemma rbcpSetup_ready {p : Plugin} (h : Served p.rt.currentSlot) :
    Ready (rbcpSetup p) ∧ (rbcpSetup p).active = false := by
  have hp := initRbcp_ready h
  obtain ⟨_, _, heq⟩ := initBootSlots_eq (initRbcp p)
  rw [rbcpSetup, heq]
  exact ⟨⟨⟨hp.sound.served, hp.sound.slot, hp.sound.region⟩, hp.follows, hp.deferred, hp.staged⟩,
    rfl⟩

/-- A life from `p` to `q`: after each knock a session of the frames that its bytes begin with. -/
inductive Life : Plugin → List (List UInt8) → List Frame → Plugin → Prop
  | setup (p : Plugin) : Life p [] [] p
  | knock {p q r : Plugin} {rest : List UInt8} {knocks : List (List UInt8)} {done more : List Frame}
    (hwhole : ∀ frame ∈ done, frame.Whole) (hsession : Session p done q)
    (hrest : Life q knocks more r) :
    Life p ((done.flatMap Frame.bytes ++ rest) :: knocks) (done ++ more) r

lemma rbcpMain_life {p q : Plugin} {knocks : List (List UInt8)} (h : rbcpMain knocks p = some q) :
    ∃ done, Life p knocks done q := by
  induction knocks generalizing p with
  | nil =>
    cases h
    exact ⟨[], .setup _⟩
  | cons input knocks ih =>
    obtain ⟨r, hknock, hrest⟩ := Option.bind_eq_some_iff.mp h
    obtain ⟨done, rest, hdone, hsession⟩ := knocked_eq_some hknock
    obtain ⟨-, hwhole, rfl⟩ := frames_eq_some.mp hdone
    obtain ⟨more, hmore⟩ := ih hrest
    exact ⟨done ++ more, .knock hwhole hsession hmore⟩

lemma Life.performed {p q : Plugin} {knocks : List (List UInt8)} {done : List Frame}
    (h : Life p knocks done q) (hp : Ready p) (hidle : p.active = false) :
    (∀ frame ∈ done, frame.Whole) ∧ q = done.foldl perform p ∧ Ready q ∧ q.active = false := by
  induction h with
  | setup p => exact ⟨fun _ hframe => absurd hframe List.not_mem_nil, rfl, hp, hidle⟩
  | knock hwhole hsession _ ih =>
    obtain ⟨rfl, hended⟩ := hsession.performed
    obtain ⟨_, -, -, hready⟩ := perform_exchanges hp hwhole
    obtain ⟨hwholes, hq, hlast⟩ := ih hready hended
    refine ⟨fun frame hframe => ?_, ?_, hlast⟩
    · exact (List.mem_append.mp hframe).elim (hwhole frame) (hwholes frame)
    · rw [List.foldl_append]
      exact hq

lemma session_recovers {n : ℕ} {p : Plugin} (hp : Ready p) (pre rest : List UInt8)
    (h : (pre ++ (List.replicate 11 0xAA ++ rest)).length < n) :
    ∃ left q, session n ⟨pre ++ (List.replicate 11 0xAA ++ rest), p⟩ =
      (.ok false, ⟨left, q⟩) ∧ Ready q ∧ q.nvState.active = false := by
  induction n generalizing p pre with
  | zero => exact absurd h (Nat.not_lt_zero _)
  | succ n ih =>
    cases hpre : nextFrame pre with
    | none =>
      -- the reset takes two commands at most
      obtain ⟨m, rfl⟩ : ∃ m, n = m + 1 := by
        rw [List.length_append, List.length_append, List.length_replicate] at h
        exact Nat.exists_eq_add_of_lt (show 0 < n by omega) |>.imp fun m hm => by omega
      obtain ⟨k, q, hrun, hrecovered, hready⟩ := session_reset hp hpre m rest
      exact ⟨_, q, hrun, hready, hrecovered.closed⟩
    | some r =>
      obtain ⟨frame, left⟩ := r
      obtain ⟨hwhole, rfl⟩ := nextFrame_eq_some.mp hpre
      have hready := perform_ready hp hwhole
      have hframe : nextFrame (frame.bytes ++ left ++ (List.replicate 11 0xAA ++ rest)) =
          some (frame, left ++ (List.replicate 11 0xAA ++ rest)) :=
        nextFrame_eq_some.mpr ⟨hwhole, List.append_assoc _ _ _⟩
      rw [session_command hframe]
      split
      · refine ih hready left ?_
        rw [List.append_assoc, List.length_append, Frame.bytes, List.length_cons] at h
        omega
      · next hidle =>
        refine ⟨_, _, rfl, hready, ?_⟩
        by_contra hopen
        exact hidle (hready.staged (Bool.not_eq_false _ |>.mp hopen))

end OneRom.Rbcp
