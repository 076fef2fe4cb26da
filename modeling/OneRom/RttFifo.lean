import OneRom.Rtt

/-!
The ring as a queue of whole records. What has been taken out, followed by what is pending, is
what the accepted writes put in, whatever the order of calls and of the host's steps.

A debug host that drains the ring may step before any access of a call. While a call of the
firmware is taking bytes it is the one reader: between its sample of the reader's offset and its
store of the new one, the host takes none.
-/

namespace OneRom.RttFifo

open Shared Circular Rtt Relation

/-! ### The queue -/

/-- How many bytes of a ring are pending. -/
def pending (c : Channel) (cb : ControlBlock) : ℕ :=
  span (bufferSize c).toNat (cb.ring c).readOffset.toNat (cb.ring c).writeOffset.toNat

/-- How many bytes more a ring has room for. -/
def free (c : Channel) (cb : ControlBlock) : ℕ := (bufferSize c).toNat - 1 - pending c cb

/-- The first `n` bytes a reader finds. -/
def next (c : Channel) (cb : ControlBlock) (n : ℕ) : List UInt8 :=
  window (cb.memory c) (bufferSize c).toNat (cb.ring c).readOffset.toNat n

def pendingBytes (c : Channel) (cb : ControlBlock) : List UInt8 := next c cb (pending c cb)

/-- What has been taken out of a ring is carried beside the control block. -/
abbrev State := World (List UInt8)

variable (c : Channel)

/-- The host works on a ring other than `c`. -/
def ElsewhereStep (s t : State) : Prop :=
  ∃ d ≠ c, ∃ w r, t = ((s.1.setWriteOffset d w).setReadOffset d r, s.2)

/-- The host takes at most what is pending, or works on another ring. -/
inductive HostStep : State → State → Prop
  | takes (s : State) (n : UInt32) (hn : n.toNat ≤ pending c s.1) :
      HostStep s (s.1.setReadOffset c (advance (bufferSize c) (s.1.ring c).readOffset n),
        s.2 ++ next c s.1 n.toNat)
  | elsewhere {s t : State} (h : ElsewhereStep c s t) : HostStep s t

/-- What the host may do before an access of a call. -/
def within : Access → State → State → Prop
  | .get d _ | .setReadOffset d _ => if d = c then ElsewhereStep c else HostStep c
  | _ => HostStep c

/-- The bytes a read of the ring answered have been taken out. -/
def note : Call → Answer → List UInt8 → List UInt8
  | .read channel _ _, .took _ bytes, taken =>
    if ringOf channel = some c then taken ++ bytes else taken
  | _, _, taken => taken

/-- A record, as a write is handed it. -/
def recordOf (data : ℕ → UInt8) (len : UInt32) : List UInt8 := (List.range len.toNat).map data

/-- The record of a write to the ring that returned its full length. -/
def accepted : Made (List UInt8) → List UInt8
  | ⟨.write channel data len, _, .wrote n⟩ =>
    if ringOf channel = some c ∧ n = len then recordOf data len else []
  | _ => []

/-- A ring as `onerom_rtt_init` sets it up, with nothing taken out of it yet. -/
structure Initialised (s : State) : Prop where
  ready : Ready s.1
  writeOffset : (s.1.ring c).writeOffset = 0
  readOffset : (s.1.ring c).readOffset = 0
  taken : s.2 = []

/-! ### The invariant -/

/-- The offsets are in the buffer, and nothing has been lost of what went in. -/
structure Holds (went : List UInt8) (s : State) : Prop where
  ready : Ready s.1
  writeOffset : (s.1.ring c).writeOffset < bufferSize c
  readOffset : (s.1.ring c).readOffset < bufferSize c
  kept : s.2 ++ pendingBytes c s.1 = went

variable {c} {went : List UInt8} {s t : State}

lemma Initialised.holds (h : Initialised c s) : Holds c [] s where
  ready := h.ready
  writeOffset := h.writeOffset ▸ bufferSize_pos c
  readOffset := h.readOffset ▸ bufferSize_pos c
  kept := by simp [h.taken, pendingBytes, pending, next, h.writeOffset, h.readOffset]

section Rings

variable {cb cb' : ControlBlock} {d : Channel} {v : UInt32}

@[simp] lemma setReadOffset_ring_same :
    (cb.setReadOffset c v).ring c = { cb.ring c with readOffset := v } := by
  simp [ControlBlock.setReadOffset, ControlBlock.setRing]

@[simp] lemma setWriteOffset_ring_same :
    (cb.setWriteOffset c v).ring c = { cb.ring c with writeOffset := v } := by
  simp [ControlBlock.setWriteOffset, ControlBlock.setRing]

lemma setReadOffset_ring_ne (h : c ≠ d) : (cb.setReadOffset d v).ring c = cb.ring c := by
  simp [ControlBlock.setReadOffset, ControlBlock.setRing, h]

lemma setWriteOffset_ring_ne (h : c ≠ d) : (cb.setWriteOffset d v).ring c = cb.ring c := by
  simp [ControlBlock.setWriteOffset, ControlBlock.setRing, h]

@[simp] lemma setReadOffset_memory : (cb.setReadOffset d v).memory = cb.memory := rfl
@[simp] lemma setWriteOffset_memory : (cb.setWriteOffset d v).memory = cb.memory := rfl

/-- What a ring and its buffer are is all the queue depends on. -/
lemma Holds.congr (h : Holds c went (cb, s.2)) (hready : Ready cb')
    (hring : cb'.ring c = cb.ring c) (hmem : cb'.memory c = cb.memory c) :
    Holds c went (cb', s.2) where
  ready := hready
  writeOffset := hring ▸ h.writeOffset
  readOffset := hring ▸ h.readOffset
  kept := by
    have := h.kept
    simpa only [pendingBytes, next, pending, hring, hmem] using this

end Rings

/-- The reader's offset moves over bytes that are taken out. -/
lemma Holds.taken (h : Holds c went s) {n : UInt32} (hn : n.toNat ≤ pending c s.1) :
    Holds c went (s.1.setReadOffset c (advance (bufferSize c) (s.1.ring c).readOffset n),
      s.2 ++ next c s.1 n.toNat) := by
  have hr := UInt32.lt_iff_toNat_lt.mp h.readOffset
  have hw := UInt32.lt_iff_toNat_lt.mp h.writeOffset
  have hlt : n < bufferSize c := UInt32.lt_iff_toNat_lt.mpr (hn.trans_lt (span_lt hr hw))
  have hadv := advance_toNat h.readOffset hlt
  refine ⟨h.ready.access (.setReadOffset c _), by simpa using h.writeOffset,
    by simpa using advance_lt h.readOffset hlt, ?_⟩
  have hsplit : pending c s.1 = n.toNat + (pending c s.1 - n.toNat) := by omega
  have hkept := h.kept
  rw [pendingBytes, next, hsplit, window_add] at hkept
  simp only [pendingBytes, pending, next, setReadOffset_ring_same, setReadOffset_memory, hadv,
    span_add_left hr hw hn]
  rw [List.append_assoc]
  exact hkept

/-! ### Steps that keep it -/

/-- Nothing of ring `c` moves. -/
structure Still (c : Channel) (s t : State) : Prop where
  ready : Ready s.1 → Ready t.1
  ring : t.1.ring c = s.1.ring c
  memory : t.1.memory c = s.1.memory c
  taken : t.2 = s.2

lemma ElsewhereStep.still (h : ElsewhereStep c s t) : Still c s t := by
  obtain ⟨d, hd, w, r, rfl⟩ := h
  refine ⟨fun hr => (hr.access (.setWriteOffset d w)).access (.setReadOffset d r), ?_, rfl, rfl⟩
  rw [setReadOffset_ring_ne hd.symm, setWriteOffset_ring_ne hd.symm]

lemma Still.holds (h : Still c s t) (hs : Holds c went s) : Holds c went t := by
  obtain ⟨cb, taken⟩ := t
  obtain rfl : taken = s.2 := h.taken
  exact hs.congr (h.ready hs.ready) h.ring h.memory

/-- The invariant, with the writer's offset. -/
structure HoldsAt (c : Channel) (went : List UInt8) (w : UInt32) (s : State) : Prop
    extends Holds c went s where
  offset : (s.1.ring c).writeOffset = w

lemma Holds.at (h : Holds c went s) : HoldsAt c went (s.1.ring c).writeOffset s := ⟨h, rfl⟩

lemma Still.holdsAt {w : UInt32} (h : Still c s t) (hs : HoldsAt c went w s) :
    HoldsAt c went w t := ⟨h.holds hs.toHolds, h.ring ▸ hs.offset⟩

/-- The host takes bytes out, and leaves the writer's offset alone. -/
lemma HostStep.holdsAt {w : UInt32} (h : HostStep c s t) (hs : HoldsAt c went w s) :
    HoldsAt c went w t := by
  cases h with
  | takes n hn => exact ⟨hs.toHolds.taken hn, by simpa using hs.offset⟩
  | elsewhere h => exact h.still.holdsAt hs

lemma HostStep.sameShape (h : HostStep c s t) : SameShape s.1 t.1 := by
  cases h with
  | takes n hn =>
    refine ⟨rfl, fun d => ?_, fun d => ?_⟩ <;> by_cases hd : d = c
    · subst hd
      simp
    · simp [setReadOffset_ring_ne hd]
    · subst hd
      simp
    · simp [setReadOffset_ring_ne hd]
  | elsewhere h =>
    obtain ⟨d, -, w, r, rfl⟩ := h
    refine ⟨rfl, fun e => ?_, fun e => ?_⟩ <;> by_cases he : e = d
    · subst he
      simp
    · simp [setReadOffset_ring_ne he, setWriteOffset_ring_ne he]
    · subst he
      simp
    · simp [setReadOffset_ring_ne he, setWriteOffset_ring_ne he]

/-- Before any access the host takes a step it may take between calls. -/
lemma within_host {a : Access} (h : within c a s t) : HostStep c s t := by
  unfold within at h
  split at h
  · split_ifs at h
    · exact .elsewhere h
    · exact h
  · split_ifs at h
    · exact .elsewhere h
    · exact h
  · exact h

lemma within_shape : ∀ a s t, within c a s t → SameShape s.1 t.1 :=
  fun _ _ _ h => (within_host h).sameShape

lemma steps_holdsAt {w : UInt32} {a : Access} (h : ReflTransGen (within c a) s t)
    (hs : HoldsAt c went w s) : HoldsAt c went w t :=
  steps_keep (I := HoldsAt c went w) (fun _ _ hst => (within_host hst).holdsAt) h hs

/-! ### Accesses elsewhere -/

/-- The ring an access is to. -/
def channelOf : Access → Option Channel
  | .init => none
  | .buffer d | .size d | .writeOffset d | .readOffset d | .setWriteOffset d _
  | .setReadOffset d _ | .put d _ _ | .get d _ => some d

/-- Accesses that leave ring `c` as it is: those to another ring, and those that only enter. -/
def Spares (c : Channel) (a : Access) : Prop := channelOf a ≠ some c ∨ a.Enters

lemma access_still {a : Access} (ha : Spares c a) (hs : Ready s.1) :
    Still c s (beside access a s).2 := by
  have hready : Ready s.1 → Ready (beside access a s).2.1 := fun h => h.access a
  cases a with
  | init =>
    have : (access .init s.1).2 = s.1 := if_pos hs.id
    exact ⟨hready, congrArg (·.ring c) this, congrArg (·.memory c) this, rfl⟩
  | setWriteOffset d v =>
    have hd : c ≠ d := fun h => ha.elim (fun h' => h' (congrArg some h.symm)) id
    exact ⟨hready, setWriteOffset_ring_ne hd, rfl, rfl⟩
  | setReadOffset d v =>
    have hd : c ≠ d := fun h => ha.elim (fun h' => h' (congrArg some h.symm)) id
    exact ⟨hready, setReadOffset_ring_ne hd, rfl, rfl⟩
  | put d i b =>
    have hd : c ≠ d := fun h => ha.elim (fun h' => h' (congrArg some h.symm)) id
    exact ⟨hready, rfl, Function.update_of_ne hd _ _, rfl⟩
  | _ => exact ⟨hready, rfl, rfl, rfl⟩

/-- A program that spares ring `c` keeps the queue. -/
lemma spares_holds {α : Type} {p : RttProg α} {x : α}
    {tr : List (Event Access Access.Res State)} (hp : p.Only (Spares c))
    (h : Exec (beside access) (within c) p s tr x t) (hs : Holds c went s) : Holds c went t :=
  h.keeps hp (fun _ _ _ _ hst hs => ((within_host hst).holdsAt hs.at).toHolds)
    (fun _ _ ha hs => (access_still ha hs.ready).holds hs) hs

lemma entered_holds {tr : List (Event Access Access.Res State)}
    (h : Entered (within c) s tr t) (hs : Holds c went s) : Holds c went t := by
  obtain ⟨α, p, x, honly, hp⟩ := h
  exact spares_holds (honly.mono fun _ => Or.inr) hp hs

/-! ### A write -/

/-- A record going in at `w`: its first `k` bytes are there, and all of it has room. -/
structure Filling (c : Channel) (went : List UInt8) (w : UInt32) (data : ℕ → UInt8) (n k : ℕ)
    (s : State) : Prop extends HoldsAt c went w s where
  room : n ≤ free c s.1
  filled : window (s.1.memory c) (bufferSize c).toNat w.toNat k = (List.range k).map data

variable {w : UInt32} {data : ℕ → UInt8} {n k : ℕ}

lemma Filling.room' (h : Filling c went w data n k s) :
    span (bufferSize c).toNat (s.1.ring c).readOffset.toNat w.toNat + n
      < (bufferSize c).toNat := by
  have hr := UInt32.lt_iff_toNat_lt.mp h.readOffset
  have hw := UInt32.lt_iff_toNat_lt.mp h.writeOffset
  have hroom := h.room
  have hlt := span_lt hr hw
  unfold free pending at hroom
  rw [h.offset] at hroom hlt
  omega

/-- The host's steps only make room. -/
lemma HostStep.filling (h : HostStep c s t) (hs : Filling c went w data n k s) :
    Filling c went w data n k t := by
  refine ⟨h.holdsAt hs.toHoldsAt, ?_, ?_⟩
  · have hroom := hs.room
    have hr := UInt32.lt_iff_toNat_lt.mp hs.readOffset
    have hw := UInt32.lt_iff_toNat_lt.mp hs.writeOffset
    cases h with
    | takes m hm =>
      have hlt : m < bufferSize c := UInt32.lt_iff_toNat_lt.mpr (hm.trans_lt (span_lt hr hw))
      simp only [free, pending, setReadOffset_ring_same,
        advance_toNat hs.readOffset hlt, span_add_left hr hw hm] at hroom ⊢
      omega
    | elsewhere h =>
      have hring := h.still.ring
      unfold free pending at hroom ⊢
      rwa [hring]
  · have hmem : t.1.memory c = s.1.memory c := by
      cases h with
      | takes m hm => rfl
      | elsewhere h => exact h.still.memory
    rw [hmem]
    exact hs.filled

/-- The next byte goes in past what is pending. -/
lemma Filling.put (h : Filling c went w data n k s) (hk : k < n) :
    Filling c went w data n (k + 1)
      (s.1.put c ((w.toNat + k) % (bufferSize c).toNat) (data k), s.2) := by
  have hr := UInt32.lt_iff_toNat_lt.mp h.readOffset
  have hw := UInt32.lt_iff_toNat_lt.mp h.writeOffset
  have hroom := h.room'
  rw [h.offset] at hw
  have hmem : (s.1.put c ((w.toNat + k) % (bufferSize c).toNat) (data k)).memory c
      = Function.update (s.1.memory c) ((w.toNat + k) % (bufferSize c).toNat) (data k) := by
    simp [ControlBlock.put]
  refine ⟨⟨⟨h.ready.access (.put c _ _), h.writeOffset, h.readOffset, ?_⟩, h.offset⟩, h.room, ?_⟩
  · -- the place is none of the pending ones
    have hplace : (w.toNat + k) % (bufferSize c).toNat = ((s.1.ring c).readOffset.toNat
        + (span (bufferSize c).toNat (s.1.ring c).readOffset.toNat w.toNat + k))
          % (bufferSize c).toNat := by
      conv_lhs => rw [← add_span hr hw]
      rw [Nat.mod_add_mod, Nat.add_assoc]
    have hkept := h.kept
    unfold pendingBytes next pending at hkept ⊢
    rw [h.offset] at hkept
    change s.2 ++ window ((s.1.put c _ _).memory c) _ (s.1.ring c).readOffset.toNat
      (span _ (s.1.ring c).readOffset.toNat (s.1.ring c).writeOffset.toNat) = went
    rw [h.offset, hmem, hplace, window_update hr (Nat.le_add_right _ _) (by omega)]
    exact hkept
  · change window ((s.1.put c _ _).memory c) _ _ _ = _
    rw [hmem, window_update_last hw (by omega), h.filled, List.range_succ, List.map_append,
      List.map_singleton]

/-- The bytes of a record go in one after the other. -/
lemma Filling.puts {tr : List (Event Access Access.Res State)} {x : Unit} {m : ℕ}
    (h : Exec (beside access) (within c)
      (puts c ((List.range' k m).map fun i => ((w.toNat + i) % (bufferSize c).toNat, data i)))
      s tr x t) (hs : Filling c went w data n k s) (hm : k + m ≤ n) :
    Filling c went w data n (k + m) t := by
  induction m generalizing k s tr with
  | zero =>
    obtain ⟨-, -, rfl⟩ := h.ret_inv
    exact hs
  | succ m ih =>
    rw [List.range'_succ, List.map_cons] at h
    obtain ⟨u, tr', henv, hrest, -⟩ := h.act_inv
    have hu : Filling c went w data n k u :=
      steps_keep (I := Filling c went w data n k) (fun _ _ hst => (within_host hst).filling) henv hs
    have := ih hrest (hu.put (by omega)) (by omega)
    rwa [show k + (m + 1) = k + 1 + m by omega]

/-- Storing the offset past a record that is all there makes it pending. -/
lemma Filling.publish {len : UInt32} (h : Filling c went w data len.toNat len.toNat s) :
    Holds c (went ++ recordOf data len)
      (s.1.setWriteOffset c (advance (bufferSize c) w len), s.2) := by
  have hr := UInt32.lt_iff_toNat_lt.mp h.readOffset
  have hw := h.writeOffset
  have hroom := h.room'
  rw [h.offset] at hw
  have hlt : len < bufferSize c := UInt32.lt_iff_toNat_lt.mpr (by omega)
  have hwlt := UInt32.lt_iff_toNat_lt.mp hw
  have hadv := advance_toNat hw hlt
  refine ⟨h.ready.access (.setWriteOffset c _), by simpa using advance_lt hw hlt,
    by simpa using h.readOffset, ?_⟩
  have hkept := h.kept
  unfold pendingBytes next pending at hkept ⊢
  rw [h.offset] at hkept
  simp only [setWriteOffset_ring_same, setWriteOffset_memory, hadv,
    span_add_right hr hwlt hroom, window_add, add_span hr hwlt, h.filled]
  rw [← List.append_assoc, hkept]
  rfl

/-! ### The calls -/

section Calls

variable {channel : UInt32} {tr : List (Event Access Access.Res State)}

lemma clamp_at (h : HoldsAt c went w s) :
    clamp (bufferSize c) (s.1.ring c).readOffset = (s.1.ring c).readOffset :=
  clamp_of_lt h.readOffset

/-- The free space a write finds is that at the moment it samples the reader's offset. -/
lemma avail_free (h : HoldsAt c went w s) :
    (avail (bufferSize c) (clamp (bufferSize c) (s.1.ring c).readOffset) w).toNat
      = free c s.1 := by
  have hw := h.writeOffset
  rw [clamp_at h]
  rw [h.offset] at hw
  rw [avail_toNat h.readOffset hw]
  unfold free pending
  rw [h.offset]

/-- A write to the ring takes the record whole, or refuses it for want of space. -/
lemma write_holds {len n : UInt32} (hc : ringOf channel = some c)
    (h : Exec (beside access) (within c) (oneromRttWrite channel data len) s tr n t)
    (hs : Holds c went s) :
    Holds c (went ++ if n = len then recordOf data len else []) t ∧
      ∃ e ∈ tr, e.act = .readOffset c ∧ n = if free c e.seen.1 < len.toNat then 0 else len := by
  rcases write_inv within_shape (fun _ => hs.ready) h with ⟨hnone, -⟩ | ⟨d, tr₀, u, tr₁, w, v, s₂,
    tr₂, hd, hent, -, hw, hr, rfl, hcase⟩
  · rw [hc] at hnone
    cases hnone
  obtain rfl : c = d := Option.some.inj (hc.symm.trans hd)
  -- the writer's offset is its own, so its sample is the offset throughout
  obtain ⟨s₁, h₁, hclamp, _, -, hwcase⟩ := clampWriteOffset_inv hw
  have hs₁ := (steps_holdsAt h₁ (entered_holds hent hs).at)
  have hv : HoldsAt c went w v := by
    rcases hwcase with ⟨hlt, rfl, -⟩ | ⟨_, -, hge, -⟩
    · rw [clamp_of_lt hlt] at hclamp
      exact hclamp ▸ hs₁.toHolds.at
    · exact absurd hs₁.writeOffset (UInt32.not_lt.mpr hge)
  have hs₂ := steps_holdsAt hr hv
  have hfree := avail_free hs₂
  rcases hcase with ⟨hfull, rfl, -, rfl⟩ | ⟨hle, rfl, hstore⟩
  · rw [UInt32.lt_iff_toNat_lt, hfree] at hfull
    have hne : (0 : UInt32) ≠ len := by
      rintro rfl
      exact absurd hfull (Nat.not_lt_zero _)
    refine ⟨by simpa [hne] using hs₂.toHolds, _, List.mem_append_right _
      (List.mem_append_right _ List.mem_cons_self), rfl, (if_pos hfull).symm⟩
  · rw [UInt32.le_iff_toNat_le, hfree] at hle
    have hlt : n < bufferSize c := by
      have hpos := UInt32.lt_iff_toNat_lt.mp (bufferSize_pos c)
      rw [UInt32.lt_iff_toNat_lt]
      unfold free at hle
      simp only [UInt32.toNat_zero] at hpos
      omega
    obtain ⟨tr₃, s₃, s₄, hput, h₄, rfl, -⟩ := store_inv (hs₂.offset ▸ hs₂.writeOffset) hlt hstore
    have hfill : Filling c went w data n.toNat 0 s₂ := ⟨hs₂, hle, rfl⟩
    rw [List.range_eq_range'] at hput
    have hfull := hfill.puts hput (by omega)
    rw [Nat.zero_add] at hfull
    have hend : Filling c went w data n.toNat n.toNat s₄ :=
      steps_keep (I := Filling c went w data n.toNat n.toNat)
        (fun _ _ hst => (within_host hst).filling) h₄ hfull
    refine ⟨by simpa using hend.publish, _, List.mem_append_right _
      (List.mem_append_right _ List.mem_cons_self), rfl, (if_neg (Nat.not_lt.mpr hle)).symm⟩

/-! ### A read -/

lemma Still.refl (s : State) : Still c s s := ⟨id, rfl, rfl, rfl⟩

lemma Still.trans {u : State} (h : Still c s t) (h' : Still c t u) : Still c s u :=
  ⟨h'.ready ∘ h.ready, h'.ring.trans h.ring, h'.memory.trans h.memory, h'.taken.trans h.taken⟩

lemma elsewhere_still (h : ReflTransGen (ElsewhereStep c) s t) : Still c s t := by
  induction h with
  | refl => exact .refl s
  | tail _ hstep ih => exact ih.trans hstep.still

/-- While bytes are taken out, the ring and its buffer stay as they were. -/
lemma gets_still {l : List ℕ} {bytes : List UInt8}
    (h : Exec (beside access) (within c) (gets c l) s tr bytes t) :
    Still c s t ∧ bytes = l.map (s.1.memory c) := by
  induction l generalizing s t tr bytes with
  | nil =>
    obtain ⟨-, rfl, rfl⟩ := h.ret_inv
    exact ⟨.refl _, rfl⟩
  | cons i l ih =>
    obtain ⟨u, tr', henv, hrest, -⟩ := h.act_inv
    obtain ⟨tr₁, bs, v, tr₂, hgets, hret, -⟩ := hrest.bind_inv
    obtain ⟨-, rfl, rfl⟩ := hret.ret_inv
    rw [show within c (.get c i) = ElsewhereStep c from if_pos rfl] at henv
    have hu := elsewhere_still henv
    obtain ⟨hv, rfl⟩ := ih hgets
    refine ⟨hu.trans hv, ?_⟩
    change u.1.memory c i :: l.map (u.1.memory c) = _
    rw [hu.memory]
    rfl

/-- A read takes the bytes that are pending when it samples the reader's offset, up to as many as
it asks for. -/
lemma read_holds {dest : Bool} {maxLen : UInt32} {x : UInt32 × List UInt8}
    (hc : ringOf channel = some c)
    (h : Exec (beside access) (within c) (oneromRttRead channel dest maxLen) s tr x t)
    (hs : Holds c went s) :
    Holds c went (t.1, t.2 ++ x.2) ∧ (dest = true → ∃ e ∈ tr, e.act = .readOffset c ∧
      x.1.toNat = min (pending c e.seen.1) maxLen.toNat ∧ x.2 = next c e.seen.1 x.1.toNat) := by
  rcases read_inv within_shape (fun _ => hs.ready) h with ⟨hnone, rfl, hent⟩ | ⟨d, tr₀, u, v, s₂,
    tr₂, n, hd, hent, -, hw, hr, rfl, hn, hx, hcase⟩
  · refine ⟨by simpa using entered_holds hent hs, fun hdest => ?_⟩
    rw [hc, hdest] at hnone
    rcases hnone with hnone | hnone <;> cases hnone
  obtain rfl : c = d := Option.some.inj (hc.symm.trans hd)
  have hv := steps_holdsAt hw (entered_holds hent hs).at
  have hs₂ := steps_holdsAt hr hv.toHolds.at
  have hcount : n.toNat = min (pending c s₂.1) maxLen.toNat := by
    rw [hn, atMost_toNat, clamp_at hs₂, clamp_of_lt hv.writeOffset, ← hs₂.offset,
      pending_toNat hs₂.readOffset]
    rfl
  have hlt : n < bufferSize c := by
    have := span_lt (UInt32.lt_iff_toNat_lt.mp hs₂.readOffset)
      (UInt32.lt_iff_toNat_lt.mp hs₂.writeOffset)
    rw [UInt32.lt_iff_toNat_lt, hcount]
    exact (Nat.min_le_left _ _).trans_lt this
  have hsample : (⟨.readOffset c, (s₂.1.ring c).readOffset, s₂⟩ : Event Access Access.Res State)
      ∈ tr₀ ++ ⟨.writeOffset c, (v.1.ring c).writeOffset, v⟩
        :: ⟨.readOffset c, (s₂.1.ring c).readOffset, s₂⟩ :: tr₂ := by simp
  rcases hcase with ⟨hz, hbytes, -, rfl⟩ | ⟨-, htake⟩
  · refine ⟨by simpa [hbytes] using hs₂.toHolds, fun _ => ⟨_, hsample, rfl, hx ▸ hcount, ?_⟩⟩
    rw [hbytes, hx, hz]
    rfl
  · rw [clamp_at hs₂] at htake
    obtain ⟨tr₃, s₃, s₄, hget, h₄, rfl, -⟩ := take_inv hs₂.readOffset hlt htake
    obtain ⟨hstill₃, hbytes⟩ := gets_still hget
    rw [show within c (.setReadOffset c _) = ElsewhereStep c from if_pos rfl] at h₄
    have hstill := hstill₃.trans (elsewhere_still h₄)
    rw [List.map_map] at hbytes
    have hnext : x.2 = next c s₂.1 n.toNat := hbytes
    refine ⟨?_, fun _ => ⟨_, hsample, rfl, hx ▸ hcount, hx ▸ hnext⟩⟩
    have hle : n.toNat ≤ pending c s₄.1 := by
      have : pending c s₄.1 = pending c s₂.1 := by
        unfold pending
        rw [hstill.ring]
      omega
    have hend := (hstill.holdsAt hs₂).toHolds.taken hle
    have hbytes' : next c s₄.1 n.toNat = x.2 := by
      rw [hnext]
      unfold next
      rw [hstill.ring, hstill.memory]
    rw [hbytes', hstill.ring] at hend
    exact hend

/-- A query reports the bytes that are pending when it samples the reader's offset. -/
lemma query_holds {x : UInt32 × UInt32 × UInt32} (hc : ringOf channel = some c)
    (h : Exec (beside access) (within c) (oneromRttQuery channel) s tr x t)
    (hs : Holds c went s) :
    Holds c went t ∧ x.1 = bufferSize c ∧ x.1.toNat = x.2.1.toNat + x.2.2.toNat + 1 ∧
      ∃ e ∈ tr, e.act = .readOffset c ∧ x.2.2.toNat = pending c e.seen.1 := by
  rcases query_inv within_shape (fun _ => hs.ready) h with ⟨hnone, -⟩ | ⟨d, tr₀, u, v, n, hd,
    hent, -, hw, hr, rfl, hn, rfl⟩
  · rw [hc] at hnone
    cases hnone
  obtain rfl : c = d := Option.some.inj (hc.symm.trans hd)
  have hv := steps_holdsAt hw (entered_holds hent hs).at
  have ht := steps_holdsAt hr hv.toHolds.at
  have hcount : n.toNat = pending c t.1 := by
    rw [hn, clamp_at ht, clamp_of_lt hv.writeOffset, ← ht.offset, pending_toNat ht.readOffset]
    rfl
  have hlt : n.toNat < (bufferSize c).toNat := by
    rw [hcount]
    exact span_lt (UInt32.lt_iff_toNat_lt.mp ht.readOffset) (UInt32.lt_iff_toNat_lt.mp ht.writeOffset)
  refine ⟨ht.toHolds, rfl, ?_, ⟨.readOffset c, (t.1.ring c).readOffset, t⟩, by simp, rfl, hcount⟩
  have hsize := (bufferSize c).toNat_lt
  simp only [UInt32.toNat_sub, UInt32.toNat_one]
  omega

end Calls

/-! ### Calls on another channel -/

section Elsewhere

variable {d : Channel}

lemma puts_spares (hd : d ≠ c) (l : List (ℕ × UInt8)) : (puts d l).Only (Spares c) := by
  induction l with
  | nil => trivial
  | cons p l ih => exact ⟨Or.inl fun h => hd (Option.some.inj h), fun _ => ih⟩

lemma gets_spares (hd : d ≠ c) (l : List ℕ) : (gets d l).Only (Spares c) := by
  induction l with
  | nil => trivial
  | cons i l ih =>
    exact ⟨Or.inl fun h => hd (Option.some.inj h), fun _ => ih.bind fun _ => trivial⟩

lemma act_spares {a : Access} (hd : d ≠ c) (ha : channelOf a = some d) :
    (act a).Only (Spares c) :=
  ⟨Or.inl fun h => hd (Option.some.inj (ha.symm.trans h)), fun _ => trivial⟩

lemma store_spares (hd : d ≠ c) (size w n : UInt32) (data : ℕ → UInt8) :
    (store d size w data n).Only (Spares c) := by
  unfold store
  dsimp only
  split_ifs
  · refine (puts_spares hd _).bind fun _ => ?_
    exact act_spares hd rfl
  · refine (puts_spares hd _).bind fun _ => (puts_spares hd _).bind fun _ => ?_
    exact act_spares hd rfl

lemma take_spares (hd : d ≠ c) (size r n : UInt32) : (take d size r n).Only (Spares c) := by
  unfold take
  dsimp only
  split_ifs
  · refine (gets_spares hd _).bind fun _ => Prog.Only.bind ?_ fun _ => trivial
    exact act_spares hd rfl
  · refine (gets_spares hd _).bind fun _ => (gets_spares hd _).bind fun _ =>
      Prog.Only.bind ?_ fun _ => trivial
    exact act_spares hd rfl

lemma clampWriteOffset_spares (hd : d ≠ c) (size : UInt32) :
    (clampWriteOffset d size).Only (Spares c) := by
  refine Prog.Only.bind ?_ fun w => ?_
  · exact act_spares hd rfl
  · split_ifs
    · refine Prog.Only.bind ?_ fun _ => trivial
      exact act_spares hd rfl
    · trivial

variable {channel : UInt32} {tr : List (Event Access Access.Res State)}

lemma steps_holds {a : Access} (h : ReflTransGen (within c a) s t) (hs : Holds c went s) :
    Holds c went t := (steps_holdsAt h hs.at).toHolds

lemma write_elsewhere {len n : UInt32} (hc : ringOf channel ≠ some c)
    (h : Exec (beside access) (within c) (oneromRttWrite channel data len) s tr n t)
    (hs : Holds c went s) : Holds c went t := by
  rcases write_inv within_shape (fun _ => hs.ready) h with ⟨-, -, hent⟩ | ⟨d, tr₀, u, tr₁, w, v,
    s₂, tr₂, hd, hent, -, hw, hr, -, hcase⟩
  · exact entered_holds hent hs
  have hdc : d ≠ c := by
    rintro rfl
    exact hc hd
  have hs₂ := steps_holds hr (spares_holds (clampWriteOffset_spares hdc _) hw
    (entered_holds hent hs))
  rcases hcase with ⟨-, -, -, rfl⟩ | ⟨-, -, hstore⟩
  · exact hs₂
  · exact spares_holds (store_spares hdc _ _ _ _) hstore hs₂

lemma read_elsewhere {dest : Bool} {maxLen : UInt32} {x : UInt32 × List UInt8}
    (hc : ringOf channel ≠ some c)
    (h : Exec (beside access) (within c) (oneromRttRead channel dest maxLen) s tr x t)
    (hs : Holds c went s) : Holds c went t := by
  rcases read_inv within_shape (fun _ => hs.ready) h with ⟨-, -, hent⟩ | ⟨d, tr₀, u, v, s₂, tr₂, n,
    hd, hent, -, hw, hr, -, -, -, hcase⟩
  · exact entered_holds hent hs
  have hdc : d ≠ c := by
    rintro rfl
    exact hc hd
  have hs₂ := steps_holds hr (steps_holds hw (entered_holds hent hs))
  rcases hcase with ⟨-, -, -, rfl⟩ | ⟨-, htake⟩
  · exact hs₂
  · exact spares_holds (take_spares hdc _ _ _) htake hs₂

lemma query_elsewhere {x : UInt32 × UInt32 × UInt32}
    (h : Exec (beside access) (within c) (oneromRttQuery channel) s tr x t)
    (hs : Holds c went s) : Holds c went t := by
  rcases query_inv within_shape (fun _ => hs.ready) h with ⟨-, -, hent⟩ | ⟨d, tr₀, u, v, n, hd,
    hent, -, hw, hr, -⟩
  · exact entered_holds hent hs
  · exact steps_holds hr (steps_holds hw (entered_holds hent hs))

end Elsewhere

/-! ### Runs -/

/-- What a call on the ring answers, by the moment it samples the reader's offset: a write stores
the whole record unless it is longer than the free space, a read takes the pending bytes up to as
many as it asks for, and a query reports the size as the free space, the pending bytes and one. -/
def Answered (c : Channel) (m : Made (List UInt8)) : Prop :=
  match m.call, m.answer with
  | .write channel _ len, .wrote n => ringOf channel = some c →
    ∃ e ∈ m.trace, e.act = .readOffset c ∧ n = if free c e.seen.1 < len.toNat then 0 else len
  | .read channel dest maxLen, .took n bytes => ringOf channel = some c → dest = true →
    ∃ e ∈ m.trace, e.act = .readOffset c ∧ n.toNat = min (pending c e.seen.1) maxLen.toNat ∧
      bytes = next c e.seen.1 n.toNat
  | .query channel, .reported size free pending => ringOf channel = some c →
    size = bufferSize c ∧ size.toNat = free.toNat + pending.toNat + 1 ∧
      ∃ e ∈ m.trace, e.act = .readOffset c ∧ pending.toNat = RttFifo.pending c e.seen.1
  | _, _ => False

/-- One call keeps the queue, with the record it accepted at its end. -/
lemma call_holds {call : Call} {x : Answer} {tr : List (Event Access Access.Res State)}
    (h : Exec (beside access) (within c) call.prog s tr x t) (hs : Holds c went s) :
    Holds c (went ++ accepted c ⟨call, tr, x⟩) (t.1, note c call x t.2) ∧
      Answered c ⟨call, tr, x⟩ := by
  cases call with
  | write channel data len =>
    obtain ⟨tr₁, n, u, _, hcall, hret, rfl⟩ := h.bind_inv
    obtain ⟨rfl, rfl, rfl⟩ := hret.ret_inv
    rw [List.append_nil]
    by_cases hc : ringOf channel = some c
    · obtain ⟨hholds, hans⟩ := write_holds hc hcall hs
      exact ⟨by simpa [accepted, hc, note] using hholds, fun _ => hans⟩
    · have hholds := write_elsewhere hc hcall hs
      exact ⟨by simpa [accepted, hc, note] using hholds, fun h => absurd h hc⟩
  | read channel dest maxLen =>
    obtain ⟨tr₁, y, u, _, hcall, hret, rfl⟩ := h.bind_inv
    obtain ⟨rfl, rfl, rfl⟩ := hret.ret_inv
    rw [List.append_nil]
    by_cases hc : ringOf channel = some c
    · obtain ⟨hholds, hans⟩ := read_holds hc hcall hs
      exact ⟨by simpa [accepted, hc, note] using hholds, fun _ => hans⟩
    · have hholds := read_elsewhere hc hcall hs
      exact ⟨by simpa [accepted, hc, note] using hholds, fun h => absurd h hc⟩
  | query channel =>
    obtain ⟨tr₁, y, u, _, hcall, hret, rfl⟩ := h.bind_inv
    obtain ⟨rfl, rfl, rfl⟩ := hret.ret_inv
    rw [List.append_nil]
    have hholds := query_elsewhere hcall hs
    exact ⟨by simpa [accepted, note] using hholds, fun hc => (query_holds hc hcall hs).2⟩

/-- A run of calls keeps the queue, with the records it accepted at its end. -/
lemma calls_hold {ms : List (Made (List UInt8))}
    (h : Calls (within c) (HostStep c) (note c) s ms t) (hs : Holds c went s) :
    Holds c (went ++ ms.flatMap (accepted c)) t ∧ ∀ m ∈ ms, Answered c m := by
  induction h generalizing went with
  | done => simpa using hs
  | host hst _ ih => exact ih (hst.holdsAt hs.at).toHolds
  | call hc _ ih =>
    obtain ⟨hholds, hans⟩ := call_holds hc hs
    obtain ⟨hend, hall⟩ := ih hholds
    rw [List.append_assoc] at hend
    exact ⟨by simpa using hend, List.forall_mem_cons.mpr ⟨hans, hall⟩⟩

/-- What has been taken out of a ring, followed by what is pending in it, is the accepted records
in order; and every call answers by the ring as it samples it. -/
theorem ring_fifo {ms : List (Made (List UInt8))} (h₀ : Initialised c s)
    (h : Calls (within c) (HostStep c) (note c) s ms t) :
    t.2 ++ pendingBytes c t.1 = ms.flatMap (accepted c) ∧ ∀ m ∈ ms, Answered c m := by
  obtain ⟨hend, hans⟩ := calls_hold h h₀.holds
  exact ⟨by simpa using hend.kept, hans⟩

def fresh : State := ((access .init ControlBlock.reset).2, [])

def hello (i : ℕ) : UInt8 := [72, 105, 33].getD i 0

/-- A write, a byte the host takes, and a read of one byte. -/
theorem ring_fifo_hello : ∃ (ms : List (Made (List UInt8))) (t : State), t.2 = [72, 105] ∧
    t.2 ++ pendingBytes .up t.1 = ms.flatMap (accepted .up) ∧ ∀ m ∈ ms, Answered .up m := by
  have hinit : Initialised .up fresh := ⟨⟨rfl, fun _ => rfl, fun _ => rfl⟩, rfl, rfl, rfl⟩
  exact ⟨_, _, by rfl, ring_fifo hinit (.call (Exec.of_run (Call.write 0 hello 3).prog _)
    (.host (.takes _ 1 (by decide)) (.call (Exec.of_run (Call.read 0 true 1).prog _) (.done _))))⟩

end OneRom.RttFifo
