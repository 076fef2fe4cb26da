import OneRom.Shared
import OneRom.Circular

/-!
The real time transfer log: two rings a debug host reads and writes over the debug port while the
firmware runs. Offsets are the host's as much as the firmware's, so every access the firmware
makes to a ring is one step, and the host may move an offset before any of them.
-/

namespace OneRom.Rtt

open Shared Circular Relation

/-- The rings with a buffer: `up[0]`, the log, and `down[0]`, input from a probe or a plugin. -/
inductive Channel
  | up
  | down
  deriving DecidableEq, Repr

def upBufferSize : UInt32 := 3072
def downBufferSize : UInt32 := 512

def bufferSize : Channel → UInt32
  | .up => upBufferSize
  | .down => downBufferSize

/-- A channel descriptor. -/
structure Ring where
  /-- Whether the descriptor points at a buffer. -/
  buffer : Bool
  size : UInt32
  writeOffset : UInt32
  readOffset : UInt32

structure ControlBlock where
  /-- Whether the identifier has been written. -/
  id : Bool
  ring : Channel → Ring
  /-- The memory each channel's buffer starts. -/
  memory : Channel → ℕ → UInt8

namespace ControlBlock

def setRing (cb : ControlBlock) (c : Channel) (r : Ring) : ControlBlock :=
  { cb with ring := Function.update cb.ring c r }

def setWriteOffset (cb : ControlBlock) (c : Channel) (v : UInt32) : ControlBlock :=
  cb.setRing c { cb.ring c with writeOffset := v }

def setReadOffset (cb : ControlBlock) (c : Channel) (v : UInt32) : ControlBlock :=
  cb.setRing c { cb.ring c with readOffset := v }

def put (cb : ControlBlock) (c : Channel) (i : ℕ) (b : UInt8) : ControlBlock :=
  { cb with memory := Function.update cb.memory c (Function.update (cb.memory c) i b) }

/-- Nothing set up yet. -/
def reset : ControlBlock := ⟨false, fun _ => ⟨false, 0, 0, 0⟩, fun _ _ => 0⟩

/-- The descriptors as first filled in. -/
def initial (c : Channel) : Ring := ⟨true, bufferSize c, 0, 0⟩

end ControlBlock

/-- One access of the firmware to the control block or to a channel's buffer. -/
inductive Access
  | init
  | buffer (c : Channel)
  | size (c : Channel)
  | writeOffset (c : Channel)
  | readOffset (c : Channel)
  | setWriteOffset (c : Channel) (v : UInt32)
  | setReadOffset (c : Channel) (v : UInt32)
  | put (c : Channel) (i : ℕ) (b : UInt8)
  | get (c : Channel) (i : ℕ)

abbrev Access.Res : Access → Type
  | .buffer _ => Bool
  | .size _ | .writeOffset _ | .readOffset _ => UInt32
  | .get _ _ => UInt8
  | _ => Unit

abbrev RttProg := Prog Access Access.Res

/-- What an access gives, and what it leaves. `init` is `onerom_rtt_init`. -/
def access : (a : Access) → ControlBlock → a.Res × ControlBlock
  | .init, cb => ((), if cb.id then cb else { cb with id := true, ring := ControlBlock.initial })
  | .buffer c, cb => ((cb.ring c).buffer, cb)
  | .size c, cb => ((cb.ring c).size, cb)
  | .writeOffset c, cb => ((cb.ring c).writeOffset, cb)
  | .readOffset c, cb => ((cb.ring c).readOffset, cb)
  | .setWriteOffset c v, cb => ((), cb.setWriteOffset c v)
  | .setReadOffset c v, cb => ((), cb.setReadOffset c v)
  | .put c i b, cb => ((), cb.put c i b)
  | .get c i, cb => (cb.memory c i, cb)

/-! ### The functions -/

def act (a : Access) : RttProg a.Res := Prog.act a

/-- The ring of a channel number. -/
def oneromRttRing (channel : UInt32) : RttProg (Option Channel) :=
  if channel = 0 then populated .up else if channel = 1 then populated .down else pure none
where
  populated (c : Channel) : RttProg (Option Channel) := do
    if (← act (.buffer c)) = false then pure none
    else if (← act (.size c)) = 0 then pure none
    else pure (some c)

/-- An offset that is not in the buffer counts as its start. -/
def clamp (size offset : UInt32) : UInt32 := if offset ≥ size then 0 else offset

def oneromRttAvail (c : Channel) (size writeOffset : UInt32) : RttProg UInt32 := do
  let readOffset := clamp size (← act (.readOffset c))
  if readOffset ≤ writeOffset then pure (size - 1 - writeOffset + readOffset)
  else pure (readOffset - writeOffset - 1)

/-- Bytes stored one after the other. -/
def puts (c : Channel) : List (ℕ × UInt8) → RttProg Unit
  | [] => pure ()
  | (i, b) :: l => do act (.put c i b); puts c l

/-- Bytes loaded one after the other. -/
def gets (c : Channel) : List ℕ → RttProg (List UInt8)
  | [] => pure []
  | i :: l => do
    let b ← act (.get c i)
    let bs ← gets c l
    pure (b :: bs)

/-- `memcpy` of `n` bytes into the buffer at `offset`, from place `first` of the data. -/
def copyIn (c : Channel) (offset : ℕ) (data : ℕ → UInt8) (first n : ℕ) : RttProg Unit :=
  puts c ((List.range n).map fun i => (offset + i, data (first + i)))

/-- `memcpy` of `n` bytes out of the buffer at `offset`. -/
def copyOut (c : Channel) (offset n : ℕ) : RttProg (List UInt8) :=
  gets c ((List.range n).map (offset + ·))

/-- The record's bytes, then the offset that publishes them. -/
def store (c : Channel) (size writeOffset : UInt32) (data : ℕ → UInt8) (len : UInt32) :
    RttProg Unit :=
  let toEnd := size - writeOffset
  if toEnd > len then do
    copyIn c writeOffset.toNat data 0 len.toNat
    act (.setWriteOffset c (writeOffset + len))
  else do
    copyIn c writeOffset.toNat data 0 toEnd.toNat
    copyIn c 0 data toEnd.toNat (len - toEnd).toNat
    act (.setWriteOffset c (len - toEnd))

/-- The offset a write starts at. On the down channel the host writes it. -/
def clampWriteOffset (c : Channel) (size : UInt32) : RttProg UInt32 := do
  let writeOffset ← act (.writeOffset c)
  if writeOffset ≥ size then do
    act (.setWriteOffset c 0)
    pure 0
  else pure writeOffset

def oneromRttWrite (channel : UInt32) (data : ℕ → UInt8) (len : UInt32) : RttProg UInt32 := do
  act .init
  match ← oneromRttRing channel with
  | none => pure 0
  | some c =>
    let size ← act (.size c)
    let writeOffset ← clampWriteOffset c size
    if (← oneromRttAvail c size writeOffset) < len then pure 0
    else do
      store c size writeOffset data len
      pure len

def oneromRttPending (size writeOffset readOffset : UInt32) : UInt32 :=
  if writeOffset ≥ readOffset then writeOffset - readOffset else size - readOffset + writeOffset

/-- No more than the reader asked for. -/
def atMost (maxLen pending : UInt32) : UInt32 := if pending > maxLen then maxLen else pending

/-- The bytes copied out, and then the offset that frees their space. -/
def take (c : Channel) (size readOffset pending : UInt32) : RttProg (List UInt8) :=
  let toEnd := size - readOffset
  if toEnd > pending then do
    let bytes ← copyOut c readOffset.toNat pending.toNat
    act (.setReadOffset c (readOffset + pending))
    pure bytes
  else do
    let bytes ← copyOut c readOffset.toNat toEnd.toNat
    let bytes' ← copyOut c 0 (pending - toEnd).toNat
    act (.setReadOffset c (pending - toEnd))
    pure (bytes ++ bytes')

/-- The count returned, and the bytes stored at the destination. -/
def oneromRttRead (channel : UInt32) (dest : Bool) (maxLen : UInt32) :
    RttProg (UInt32 × List UInt8) := do
  act .init
  match ← oneromRttRing channel with
  | none => pure (0, [])
  | some c =>
    if dest = false then pure (0, [])
    else do
      let size ← act (.size c)
      let writeOffset := clamp size (← act (.writeOffset c))
      let readOffset := clamp size (← act (.readOffset c))
      let pending := atMost maxLen (oneromRttPending size writeOffset readOffset)
      if pending = 0 then pure (0, [])
      else do
        let bytes ← take c size readOffset pending
        pure (pending, bytes)

/-- The size, the free space and the pending count reported. -/
def oneromRttQuery (channel : UInt32) : RttProg (UInt32 × UInt32 × UInt32) := do
  act .init
  match ← oneromRttRing channel with
  | none => pure (0, 0, 0)
  | some c =>
    let size ← act (.size c)
    let writeOffset := clamp size (← act (.writeOffset c))
    let readOffset := clamp size (← act (.readOffset c))
    let pending := oneromRttPending size writeOffset readOffset
    pure (size, size - 1 - pending, pending)

/-! ### Offsets -/

section Offsets

variable {size r w n : UInt32}

lemma clamp_lt (h : 0 < size) (v : UInt32) : clamp size v < size := by
  unfold clamp
  split_ifs with hv
  · exact h
  · exact UInt32.not_le.mp hv

lemma clamp_of_lt (h : w < size) : clamp size w = w := if_neg (UInt32.not_le.mpr h)

lemma pending_toNat (hr : r < size) :
    (oneromRttPending size w r).toNat = span size.toNat r.toNat w.toNat := by
  unfold oneromRttPending span
  simp only [ge_iff_le, UInt32.le_iff_toNat_le, UInt32.lt_iff_toNat_lt] at hr ⊢
  have := size.toNat_lt
  have := w.toNat_lt
  split_ifs <;> simp only [UInt32.toNat_add, UInt32.toNat_sub] <;> omega

lemma atMost_toNat (m n : UInt32) : (atMost m n).toNat = min n.toNat m.toNat := by
  unfold atMost
  simp only [gt_iff_lt, UInt32.lt_iff_toNat_lt]
  split_ifs <;> omega

/-- The free space `onerom_rtt_avail` finds between two offsets. -/
def avail (size r w : UInt32) : UInt32 := if r ≤ w then size - 1 - w + r else r - w - 1

lemma avail_toNat (hr : r < size) (hw : w < size) :
    (avail size r w).toNat = size.toNat - 1 - span size.toNat r.toNat w.toNat := by
  unfold avail span
  simp only [UInt32.le_iff_toNat_le, UInt32.lt_iff_toNat_lt] at hr hw ⊢
  have := size.toNat_lt
  split_ifs <;> simp only [UInt32.toNat_add, UInt32.toNat_sub, UInt32.toNat_one] <;> omega

/-- The offset `n` places on, as a write and a read find it. -/
def advance (size w n : UInt32) : UInt32 := if size - w > n then w + n else n - (size - w)

lemma advance_toNat (hw : w < size) (hn : n < size) :
    (advance size w n).toNat = (w.toNat + n.toNat) % size.toNat := by
  simp only [UInt32.lt_iff_toNat_lt] at hw hn
  rw [add_mod_eq hw hn.le]
  unfold advance
  simp only [gt_iff_lt, UInt32.lt_iff_toNat_lt]
  have := size.toNat_lt
  split_ifs <;> simp only [UInt32.toNat_add, UInt32.toNat_sub] at * <;> omega

lemma advance_lt (hw : w < size) (hn : n < size) : advance size w n < size := by
  rw [UInt32.lt_iff_toNat_lt, advance_toNat hw hn]
  exact mod_lt_of (UInt32.lt_iff_toNat_lt.mp hw)

end Offsets

/-! ### Going round -/

lemma puts_append (c : Channel) (l l' : List (ℕ × UInt8)) :
    puts c (l ++ l') = puts c l >>= fun _ => puts c l' := by
  induction l with
  | nil => rfl
  | cons x l ih =>
    show (act _ >>= fun _ => puts c (l ++ l')) = _
    rw [ih]
    rfl

lemma gets_append (c : Channel) (l l' : List ℕ) :
    gets c (l ++ l') = gets c l >>= fun bs => gets c l' >>= fun bs' => pure (bs ++ bs') := by
  induction l with
  | nil => exact (Prog.bind_pure_ret _).symm
  | cons i l ih =>
    refine congrArg (Prog.access (Access.get c i)) (funext fun b => ?_)
    change gets c (l ++ l') >>= _ = gets c l >>= _ >>= _
    rw [ih]
    simp only [Prog.bind_assoc']
    rfl

/-- The places of a copy in two parts, up to the end of the buffer and from its start. -/
lemma range_split {β : Type} {size w n : ℕ} (hw : w < size) (hn : n ≤ size) (f : ℕ → ℕ → β) :
    (List.range n).map (fun i => f ((w + i) % size) i)
      = (List.range (min (size - w) n)).map (fun i => f (w + i) i)
        ++ (List.range (n - (size - w))).map fun i => f (0 + i) (size - w + i) := by
  have hsum : n = min (size - w) n + (n - (size - w)) := by omega
  conv_lhs => rw [hsum, List.range_add, List.map_append, List.map_map]
  refine congrArg₂ _ (List.map_congr_left fun i hi => ?_) (List.map_congr_left fun i hi => ?_)
  · rw [Nat.mod_eq_of_lt (by have := List.mem_range.mp hi; omega)]
  · have hi := List.mem_range.mp hi
    have hmin : min (size - w) n = size - w := by omega
    simp only [Function.comp_apply, hmin]
    rw [show w + (size - w + i) = size + i by omega, Nat.add_mod_left, Nat.mod_eq_of_lt (by omega),
      Nat.zero_add]

section Copies

variable {c : Channel} {size w n : UInt32}

lemma store_eq (data : ℕ → UInt8) (hw : w < size) (hn : n < size) :
    store c size w data n
      = puts c ((List.range n.toNat).map fun i => ((w.toNat + i) % size.toNat, data i)) >>= fun _ =>
        act (.setWriteOffset c (advance size w n)) := by
  have hsub : (size - w).toNat = size.toNat - w.toNat := UInt32.toNat_sub_of_le _ _ (UInt32.le_of_lt hw)
  have hlt := UInt32.lt_iff_toNat_lt.mp hw
  rw [range_split hlt (UInt32.lt_iff_toNat_lt.mp hn).le fun p i => (p, data i)]
  unfold store advance copyIn
  by_cases h : size - w > n
  · have h' := UInt32.lt_iff_toNat_lt.mp h
    rw [if_pos h, if_pos h, show min (size.toNat - w.toNat) n.toNat = n.toNat by omega,
      show n.toNat - (size.toNat - w.toNat) = 0 by omega]
    simp
  · have h' := UInt32.le_iff_toNat_le.mp (UInt32.not_lt.mp h)
    rw [if_neg h, if_neg h, puts_append, Prog.bind_assoc', UInt32.toNat_sub_of_le _ _
      (UInt32.not_lt.mp h), hsub, show min (size.toNat - w.toNat) n.toNat = size.toNat - w.toNat by
        omega]
    simp

lemma take_eq (hw : w < size) (hn : n < size) :
    take c size w n
      = gets c ((List.range n.toNat).map fun i => (w.toNat + i) % size.toNat) >>= fun bytes =>
        act (.setReadOffset c (advance size w n)) >>= fun _ => pure bytes := by
  have hsub : (size - w).toNat = size.toNat - w.toNat := UInt32.toNat_sub_of_le _ _ (UInt32.le_of_lt hw)
  have hlt := UInt32.lt_iff_toNat_lt.mp hw
  rw [range_split hlt (UInt32.lt_iff_toNat_lt.mp hn).le fun p _ => p]
  unfold take advance copyOut
  by_cases h : size - w > n
  · have h' := UInt32.lt_iff_toNat_lt.mp h
    rw [if_pos h, if_pos h, show min (size.toNat - w.toNat) n.toNat = n.toNat by omega,
      show n.toNat - (size.toNat - w.toNat) = 0 by omega]
    simp
  · have h' := UInt32.le_iff_toNat_le.mp (UInt32.not_lt.mp h)
    rw [if_neg h, if_neg h, gets_append, Prog.bind_assoc', UInt32.toNat_sub_of_le _ _
      (UInt32.not_lt.mp h), hsub, show min (size.toNat - w.toNat) n.toNat = size.toNat - w.toNat by
        omega]
    simp only [Prog.bind_assoc']
    rfl

end Copies

/-! ### What a run of each does -/

/-- A control block that is set up. -/
structure Ready (cb : ControlBlock) : Prop where
  id : cb.id = true
  buffer : ∀ c, (cb.ring c).buffer = true
  size : ∀ c, (cb.ring c).size = bufferSize c

/-- A control block that is set up once its identifier is written. -/
def Formed (cb : ControlBlock) : Prop := cb.id = true → Ready cb

lemma bufferSize_ne (c : Channel) : bufferSize c ≠ 0 := by cases c <;> decide

lemma bufferSize_pos (c : Channel) : 0 < bufferSize c := by cases c <;> decide

lemma Formed.init {cb : ControlBlock} (h : Formed cb) : Ready (access .init cb).2 := by
  change Ready (if cb.id then cb else _)
  split_ifs with hid
  · exact h hid
  · exact ⟨rfl, fun _ => rfl, fun _ => rfl⟩

lemma Ready.setRing {cb : ControlBlock} (h : Ready cb) {c : Channel} {r : Ring}
    (hb : r.buffer = (cb.ring c).buffer) (hs : r.size = (cb.ring c).size) :
    Ready (cb.setRing c r) := by
  refine ⟨h.id, fun d => ?_, fun d => ?_⟩
  · by_cases hd : d = c
    · subst hd
      simp [ControlBlock.setRing, hb, h.buffer]
    · simp [ControlBlock.setRing, hd, h.buffer]
  · by_cases hd : d = c
    · subst hd
      simp [ControlBlock.setRing, hs, h.size]
    · simp [ControlBlock.setRing, hd, h.size]

lemma Ready.access {cb : ControlBlock} (h : Ready cb) (a : Access) :
    Ready (Rtt.access a cb).2 := by
  cases a with
  | init => exact Formed.init fun _ => h
  | setWriteOffset c v => exact h.setRing rfl rfl
  | setReadOffset c v => exact h.setRing rfl rfl
  | put c i b => exact ⟨h.id, h.buffer, h.size⟩
  | _ => exact h

lemma Formed.access {cb : ControlBlock} (h : Formed cb) (a : Access) :
    Formed (Rtt.access a cb).2 := by
  intro hid
  cases a with
  | init => exact h.init
  | _ => exact (h hid).access _

/-- The control block, and what is carried beside it. -/
abbrev World (γ : Type) := ControlBlock × γ

/-- Whether a block is set up, and how, has not changed. -/
structure SameShape (cb cb' : ControlBlock) : Prop where
  id : cb'.id = cb.id
  buffer : ∀ c, (cb'.ring c).buffer = (cb.ring c).buffer
  size : ∀ c, (cb'.ring c).size = (cb.ring c).size

lemma SameShape.ready {cb cb' : ControlBlock} (h : SameShape cb cb') (hr : Ready cb) : Ready cb' :=
  ⟨h.id.trans hr.id, fun c => (h.buffer c).trans (hr.buffer c), fun c =>
    (h.size c).trans (hr.size c)⟩

lemma SameShape.formed {cb cb' : ControlBlock} (h : SameShape cb cb') (hf : Formed cb) :
    Formed cb' := fun hid => h.ready (hf (h.id.symm.trans hid))

/-- What a call begins with: it sets the block up, and finds the ring and its size. -/
def Access.Enters : Access → Prop
  | .init | .buffer _ | .size _ => True
  | _ => False

section Runs

variable {γ : Type} {env : Access → World γ → World γ → Prop}
variable {s t : World γ} {tr : List (Event Access Access.Res (World γ))}

/-- The ring of a channel number, once the control block is set up. -/
def ringOf (channel : UInt32) : Option Channel :=
  if channel = 0 then some .up else if channel = 1 then some .down else none

/-- The part of a run that only enters. -/
def Entered (env : Access → World γ → World γ → Prop) (s : World γ)
    (tr : List (Event Access Access.Res (World γ))) (t : World γ) : Prop :=
  ∃ (α : Type) (p : RttProg α) (x : α), p.Only Access.Enters ∧ Exec (beside access) env p s tr x t

lemma populated_only (c : Channel) : (oneromRttRing.populated c).Only Access.Enters := by
  refine ⟨trivial, fun b => ?_⟩
  change Prog.Only _ (if b = false then _ else _)
  split_ifs
  · trivial
  · refine ⟨trivial, fun n => ?_⟩
    change Prog.Only _ (if n = 0 then _ else _)
    split_ifs <;> trivial

lemma ring_only (channel : UInt32) : (oneromRttRing channel).Only Access.Enters := by
  unfold oneromRttRing
  split_ifs
  · exact populated_only .up
  · exact populated_only .down
  · trivial

variable (henv : ∀ a s t, env a s t → SameShape s.1 t.1)

include henv in
lemma populated_exec {c : Channel} {o : Option Channel} (hs : Ready s.1)
    (h : Exec (beside access) env (oneromRttRing.populated c) s tr o t) :
    o = some c ∧ Ready t.1 := by
  have hkeep := fun a s t (hst : env a s t) => (henv a s t hst).ready
  obtain ⟨s₁, _, h₁, h, -⟩ := h.act_inv
  have hs₁ : Ready s₁.1 := steps_keep (hkeep _) h₁ hs
  rw [show (beside access (.buffer c) s₁).1 = true from hs₁.buffer c, if_neg (by simp)] at h
  obtain ⟨s₂, _, h₂, h, -⟩ := h.act_inv
  have hs₂ : Ready s₂.1 := steps_keep (hkeep _) h₂ hs₁
  rw [show (beside access (.size c) s₂).1 = bufferSize c from hs₂.size c,
    if_neg (bufferSize_ne c)] at h
  obtain ⟨-, ho, rfl⟩ := h.ret_inv
  exact ⟨ho, hs₂⟩

include henv in
lemma ring_exec {channel : UInt32} {o : Option Channel} (hs : Ready s.1)
    (h : Exec (beside access) env (oneromRttRing channel) s tr o t) :
    o = ringOf channel ∧ Ready t.1 := by
  unfold oneromRttRing at h
  unfold ringOf
  split_ifs at h ⊢
  · exact populated_exec henv hs h
  · exact populated_exec henv hs h
  · obtain ⟨-, ho, rfl⟩ := h.ret_inv
    exact ⟨ho, hs⟩

/-- Every call first sets the control block up and finds its ring. -/
lemma enter_inv {α : Type} {channel : UInt32} {f : Option Channel → RttProg α} {x : α}
    (henv : ∀ a s t, env a s t → SameShape s.1 t.1) (hs : Formed s.1)
    (h : Exec (beside access) env (act .init >>= fun _ => oneromRttRing channel >>= f) s tr x t) :
    ∃ tr₁ u tr₂, Entered env s tr₁ u ∧ Ready u.1 ∧
      Exec (beside access) env (f (ringOf channel)) u tr₂ x t ∧ tr = tr₁ ++ tr₂ := by
  obtain ⟨s₁, tr', h₁, hrest, rfl⟩ := h.act_inv
  have hs₁ : Ready (access .init s₁.1).2 :=
    Formed.init (steps_keep (fun s t hst => (henv _ s t hst).formed) h₁ hs)
  obtain ⟨tr₁, o, u, tr₂, hring, hf, rfl⟩ := hrest.bind_inv
  obtain ⟨rfl, hu⟩ := ring_exec henv hs₁ hring
  have hent : Entered env s (_ :: tr₁) u :=
    ⟨_, .access .init fun _ => oneromRttRing channel, _, ⟨trivial, fun _ => ring_only channel⟩,
      .access h₁ hring⟩
  exact ⟨_, u, tr₂, hent, hu, hf, rfl⟩

/-- A call that found its ring loads its size. -/
lemma size_inv {α : Type} {c : Channel} {f : UInt32 → RttProg α} {x : α} {u : World γ}
    {tr₁ : List (Event Access Access.Res (World γ))}
    (henv : ∀ a s t, env a s t → SameShape s.1 t.1) (hent : Entered env s tr₁ u) (hu : Ready u.1)
    (h : Exec (beside access) env (act (.size c) >>= f) u tr x t) :
    ∃ tr₂ v tr₃, Entered env s tr₂ v ∧ Ready v.1 ∧
      Exec (beside access) env (f (bufferSize c)) v tr₃ x t ∧ tr₁ ++ tr = tr₂ ++ tr₃ := by
  obtain ⟨v, tr', h₁, hf, rfl⟩ := h.act_inv
  have hv : Ready v.1 := steps_keep (fun s t hst => (henv _ s t hst).ready) h₁ hu
  rw [show (beside access (.size c) v).1 = bufferSize c from hv.size c] at hf
  obtain ⟨β, p, y, honly, hp⟩ := hent
  have hent : Entered env s (tr₁ ++ _) v :=
    ⟨_, p >>= fun _ => act (.size c), _, honly.bind fun _ => ⟨trivial, fun _ => trivial⟩,
      hp.bind (.access h₁ (.ret _ _))⟩
  refine ⟨_, v, tr', hent, hv, hf, ?_⟩
  simp

end Runs

section Inversion

variable {γ : Type} {env : Access → World γ → World γ → Prop}
variable {s t : World γ} {tr : List (Event Access Access.Res (World γ))}
variable {c : Channel} {size : UInt32}

lemma puts_inv {l : List (ℕ × UInt8)} {x : Unit}
    (h : Exec (beside access) env (puts c l) s tr x t) :
    tr.map Event.act = l.map fun p => .put c p.1 p.2 := by
  induction l generalizing s tr with
  | nil =>
    obtain ⟨rfl, -⟩ := h.ret_inv
    rfl
  | cons p l ih =>
    obtain ⟨_, _, -, h', rfl⟩ := h.act_inv
    exact congrArg _ (ih h')

lemma gets_inv {l : List ℕ} {bytes : List UInt8}
    (h : Exec (beside access) env (gets c l) s tr bytes t) :
    tr.map Event.act = l.map (.get c ·) ∧ bytes.length = l.length := by
  induction l generalizing s t tr bytes with
  | nil =>
    obtain ⟨rfl, rfl, -⟩ := h.ret_inv
    exact ⟨rfl, rfl⟩
  | cons i l ih =>
    obtain ⟨_, _, -, h', rfl⟩ := h.act_inv
    obtain ⟨tr₁, bs, _, tr₂, h₁, h₂, rfl⟩ := h'.bind_inv
    obtain ⟨rfl, rfl, -⟩ := h₂.ret_inv
    obtain ⟨hacts, hlen⟩ := ih h₁
    exact ⟨by simp [hacts], by simp [hlen]⟩

/-- A write samples its own offset, and puts one that is not in the buffer back to the start. -/
lemma clampWriteOffset_inv {w : UInt32}
    (h : Exec (beside access) env (clampWriteOffset c size) s tr w t) :
    ∃ s₁, ReflTransGen (env (.writeOffset c)) s s₁ ∧ w = clamp size (s₁.1.ring c).writeOffset ∧
      ∃ tr', tr = ⟨.writeOffset c, (s₁.1.ring c).writeOffset, s₁⟩ :: tr' ∧
        (((s₁.1.ring c).writeOffset < size ∧ t = s₁ ∧ tr' = []) ∨
          ∃ s₂, ReflTransGen (env (.setWriteOffset c 0)) s₁ s₂ ∧ size ≤ (s₁.1.ring c).writeOffset ∧
            t = (s₂.1.setWriteOffset c 0, s₂.2) ∧ tr' = [⟨.setWriteOffset c 0, (), s₂⟩]) := by
  obtain ⟨s₁, tr', h₁, hrest, rfl⟩ := h.act_inv
  change Exec _ _ (if (s₁.1.ring c).writeOffset ≥ size then _ else _) s₁ tr' w t at hrest
  refine ⟨s₁, h₁, ?_⟩
  unfold clamp
  split_ifs at hrest ⊢ with hge
  · obtain ⟨s₂, _, h₂, hret, rfl⟩ := hrest.act_inv
    obtain ⟨rfl, rfl, rfl⟩ := hret.ret_inv
    exact ⟨rfl, _, rfl, Or.inr ⟨s₂, h₂, hge, rfl, rfl⟩⟩
  · obtain ⟨rfl, rfl, rfl⟩ := hrest.ret_inv
    exact ⟨rfl, [], rfl, Or.inl ⟨UInt32.not_le.mp hge, rfl, rfl⟩⟩

lemma avail_inv {w free : UInt32}
    (h : Exec (beside access) env (oneromRttAvail c size w) s tr free t) :
    ReflTransGen (env (.readOffset c)) s t ∧ tr = [⟨.readOffset c, (t.1.ring c).readOffset, t⟩] ∧
      free = avail size (clamp size (t.1.ring c).readOffset) w := by
  obtain ⟨s₁, tr', h₁, hrest, rfl⟩ := h.act_inv
  unfold avail
  change Exec _ _ (if clamp size (s₁.1.ring c).readOffset ≤ w then _ else _) s₁ tr' free t at hrest
  split_ifs at hrest with hle
  · obtain ⟨rfl, rfl, rfl⟩ := hrest.ret_inv
    exact ⟨h₁, rfl, (if_pos hle).symm⟩
  · obtain ⟨rfl, rfl, rfl⟩ := hrest.ret_inv
    exact ⟨h₁, rfl, (if_neg hle).symm⟩

/-- The bytes of a record go round from `w`, and then the offset past them is stored. -/
lemma store_inv {data : ℕ → UInt8} {w n : UInt32} {x : Unit} (hw : w < size) (hn : n < size)
    (h : Exec (beside access) env (store c size w data n) s tr x t) :
    ∃ tr₁ s₁ s₂, Exec (beside access) env
        (puts c ((List.range n.toNat).map fun i => ((w.toNat + i) % size.toNat, data i)))
        s tr₁ () s₁ ∧
      ReflTransGen (env (.setWriteOffset c (advance size w n))) s₁ s₂ ∧
      t = (s₂.1.setWriteOffset c (advance size w n), s₂.2) ∧
      tr = tr₁ ++ [⟨.setWriteOffset c (advance size w n), (), s₂⟩] := by
  rw [store_eq data hw hn] at h
  obtain ⟨tr₁, _, s₁, tr₂, hput, hset, rfl⟩ := h.bind_inv
  obtain ⟨s₂, tr₃, h₂, rfl, hret⟩ := hset.access_inv
  obtain ⟨rfl, _, rfl⟩ := hret.ret_inv
  exact ⟨tr₁, s₁, s₂, hput, h₂, rfl, rfl⟩

lemma take_inv {r n : UInt32} {bytes : List UInt8} (hr : r < size) (hn : n < size)
    (h : Exec (beside access) env (take c size r n) s tr bytes t) :
    ∃ tr₁ s₁ s₂, Exec (beside access) env
        (gets c ((List.range n.toNat).map fun i => (r.toNat + i) % size.toNat)) s tr₁ bytes s₁ ∧
      ReflTransGen (env (.setReadOffset c (advance size r n))) s₁ s₂ ∧
      t = (s₂.1.setReadOffset c (advance size r n), s₂.2) ∧
      tr = tr₁ ++ [⟨.setReadOffset c (advance size r n), (), s₂⟩] := by
  rw [take_eq hr hn] at h
  obtain ⟨tr₁, bs, s₁, tr₂, hget, hset, rfl⟩ := h.bind_inv
  obtain ⟨s₂, tr₃, h₂, hret, rfl⟩ := hset.act_inv
  obtain ⟨rfl, rfl, rfl⟩ := hret.ret_inv
  exact ⟨tr₁, s₁, s₂, hget, h₂, rfl, rfl⟩

variable {channel : UInt32}
variable (henv : ∀ a s t, env a s t → SameShape s.1 t.1) (hs : Formed s.1)

include henv hs in
/-- A write that found its ring samples its own offset, then the reader's, and the record goes in
if the space between the samples holds it. -/
lemma write_inv {data : ℕ → UInt8} {len n : UInt32}
    (h : Exec (beside access) env (oneromRttWrite channel data len) s tr n t) :
    (ringOf channel = none ∧ n = 0 ∧ Entered env s tr t) ∨
    ∃ c tr₀ u tr₁ w v s₂ tr₂, ringOf channel = some c ∧ Entered env s tr₀ u ∧ Ready u.1 ∧
      Exec (beside access) env (clampWriteOffset c (bufferSize c)) u tr₁ w v ∧
      ReflTransGen (env (.readOffset c)) v s₂ ∧
      tr = tr₀ ++ (tr₁ ++ ⟨.readOffset c, (s₂.1.ring c).readOffset, s₂⟩ :: tr₂) ∧
      ((avail (bufferSize c) (clamp (bufferSize c) (s₂.1.ring c).readOffset) w < len ∧ n = 0 ∧
          tr₂ = [] ∧ t = s₂) ∨
        (len ≤ avail (bufferSize c) (clamp (bufferSize c) (s₂.1.ring c).readOffset) w ∧ n = len ∧
          Exec (beside access) env (store c (bufferSize c) w data len) s₂ tr₂ () t)) := by
  obtain ⟨tr₁, u, tr₂, hent, hu, hrest, rfl⟩ := enter_inv henv hs h
  cases hc : ringOf channel with
  | none =>
    rw [hc] at hrest
    obtain ⟨rfl, rfl, rfl⟩ := hrest.ret_inv
    exact Or.inl ⟨rfl, rfl, by simpa using hent⟩
  | some c =>
    rw [hc] at hrest
    obtain ⟨tr₃, v, tr₄, hent', hv, hwrite, htr⟩ := size_inv henv hent hu hrest
    obtain ⟨tr₅, w, x, tr₆, hw, havail, rfl⟩ := hwrite.bind_inv
    obtain ⟨tr₇, free, s₂, tr₈, hfree, hend, rfl⟩ := havail.bind_inv
    obtain ⟨hr, rfl, rfl⟩ := avail_inv hfree
    refine Or.inr ⟨c, tr₃, v, tr₅, w, x, s₂, tr₈, rfl, hent', hv, hw, hr, htr, ?_⟩
    split_ifs at hend with hfull
    · obtain ⟨rfl, rfl, rfl⟩ := hend.ret_inv
      exact Or.inl ⟨hfull, rfl, rfl, rfl⟩
    · obtain ⟨tr₉, _, y, _, hstore, hret, rfl⟩ := hend.bind_inv
      obtain ⟨rfl, rfl, rfl⟩ := hret.ret_inv
      exact Or.inr ⟨UInt32.not_lt.mp hfull, rfl, by simpa using hstore⟩

include henv hs in
/-- A read that found its ring samples both offsets, and takes what the samples hold. -/
lemma read_inv {dest : Bool} {maxLen : UInt32} {x : UInt32 × List UInt8}
    (h : Exec (beside access) env (oneromRttRead channel dest maxLen) s tr x t) :
    ((ringOf channel = none ∨ dest = false) ∧ x = (0, []) ∧ Entered env s tr t) ∨
    ∃ c tr₀ u v s₂ tr₂ n, ringOf channel = some c ∧ Entered env s tr₀ u ∧ Ready u.1 ∧
      ReflTransGen (env (.writeOffset c)) u v ∧ ReflTransGen (env (.readOffset c)) v s₂ ∧
      tr = tr₀ ++ ⟨.writeOffset c, (v.1.ring c).writeOffset, v⟩
        :: ⟨.readOffset c, (s₂.1.ring c).readOffset, s₂⟩ :: tr₂ ∧
      n = atMost maxLen (oneromRttPending (bufferSize c)
        (clamp (bufferSize c) (v.1.ring c).writeOffset)
        (clamp (bufferSize c) (s₂.1.ring c).readOffset)) ∧ x.1 = n ∧
      ((n = 0 ∧ x.2 = [] ∧ tr₂ = [] ∧ t = s₂) ∨
        (n ≠ 0 ∧ Exec (beside access) env (take c (bufferSize c)
          (clamp (bufferSize c) (s₂.1.ring c).readOffset) n) s₂ tr₂ x.2 t)) := by
  obtain ⟨tr₁, u, tr₂, hent, hu, hrest, rfl⟩ := enter_inv henv hs h
  cases hc : ringOf channel with
  | none =>
    rw [hc] at hrest
    obtain ⟨rfl, rfl, rfl⟩ := hrest.ret_inv
    exact Or.inl ⟨Or.inl rfl, rfl, by simpa using hent⟩
  | some c =>
    rw [hc] at hrest
    cases dest with
    | false =>
      obtain ⟨rfl, rfl, rfl⟩ := hrest.ret_inv
      exact Or.inl ⟨Or.inr rfl, rfl, by simpa using hent⟩
    | true =>
      obtain ⟨tr₃, v, tr₄, hent', hv, hread, htr⟩ := size_inv henv hent hu hrest
      obtain ⟨s₁, tr₅, h₁, hsample, rfl⟩ := hread.act_inv
      obtain ⟨s₂, tr₆, h₂, hend, rfl⟩ := hsample.act_inv
      refine Or.inr ⟨c, tr₃, v, s₁, s₂, tr₆, _, rfl, hent', hv, h₁, h₂, htr, rfl, ?_⟩
      dsimp only at hend
      split_ifs at hend with hz
      · obtain ⟨rfl, rfl, rfl⟩ := hend.ret_inv
        exact ⟨hz.symm, Or.inl ⟨hz, rfl, rfl, rfl⟩⟩
      · obtain ⟨tr₇, bytes, y, _, htake, hret, rfl⟩ := hend.bind_inv
        obtain ⟨rfl, rfl, rfl⟩ := hret.ret_inv
        rw [List.append_nil]
        exact ⟨rfl, Or.inr ⟨hz, htake⟩⟩

include henv hs in
/-- A query that found its ring samples both offsets, and reports what the samples hold. -/
lemma query_inv {x : UInt32 × UInt32 × UInt32}
    (h : Exec (beside access) env (oneromRttQuery channel) s tr x t) :
    (ringOf channel = none ∧ x = (0, 0, 0) ∧ Entered env s tr t) ∨
    ∃ c tr₀ u v n, ringOf channel = some c ∧ Entered env s tr₀ u ∧ Ready u.1 ∧
      ReflTransGen (env (.writeOffset c)) u v ∧ ReflTransGen (env (.readOffset c)) v t ∧
      tr = tr₀ ++ [⟨.writeOffset c, (v.1.ring c).writeOffset, v⟩,
        ⟨.readOffset c, (t.1.ring c).readOffset, t⟩] ∧
      n = oneromRttPending (bufferSize c) (clamp (bufferSize c) (v.1.ring c).writeOffset)
        (clamp (bufferSize c) (t.1.ring c).readOffset) ∧
      x = (bufferSize c, bufferSize c - 1 - n, n) := by
  obtain ⟨tr₁, u, tr₂, hent, hu, hrest, rfl⟩ := enter_inv henv hs h
  cases hc : ringOf channel with
  | none =>
    rw [hc] at hrest
    obtain ⟨rfl, rfl, rfl⟩ := hrest.ret_inv
    exact Or.inl ⟨rfl, rfl, by simpa using hent⟩
  | some c =>
    rw [hc] at hrest
    obtain ⟨tr₃, v, tr₄, hent', hv, hquery, htr⟩ := size_inv henv hent hu hrest
    obtain ⟨s₁, tr₅, h₁, hsample, rfl⟩ := hquery.act_inv
    obtain ⟨s₂, tr₆, h₂, hret, rfl⟩ := hsample.act_inv
    obtain ⟨rfl, rfl, rfl⟩ := hret.ret_inv
    exact Or.inr ⟨c, tr₃, v, s₁, _, rfl, hent', hv, h₁, h₂, htr, rfl, rfl⟩

end Inversion

/-! ### Runs of calls -/

inductive Call
  | write (channel : UInt32) (data : ℕ → UInt8) (len : UInt32)
  | read (channel : UInt32) (dest : Bool) (maxLen : UInt32)
  | query (channel : UInt32)

inductive Answer
  | wrote (n : UInt32)
  | took (n : UInt32) (bytes : List UInt8)
  | reported (size free pending : UInt32)

def Call.prog : Call → RttProg Answer
  | .write channel data len => do
    let n ← oneromRttWrite channel data len
    pure (.wrote n)
  | .read channel dest maxLen => do
    let (n, bytes) ← oneromRttRead channel dest maxLen
    pure (.took n bytes)
  | .query channel => do
    let (size, free, pending) ← oneromRttQuery channel
    pure (.reported size free pending)

/-- A call that was made, with every access it made. -/
structure Made (γ : Type) where
  call : Call
  trace : List (Event Access Access.Res (World γ))
  answer : Answer

/-- A run of calls. The host steps between them, and before any access within them; what a call
answered is noted in what is carried along. -/
inductive Calls {γ : Type} (env : Access → World γ → World γ → Prop)
    (host : World γ → World γ → Prop) (note : Call → Answer → γ → γ) :
    World γ → List (Made γ) → World γ → Prop
  | done (s : World γ) : Calls env host note s [] s
  | host {s t u : World γ} {ms : List (Made γ)} (hst : host s t)
      (h : Calls env host note t ms u) : Calls env host note s ms u
  | call {c : Call} {s t u : World γ} {tr : List (Event Access Access.Res (World γ))}
      {x : Answer} {ms : List (Made γ)} (hc : Exec (beside access) env c.prog s tr x t)
      (h : Calls env host note (t.1, note c x t.2) ms u) :
      Calls env host note s (⟨c, tr, x⟩ :: ms) u

end OneRom.Rtt
