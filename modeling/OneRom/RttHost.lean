import OneRom.Rtt

/-!
What a debug host can do to the firmware by moving the offsets of a ring: nothing outside the
ring's buffer, whatever it stores and whenever.
-/

namespace OneRom.RttHost

open Shared Circular Rtt Relation

variable {γ : Type}

/-- The host stores any values in the offsets of a ring. -/
def HostStores (s t : World γ) : Prop :=
  ∃ c w r, t = ((s.1.setWriteOffset c w).setReadOffset c r, s.2)

/-- The place in a buffer an access goes to. -/
def index : Access → Option (Channel × ℕ)
  | .put c i _ | .get c i => some (c, i)
  | _ => none

/-- The offset an access stores. -/
def stored : Access → Option (Channel × UInt32)
  | .setWriteOffset c v | .setReadOffset c v => some (c, v)
  | _ => none

/-- The writer's offset, where an access sampled it. -/
def writeSample : Event Access Access.Res (World γ) → Option (Channel × UInt32)
  | ⟨.writeOffset c, v, _⟩ => some (c, v)
  | _ => none

/-- The reader's offset, where an access sampled it. -/
def readSample : Event Access Access.Res (World γ) → Option (Channel × UInt32)
  | ⟨.readOffset c, v, _⟩ => some (c, v)
  | _ => none

/-- The most bytes a call may copy. -/
def limit : Call → ℕ
  | .write _ _ len => len.toNat
  | .read _ _ maxLen => maxLen.toNat
  | .query _ => 0

/-- A call sampled the offsets `w` and `r` of a ring. -/
def Sampled (m : Made γ) (c : Channel) (w r : UInt32) : Prop :=
  (∃ e ∈ m.trace, writeSample e = some (c, w)) ∧ ∃ e ∈ m.trace, readSample e = some (c, r)

/-- A call that stays where it belongs. -/
structure Contained (m : Made γ) : Prop where
  inside : ∀ e ∈ m.trace, ∀ c i, index e.act = some (c, i) → i < (bufferSize c).toNat
  bounded : (m.trace.filter fun e => (index e.act).isSome).length ≤ limit m.call
  offsets : ∀ e ∈ m.trace, ∀ c v, stored e.act = some (c, v) → v < bufferSize c
  /-- What is stored in a buffer is stored after both offsets were sampled, -/
  sampled : ∀ e ∈ m.trace, ∀ c i b, e.act = .put c i b → ∃ w r, Sampled m c w r
  /-- and nothing from the reader's place up to the writer's is overwritten. -/
  kept : ∀ e ∈ m.trace, ∀ c i b, e.act = .put c i b → ∀ w r, Sampled m c w r →
    ¬ Within (bufferSize c).toNat (clamp (bufferSize c) r).toNat (clamp (bufferSize c) w).toNat i

/-! ### Quiet accesses -/

/-- An event that touches no buffer, stores no offset and samples none. -/
structure Quiet (e : Event Access Access.Res (World γ)) : Prop where
  index : index e.act = none
  stored : stored e.act = none
  writeSample : writeSample e = none
  readSample : readSample e = none

lemma quiet_of_enters {e : Event Access Access.Res (World γ)} (h : e.act.Enters) : Quiet e := by
  obtain ⟨a, r, s⟩ := e
  cases a <;> first | exact h.elim | exact ⟨rfl, rfl, rfl, rfl⟩

variable {env : Access → World γ → World γ → Prop} {s t : World γ}
variable {tr : List (Event Access Access.Res (World γ))}

lemma quiet_of_entered (h : Entered env s tr t) : ∀ e ∈ tr, Quiet e := by
  obtain ⟨α, p, x, honly, hp⟩ := h
  exact fun e he => quiet_of_enters (hp.acts honly e he)

lemma filter_quiet (h : ∀ e ∈ tr, Quiet e) :
    tr.filter (fun e => (index e.act).isSome) = [] := by
  rw [List.filter_eq_nil_iff]
  intro e he
  simp [(h e he).index]

/-- An event of a call that stores nothing in a buffer. -/
structure Takes (e : Event Access Access.Res (World γ)) : Prop where
  inside : ∀ c i, index e.act = some (c, i) → i < (bufferSize c).toNat
  offset : ∀ c v, RttHost.stored e.act = some (c, v) → v < bufferSize c
  noPut : ∀ c i b, e.act ≠ .put c i b

lemma Quiet.takes {e : Event Access Access.Res (World γ)} (h : Quiet e) : Takes e where
  inside c i hi := by
    rw [h.index] at hi
    cases hi
  offset c v hv := by
    rw [h.stored] at hv
    cases hv
  noPut c i b hput := by
    have := h.index
    rw [hput] at this
    cases this

lemma contained_of_takes {m : Made γ} (h : ∀ e ∈ m.trace, Takes e)
    (hcount : (m.trace.filter fun e => (index e.act).isSome).length ≤ limit m.call) :
    Contained m where
  inside e he := (h e he).inside
  bounded := hcount
  offsets e he := (h e he).offset
  sampled e he c i b hput := ((h e he).noPut c i b hput).elim
  kept e he c i b hput := ((h e he).noPut c i b hput).elim

lemma contained_of_quiet {m : Made γ} (h : ∀ e ∈ m.trace, Quiet e) : Contained m :=
  contained_of_takes (fun e he => (h e he).takes) (by simp [filter_quiet h])

/-! ### Copies -/

section Copies

variable {c : Channel} {size w n : UInt32}

lemma copies_of_acts {l : List Access} (h : tr.map Event.act = l) :
    (tr.filter fun e => (index e.act).isSome).length
      = (l.filter fun a => (index a).isSome).length := by
  subst h
  rw [List.filter_map, List.length_map]
  rfl

lemma store_acts {data : ℕ → UInt8} {x : Unit} (hw : w < size) (hn : n < size)
    (h : Exec (beside access) env (store c size w data n) s tr x t) :
    tr.map Event.act
      = (List.range n.toNat).map (fun i => .put c ((w.toNat + i) % size.toNat) (data i))
        ++ [.setWriteOffset c (advance size w n)] := by
  obtain ⟨tr₁, s₁, s₂, hput, -, -, rfl⟩ := store_inv hw hn h
  rw [List.map_append, puts_inv hput, List.map_map]
  rfl

lemma take_acts {bytes : List UInt8} (hw : w < size) (hn : n < size)
    (h : Exec (beside access) env (take c size w n) s tr bytes t) :
    tr.map Event.act
      = (List.range n.toNat).map (fun i => .get c ((w.toNat + i) % size.toNat))
        ++ [.setReadOffset c (advance size w n)] := by
  obtain ⟨tr₁, s₁, s₂, hget, -, -, rfl⟩ := take_inv hw hn h
  rw [List.map_append, (gets_inv hget).1, List.map_map]
  rfl

end Copies

/-! ### Writes -/

section Writes

variable {c : Channel} {w₀ r₀ : UInt32}

/-- The events of a write that sampled `w₀` and `r₀`. -/
inductive WriteEvent (c : Channel) (w₀ r₀ : UInt32) :
    Event Access Access.Res (World γ) → Prop
  | quiet {e : Event Access Access.Res (World γ)} (h : Quiet e) : WriteEvent c w₀ r₀ e
  | writeSample (u : World γ) : WriteEvent c w₀ r₀ ⟨.writeOffset c, w₀, u⟩
  | readSample (u : World γ) : WriteEvent c w₀ r₀ ⟨.readOffset c, r₀, u⟩
  | store (v : UInt32) (u : World γ) (h : v < bufferSize c) :
      WriteEvent c w₀ r₀ ⟨.setWriteOffset c v, (), u⟩
  | put (i : ℕ) (b : UInt8) (u : World γ) (h : span (bufferSize c).toNat (clamp (bufferSize c) r₀).toNat
        (clamp (bufferSize c) w₀).toNat + i < (bufferSize c).toNat) :
      WriteEvent c w₀ r₀
        ⟨.put c (((clamp (bufferSize c) w₀).toNat + i) % (bufferSize c).toNat) b, (), u⟩

namespace WriteEvent

variable {e : Event Access Access.Res (World γ)} (h : WriteEvent c w₀ r₀ e)

include h

lemma index_eq {d : Channel} {i : ℕ} (hi : index e.act = some (d, i)) :
    d = c ∧ ∃ k, span (bufferSize c).toNat (clamp (bufferSize c) r₀).toNat
        (clamp (bufferSize c) w₀).toNat + k < (bufferSize c).toNat ∧
      i = ((clamp (bufferSize c) w₀).toNat + k) % (bufferSize c).toNat := by
  cases h with
  | quiet hq =>
    rw [hq.index] at hi
    cases hi
  | put k b s hk =>
    cases hi
    exact ⟨rfl, k, hk, rfl⟩
  | _ => cases hi

lemma stored_lt {d : Channel} {v : UInt32} (hv : stored e.act = some (d, v)) :
    v < bufferSize d := by
  cases h with
  | quiet hq =>
    rw [hq.stored] at hv
    cases hv
  | store v s hlt =>
    cases hv
    exact hlt
  | _ => cases hv

lemma writeSample_eq {d : Channel} {w : UInt32} (hw : RttHost.writeSample e = some (d, w)) :
    w = w₀ := by
  cases h with
  | quiet hq =>
    rw [hq.writeSample] at hw
    cases hw
  | writeSample s =>
    cases hw
    rfl
  | _ => cases hw

lemma readSample_eq {d : Channel} {r : UInt32} (hr : RttHost.readSample e = some (d, r)) :
    r = r₀ := by
  cases h with
  | quiet hq =>
    rw [hq.readSample] at hr
    cases hr
  | readSample s =>
    cases hr
    rfl
  | _ => cases hr

end WriteEvent

/-- A call is contained if its events are those of a write and it copies no more than it may. -/
lemma contained_of_events {m : Made γ} (h : ∀ e ∈ m.trace, WriteEvent c w₀ r₀ e)
    (hs : Sampled m c w₀ r₀)
    (hcount : (m.trace.filter fun e => (index e.act).isSome).length ≤ limit m.call) :
    Contained m := by
  have hwlt := UInt32.lt_iff_toNat_lt.mp (clamp_lt (bufferSize_pos c) w₀)
  have hrlt := UInt32.lt_iff_toNat_lt.mp (clamp_lt (bufferSize_pos c) r₀)
  refine ⟨fun e he d i hi => ?_, hcount, fun e he d v hv => (h e he).stored_lt hv,
    fun e he d i b hact => ?_, fun e he d i b hact w r hs' => ?_⟩
  · obtain ⟨rfl, k, -, rfl⟩ := (h e he).index_eq hi
    exact mod_lt_of hwlt
  · obtain ⟨rfl, -⟩ := (h e he).index_eq (congrArg index hact)
    exact ⟨w₀, r₀, hs⟩
  · obtain ⟨rfl, k, hk, rfl⟩ := (h e he).index_eq (congrArg index hact)
    obtain ⟨⟨e₁, he₁, hw₁⟩, e₂, he₂, hr₂⟩ := hs'
    obtain rfl := (h e₁ he₁).writeSample_eq hw₁
    obtain rfl := (h e₂ he₂).readSample_eq hr₂
    exact not_within hrlt hwlt hk

/-- A write takes one sample of its own offset. -/
lemma clamp_events {w : UInt32}
    (h : Exec (beside access) env (clampWriteOffset c (bufferSize c)) s tr w t) :
    ∃ v, w = clamp (bufferSize c) v ∧ (∃ e ∈ tr, writeSample e = some (c, v)) ∧
      (∀ e ∈ tr, index e.act = none) ∧ ∀ r₀, ∀ e ∈ tr, WriteEvent c v r₀ e := by
  obtain ⟨s₁, -, hw, tr', rfl, hcase⟩ := clampWriteOffset_inv h
  refine ⟨_, hw, ⟨_, List.mem_cons_self, rfl⟩, ?_⟩
  rcases hcase with ⟨-, -, rfl⟩ | ⟨s₂, -, -, -, rfl⟩
  · simp only [List.mem_singleton, forall_eq]
    exact ⟨rfl, fun _ => .writeSample s₁⟩
  · simp only [List.mem_cons, List.not_mem_nil, or_false, forall_eq_or_imp, forall_eq]
    exact ⟨⟨rfl, rfl⟩, fun _ => ⟨.writeSample s₁, .store 0 s₂ (bufferSize_pos c)⟩⟩

/-- What a write stores goes where there is space between its samples. -/
lemma store_events {data : ℕ → UInt8} {n : UInt32} {x : Unit} (hn : n ≤ avail (bufferSize c)
      (clamp (bufferSize c) r₀) (clamp (bufferSize c) w₀))
    (h : Exec (beside access) env (store c (bufferSize c) (clamp (bufferSize c) w₀) data n)
      s tr x t) :
    (∀ e ∈ tr, WriteEvent c w₀ r₀ e) ∧
      (tr.filter fun e => (index e.act).isSome).length ≤ n.toNat := by
  have hwlt := clamp_lt (bufferSize_pos c) w₀
  have hfree := avail_toNat (clamp_lt (bufferSize_pos c) r₀) hwlt
  have hpos := UInt32.lt_iff_toNat_lt.mp (bufferSize_pos c)
  rw [UInt32.le_iff_toNat_le, hfree] at hn
  have hlt : n < bufferSize c := by
    rw [UInt32.lt_iff_toNat_lt]
    simp only [UInt32.toNat_zero] at hpos
    omega
  have hacts := store_acts hwlt hlt h
  refine ⟨fun e he => ?_, ?_⟩
  · have hmem : e.act ∈ tr.map Event.act := List.mem_map_of_mem he
    rw [hacts, List.mem_append, List.mem_singleton, List.mem_map] at hmem
    obtain ⟨a, r, s⟩ := e
    rcases hmem with ⟨i, hi, rfl⟩ | rfl
    · have hi := List.mem_range.mp hi
      exact .put i _ s (by omega)
    · exact .store _ s (advance_lt hwlt hlt)
  · rw [copies_of_acts hacts, List.filter_append, List.length_append]
    refine (Nat.add_le_add_right (List.length_filter_le _ _) _).trans ?_
    simp [index]

end Writes

/-! ### The calls -/

section Calls

variable {channel : UInt32}
variable (henv : ∀ a s t, env a s t → SameShape s.1 t.1) (hs : Formed s.1)

include henv hs

lemma write_contained {data : ℕ → UInt8} {len n : UInt32} {x : Answer}
    (h : Exec (beside access) env (oneromRttWrite channel data len) s tr n t) :
    Contained ⟨.write channel data len, tr, x⟩ := by
  rcases write_inv henv hs h with ⟨-, -, hent⟩ | ⟨c, tr₀, u, tr₁, w, v, s₂, tr₂, -, hent, -, hw, -,
    rfl, hcase⟩
  · exact contained_of_quiet (quiet_of_entered hent)
  obtain ⟨w₀, rfl, ⟨e, he, hsample⟩, hnone, hclamp⟩ := clamp_events hw
  have hrest : (∀ e ∈ tr₂, WriteEvent c w₀ (s₂.1.ring c).readOffset e) ∧
      (tr₂.filter fun e => (index e.act).isSome).length ≤ len.toNat := by
    rcases hcase with ⟨-, -, rfl, -⟩ | ⟨hle, -, hstore⟩
    · simp
    · exact store_events hle hstore
  have hmem : ∀ e ∈ tr₀ ++ (tr₁ ++ ⟨.readOffset c, (s₂.1.ring c).readOffset, s₂⟩ :: tr₂),
      WriteEvent c w₀ (s₂.1.ring c).readOffset e := by
    simp only [List.mem_append, List.mem_cons]
    rintro e (he | he | rfl | he)
    · exact .quiet (quiet_of_entered hent e he)
    · exact hclamp _ e he
    · exact .readSample s₂
    · exact hrest.1 e he
  refine contained_of_events hmem ⟨⟨e, by simp [he], hsample⟩,
    ⟨.readOffset c, (s₂.1.ring c).readOffset, s₂⟩, by simp, rfl⟩ ?_
  have hnone₁ : tr₁.filter (fun e => (index e.act).isSome) = [] :=
    List.filter_eq_nil_iff.mpr fun e he => by simp [hnone e he]
  rw [List.filter_append, List.filter_append, filter_quiet (quiet_of_entered hent), hnone₁]
  exact hrest.2

omit henv hs in
lemma sample_takes {c : Channel} {a : Access} (ha : a = .writeOffset c ∨ a = .readOffset c)
    (r : a.Res) (u : World γ) : Takes ⟨a, r, u⟩ := by
  rcases ha with rfl | rfl <;> exact ⟨by rintro _ _ ⟨⟩, by rintro _ _ ⟨⟩, by rintro _ _ _ ⟨⟩⟩

omit henv hs in
/-- What a read takes lies in the buffer. -/
lemma take_events {c : Channel} {r n : UInt32} {bytes : List UInt8} (hr : r < bufferSize c)
    (hn : n < bufferSize c)
    (h : Exec (beside access) env (take c (bufferSize c) r n) s tr bytes t) :
    (∀ e ∈ tr, Takes e) ∧ (tr.filter fun e => (index e.act).isSome).length ≤ n.toNat := by
  have hacts := take_acts hr hn h
  refine ⟨fun e he => ?_, ?_⟩
  · have hmem : e.act ∈ tr.map Event.act := List.mem_map_of_mem he
    rw [hacts, List.mem_append, List.mem_singleton, List.mem_map] at hmem
    obtain ⟨a, x, u⟩ := e
    rcases hmem with ⟨i, -, rfl⟩ | rfl
    · refine ⟨?_, by rintro _ _ ⟨⟩, by rintro _ _ _ ⟨⟩⟩
      rintro _ _ ⟨⟩
      exact mod_lt_of (UInt32.lt_iff_toNat_lt.mp hr)
    · refine ⟨by rintro _ _ ⟨⟩, ?_, by rintro _ _ _ ⟨⟩⟩
      rintro _ _ ⟨⟩
      exact advance_lt hr hn
  · rw [copies_of_acts hacts, List.filter_append, List.length_append]
    refine (Nat.add_le_add_right (List.length_filter_le _ _) _).trans ?_
    simp [index]

lemma read_contained {dest : Bool} {maxLen : UInt32} {y : UInt32 × List UInt8} {x : Answer}
    (h : Exec (beside access) env (oneromRttRead channel dest maxLen) s tr y t) :
    Contained ⟨.read channel dest maxLen, tr, x⟩ := by
  rcases read_inv henv hs h with ⟨-, -, hent⟩ | ⟨c, tr₀, u, v, s₂, tr₂, n, -, hent, -, -, -, rfl, hn,
    -, hcase⟩
  · exact contained_of_quiet (quiet_of_entered hent)
  have hrlt := clamp_lt (bufferSize_pos c) (s₂.1.ring c).readOffset
  have hwlt := clamp_lt (bufferSize_pos c) (v.1.ring c).writeOffset
  have hpending := pending_toNat (w := clamp (bufferSize c) (v.1.ring c).writeOffset) hrlt
  have hspan := span_lt (UInt32.lt_iff_toNat_lt.mp hrlt) (UInt32.lt_iff_toNat_lt.mp hwlt)
  have hnat := congrArg UInt32.toNat hn
  rw [atMost_toNat, hpending] at hnat
  have hlt : n < bufferSize c := UInt32.lt_iff_toNat_lt.mpr (by omega)
  have hmax : n.toNat ≤ maxLen.toNat := by omega
  have hrest : (∀ e ∈ tr₂, Takes e) ∧
      (tr₂.filter fun e => (index e.act).isSome).length ≤ n.toNat := by
    rcases hcase with ⟨-, -, rfl, -⟩ | ⟨-, htake⟩
    · simp
    · exact take_events hrlt hlt htake
  refine contained_of_takes ?_ ?_
  · simp only [List.mem_append, List.mem_cons]
    rintro e (he | rfl | rfl | he)
    · exact (quiet_of_entered hent e he).takes
    · exact sample_takes (Or.inl rfl) _ _
    · exact sample_takes (Or.inr rfl) _ _
    · exact hrest.1 e he
  · rw [List.filter_append, filter_quiet (quiet_of_entered hent)]
    exact hrest.2.trans hmax

lemma query_contained {y : UInt32 × UInt32 × UInt32} {x : Answer}
    (h : Exec (beside access) env (oneromRttQuery channel) s tr y t) :
    Contained ⟨.query channel, tr, x⟩ := by
  rcases query_inv henv hs h with ⟨-, -, hent⟩ | ⟨c, tr₀, u, v, n, -, hent, -, -, -, rfl, -, -⟩
  · exact contained_of_quiet (quiet_of_entered hent)
  refine contained_of_takes ?_ ?_
  · simp only [List.mem_append, List.mem_cons, List.not_mem_nil, or_false]
    rintro e (he | rfl | rfl)
    · exact (quiet_of_entered hent e he).takes
    · exact sample_takes (Or.inl rfl) _ _
    · exact sample_takes (Or.inr rfl) _ _
  · rw [List.filter_append, filter_quiet (quiet_of_entered hent)]
    exact Nat.le_refl 0

lemma call_contained {c : Call} {x : Answer} (h : Exec (beside access) env c.prog s tr x t) :
    Contained ⟨c, tr, x⟩ := by
  cases c with
  | write channel data len =>
    obtain ⟨tr₁, n, u, _, hcall, hret, rfl⟩ := h.bind_inv
    obtain ⟨rfl, -, -⟩ := hret.ret_inv
    rw [List.append_nil]
    exact write_contained henv hs hcall
  | read channel dest maxLen =>
    obtain ⟨tr₁, y, u, _, hcall, hret, rfl⟩ := h.bind_inv
    obtain ⟨rfl, -, -⟩ := hret.ret_inv
    rw [List.append_nil]
    exact read_contained henv hs hcall
  | query channel =>
    obtain ⟨tr₁, y, u, _, hcall, hret, rfl⟩ := h.bind_inv
    obtain ⟨rfl, -, -⟩ := hret.ret_inv
    rw [List.append_nil]
    exact query_contained henv hs hcall

end Calls

/-! ### The host -/

lemma HostStores.sameShape {s t : World γ} (h : HostStores s t) : SameShape s.1 t.1 := by
  obtain ⟨c, w, r, rfl⟩ := h
  refine ⟨rfl, fun d => ?_, fun d => ?_⟩ <;>
    by_cases hd : d = c <;>
    simp [ControlBlock.setReadOffset, ControlBlock.setWriteOffset, ControlBlock.setRing, hd]

/-- What a call leaves is formed. -/
lemma formed_of_exec {α : Type} {p : RttProg α} {x : α} {s t : World γ}
    {tr : List (Event Access Access.Res (World γ))}
    (henv : ∀ a s t, env a s t → SameShape s.1 t.1)
    (h : Exec (beside access) env p s tr x t) (hs : Formed s.1) : Formed t.1 :=
  h.keeps (P := fun _ => True) (I := fun s => Formed s.1) (Prog.only_all p)
    (fun a _ _ _ hst => (henv a _ _ hst).formed) (fun a _ _ hs => hs.access a) hs

variable {note : Call → Answer → γ → γ}

lemma calls_contained {s t : World γ} {ms : List (Made γ)}
    (h : Calls (fun _ => HostStores) HostStores note s ms t) (hs : Formed s.1) :
    ∀ m ∈ ms, Contained m := by
  have henv : ∀ (a : Access) (s t : World γ), HostStores s t → SameShape s.1 t.1 :=
    fun _ _ _ hst => hst.sameShape
  induction h with
  | done => simp
  | host hst _ ih => exact ih (hst.sameShape.formed hs)
  | call hc _ ih =>
    have ht := formed_of_exec henv hc hs
    exact List.forall_mem_cons.mpr ⟨call_contained henv hs hc, ih ht⟩

/-- Whatever a debug host stores in the offsets of the rings, and whenever it does, every call
stays inside its buffer, copies no more than it was asked to, stores only offsets in the buffer,
and overwrites nothing the reader has still to take. -/
theorem host_contained {t : World Unit} {ms : List (Made Unit)}
    (h : Calls (fun _ => HostStores) HostStores (fun _ _ u => u) (ControlBlock.reset, ()) ms t) :
    ∀ m ∈ ms, Contained m :=
  calls_contained h fun hid => by cases hid

/-- The log, set up by a query, with offsets no writer or reader ever stores. -/
def wild : World Unit :=
  ((((Call.query 0).prog.run (beside access) (ControlBlock.reset, ())).2.2.1.setWriteOffset .up
    0xFFFFFFFF).setReadOffset .up 0x80000000, ())

theorem host_contained_wild :
    Contained ⟨.write 0 (fun _ => 7) 5, ((Call.write 0 (fun _ => 7) 5).prog.run (beside access) wild).1,
      ((Call.write 0 (fun _ => 7) 5).prog.run (beside access) wild).2.1⟩ :=
  host_contained (.call (Exec.of_run (Call.query 0).prog _) (.host ⟨.up, 0xFFFFFFFF, 0x80000000, rfl⟩
    (.call (Exec.of_run (Call.write 0 (fun _ => 7) 5).prog _) (.done _)))) _
    (List.mem_cons_of_mem _ List.mem_cons_self)

end OneRom.RttHost
