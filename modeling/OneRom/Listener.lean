import OneRom.Fallible

/-!
Programs that are told things one at a time, and act on a state in between. A program that isn't
told any more stops where it is, and waits.

`Hears n x` says that `x` is told `n` things, whatever they are and whatever the state: its value
and what it leaves depend on no more than those. A program that hears as many in every state reads
the same frames of a stream in every state.
-/

namespace OneRom.Listener

open Fallible Fallible.Prog

variable {ι σ α β : Type}

/-- What is still to be told, and the state. -/
structure Scene (ι σ : Type) where
  input : List ι
  state : σ

/-- Its failure is that it waits. -/
abbrev Hearing (ι σ α : Type) := Prog (Scene ι σ) Unit α

def hear : Hearing ι σ ι := fun s =>
  match s.input with
  | [] => (.error (), s)
  | i :: input => (.ok i, ⟨input, s.state⟩)

def act (f : σ → α × σ) : Hearing ι σ α := fun s =>
  (.ok (f s.state).1, ⟨s.input, (f s.state).2⟩)

/-- Hears some things without heeding them. -/
def skip : ℕ → Hearing ι σ Unit
  | 0 => pure ()
  | n + 1 => hear >>= fun _ => skip n

@[simp] lemma hear_cons (i : ι) (input : List ι) (s : σ) :
    (hear : Hearing ι σ ι) ⟨i :: input, s⟩ = (.ok i, ⟨input, s⟩) := rfl
@[simp] lemma hear_nil (s : σ) : (hear : Hearing ι σ ι) ⟨[], s⟩ = (.error (), ⟨[], s⟩) := rfl
@[simp] lemma act_run (f : σ → α × σ) (input : List ι) (s : σ) :
    (act f : Hearing ι σ α) ⟨input, s⟩ = (.ok (f s).1, ⟨input, (f s).2⟩) := rfl

@[simp] lemma hear_bind_cons (f : ι → Hearing ι σ β) (i : ι) (input : List ι) (s : σ) :
    (hear >>= f) ⟨i :: input, s⟩ = f i ⟨input, s⟩ := rfl
@[simp] lemma hear_bind_nil (f : ι → Hearing ι σ β) (s : σ) :
    (hear >>= f) ⟨[], s⟩ = (.error (), ⟨[], s⟩) := rfl
@[simp] lemma act_bind (g : σ → α × σ) (f : α → Hearing ι σ β) (input : List ι) (s : σ) :
    (act g >>= f) ⟨input, s⟩ = f (g s).1 ⟨input, (g s).2⟩ := rfl

/-! ### How much is heard -/

/-- `x` hears `n` things, and nothing it does depends on what comes after them. Told fewer, it
waits. -/
structure Hears (n : ℕ) (x : Hearing ι σ α) : Prop where
  told : ∀ l s, l.length = n → ∃ a t, ∀ rest, x ⟨l ++ rest, s⟩ = (.ok a, ⟨rest, t⟩)
  waits : ∀ l s, l.length < n → ∃ t, x ⟨l, s⟩ = (.error (), ⟨[], t⟩)

namespace Hears

variable {n m : ℕ} {x : Hearing ι σ α} {f : α → Hearing ι σ β}

lemma act (g : σ → α × σ) : Hears 0 (Listener.act g : Hearing ι σ α) where
  told l s hl := by
    obtain rfl := List.length_eq_zero_iff.mp hl
    exact ⟨(g s).1, (g s).2, fun _ => rfl⟩
  waits l s hl := absurd hl (Nat.not_lt_zero _)

lemma hear : Hears 1 (Listener.hear : Hearing ι σ ι) where
  told l s hl := by
    obtain ⟨i, rfl⟩ := List.length_eq_one_iff.mp hl
    exact ⟨i, s, fun _ => rfl⟩
  waits l s hl := by
    obtain rfl := List.length_eq_zero_iff.mp (Nat.lt_one_iff.mp hl)
    exact ⟨s, rfl⟩

lemma pure (a : α) : Hears 0 (Pure.pure a : Hearing ι σ α) := act fun s => (a, s)

lemma bind (hx : Hears n x) (hf : ∀ a, Hears m (f a)) : Hears (n + m) (x >>= f) where
  told l s hl := by
    obtain ⟨a, t, hxl⟩ := hx.told (l.take n) s (by rw [List.length_take]; omega)
    obtain ⟨b, u, hfl⟩ := (hf a).told (l.drop n) t (by rw [List.length_drop]; omega)
    refine ⟨b, u, fun rest => ?_⟩
    rw [← List.take_append_drop n l, List.append_assoc, bind_of_ok (hxl _), hfl]
  waits l s hl := by
    rcases Nat.lt_or_ge l.length n with hlt | hge
    · obtain ⟨t, hxl⟩ := hx.waits l s hlt
      exact ⟨t, by rw [bind_run, hxl]⟩
    · obtain ⟨a, t, hxl⟩ := hx.told (l.take n) s (by rw [List.length_take]; omega)
      obtain ⟨u, hfl⟩ := (hf a).waits (l.drop n) t (by rw [List.length_drop]; omega)
      refine ⟨u, ?_⟩
      have happ := hxl (l.drop n)
      rw [List.take_append_drop] at happ
      rw [bind_of_ok happ, hfl]

lemma hear_bind {f : ι → Hearing ι σ β} (hf : ∀ i, Hears n (f i)) :
    Hears (n + 1) (Listener.hear >>= f) := Nat.add_comm 1 n ▸ hear.bind hf

lemma act_bind {g : σ → α × σ} (hf : ∀ a, Hears m (f a)) : Hears m (Listener.act g >>= f) :=
  Nat.zero_add m ▸ (act g).bind hf

lemma bind_act (hx : Hears n x) {f : α → Hearing ι σ β} (hf : ∀ a, Hears 0 (f a)) :
    Hears n (x >>= f) := hx.bind hf

lemma skip : ∀ n, Hears n (Listener.skip n : Hearing ι σ Unit)
  | 0 => pure ()
  | n + 1 => hear_bind fun _ => skip n

/-- Told just what it hears, it does what it does with more to come. -/
lemma eq_told (hx : Hears n x) {l : List ι} (hl : l.length = n) (s : σ) (rest : List ι) :
    ∃ a, x ⟨l ++ rest, s⟩ = (.ok a, ⟨rest, (x ⟨l, s⟩).2.state⟩) ∧ (x ⟨l, s⟩).1 = .ok a := by
  obtain ⟨a, t, hlt⟩ := hx.told l s hl
  have hnil := hlt []
  rw [List.append_nil] at hnil
  exact ⟨a, by rw [hlt, hnil], by rw [hnil]⟩

end Hears

/-! ### What is done -/

/-- A value that `x` comes to, the state it started in and the one it leaves are related. -/
def Ends (Q : σ → α → σ → Prop) (x : Hearing ι σ α) : Prop :=
  ∀ input s a t, x ⟨input, s⟩ = (.ok a, t) → Q s a t.state

namespace Ends

variable {Q : σ → α → σ → Prop}

lemma act {g : σ → α × σ} (h : ∀ s, Q s (g s).1 (g s).2) :
    Ends Q (Listener.act g : Hearing ι σ α) := by
  intro input s a t hrun
  cases hrun
  exact h s

lemma pure {a : α} (h : ∀ s, Q s a s) : Ends Q (Pure.pure a : Hearing ι σ α) :=
  act (g := fun s => (a, s)) h

lemma hear_bind {f : ι → Hearing ι σ α} (h : ∀ i, Ends Q (f i)) :
    Ends Q (Listener.hear >>= f) := by
  intro input s a t hrun
  cases input with
  | nil => cases hrun
  | cons i input => exact h i input s a t hrun

lemma skip_bind {f : Unit → Hearing ι σ α} (h : Ends Q (f ())) :
    ∀ n, Ends Q (Listener.skip n >>= f)
  | 0 => h
  | n + 1 => by
    rw [Listener.skip, bind_assoc]
    exact hear_bind fun _ => skip_bind h n

lemma mono {Q' : σ → α → σ → Prop} {x : Hearing ι σ α} (h : Ends Q x)
    (hQ : ∀ s a t, Q s a t → Q' s a t) : Ends Q' x :=
  fun input s a t hrun => hQ s a t.state (h input s a t hrun)

end Ends

/-- `Ends`, where `x` is told `n` things of which the last is `i`. -/
def EndsOn (i : ι) (n : ℕ) (Q : σ → α → σ → Prop) (x : Hearing ι σ α) : Prop :=
  ∀ l s a t, l.length = n → l.getLast? = some i → x ⟨l, s⟩ = (.ok a, t) → Q s a t.state

namespace EndsOn

variable {i : ι} {n : ℕ} {Q : σ → α → σ → Prop} {f : ι → Hearing ι σ α}

lemma last (h : Ends Q (f i)) : EndsOn i 1 Q (Listener.hear >>= f) := by
  intro l s a t hl hlast hrun
  obtain ⟨j, rfl⟩ := List.length_eq_one_iff.mp hl
  obtain rfl : j = i := Option.some.inj hlast
  exact h [] s a t hrun

lemma hear_bind (h : ∀ j, EndsOn i (n + 1) Q (f j)) :
    EndsOn i (n + 2) Q (Listener.hear >>= f) := by
  intro l s a t hl hlast hrun
  match l, hl with
  | j :: j' :: l, hl =>
    exact h j (j' :: l) s a t (Nat.succ.inj hl) hlast hrun

end EndsOn

end OneRom.Listener
