import Mathlib

/-!
Programs over a state that may fail. A program that fails leaves the state as it was when it
failed: what it has done to it stays done.

`Triple P x Q E` says that `x` started where `P` holds ends where `Q` does, or fails where `E`
does. Where only the state matters the rules carry one invariant through, and a program run over a
list carries one that grows with the list.
-/

namespace OneRom.Fallible

universe u

/-- A program: a value or an error, and the state either way. -/
def Prog (σ ε : Type u) (α : Type u) : Type u := σ → Except ε α × σ

variable {σ ε ε' α β : Type u}

namespace Prog

def bind (x : Prog σ ε α) (f : α → Prog σ ε β) : Prog σ ε β := fun s =>
  match x s with
  | (.ok a, s') => f a s'
  | (.error e, s') => (.error e, s')

instance : Monad (Prog σ ε) where
  pure a s := (.ok a, s)
  bind := bind

def throw (e : ε) : Prog σ ε α := fun s => (.error e, s)

/-- A result as a program that leaves the state alone. -/
def ofExcept (r : Except ε α) : Prog σ ε α := fun s => (r, s)

def mapError (f : ε → ε') (x : Prog σ ε α) : Prog σ ε' α := fun s => ((x s).1.mapError f, (x s).2)

/-- Runs `f` on each element in turn. -/
def each {γ : Type} (f : γ → Prog σ ε PUnit) : List γ → Prog σ ε PUnit
  | [] => pure ⟨⟩
  | c :: cs => f c >>= fun _ => each f cs

@[simp] lemma pure_run (a : α) (s : σ) : (pure a : Prog σ ε α) s = (.ok a, s) := rfl
@[simp] lemma throw_run (e : ε) (s : σ) : (throw e : Prog σ ε α) s = (.error e, s) := rfl
@[simp] lemma ofExcept_run (r : Except ε α) (s : σ) : ofExcept r s = (r, s) := rfl

lemma bind_run (x : Prog σ ε α) (f : α → Prog σ ε β) (s : σ) :
    (x >>= f) s = match x s with
      | (.ok a, s') => f a s'
      | (.error e, s') => (.error e, s') := rfl

/-- A program that goes on after another succeeds where both do. -/
lemma bind_ok {x : Prog σ ε α} {f : α → Prog σ ε β} {s t : σ} {b : β} :
    (x >>= f) s = (.ok b, t) ↔ ∃ a u, x s = (.ok a, u) ∧ f a u = (.ok b, t) := by
  rw [bind_run]
  constructor
  · intro h
    split at h
    · next a u hx => exact ⟨a, u, hx, h⟩
    · cases h
  · rintro ⟨a, u, hx, hf⟩
    rw [hx]
    exact hf

lemma bind_of_ok {x : Prog σ ε α} {f : α → Prog σ ε β} {s u : σ} {a : α} (h : x s = (.ok a, u)) :
    (x >>= f) s = f a u := by
  rw [bind_run, h]

lemma bind_assoc {γ : Type u} (x : Prog σ ε α) (f : α → Prog σ ε β) (g : β → Prog σ ε γ) :
    x >>= f >>= g = x >>= fun a => f a >>= g := by
  funext s
  rw [bind_run, bind_run, bind_run]
  rcases x s with ⟨_ | _, _⟩ <;> rfl

lemma mapError_ok {f : ε → ε'} {x : Prog σ ε α} {s t : σ} {a : α} :
    mapError f x s = (.ok a, t) ↔ x s = (.ok a, t) := by
  rcases hx : x s with ⟨_ | _, u⟩ <;> simp [mapError, hx, Except.mapError]

end Prog

open Prog

/-- `x` started where `P` holds ends where `Q` holds, or fails where `E` does. -/
def Triple (P : σ → Prop) (x : Prog σ ε α) (Q : α → σ → Prop) (E : σ → Prop) : Prop :=
  ∀ s, P s → match x s with
    | (.ok a, t) => Q a t
    | (.error _, t) => E t

/-- `x` ends where `Q` holds, or fails where `P` still does. -/
abbrev Keeps (P : σ → Prop) (x : Prog σ ε α) (Q : α → σ → Prop) : Prop := Triple P x Q P

variable {P P' : σ → Prop} {Q Q' : α → σ → Prop} {E E' : σ → Prop} {x : Prog σ ε α}

namespace Triple

lemma ok (h : Triple P x Q E) {s t : σ} {a : α} (hs : P s) (hx : x s = (.ok a, t)) : Q a t := by
  have := h s hs
  rwa [hx] at this

/-- A state a program ends in, whether it succeeds or fails. -/
lemma final {I : σ → Prop} (h : Triple P x (fun _ => I) I) {s : σ} (hs : P s) : I (x s).2 := by
  have := h s hs
  split at this <;> next heq => rw [heq]; exact this

lemma mono (h : Triple P x Q E) (hP : ∀ s, P' s → P s) (hQ : ∀ a s, Q a s → Q' a s)
    (hE : ∀ s, E s → E' s) : Triple P' x Q' E' := by
  intro s hs
  have := h s (hP s hs)
  split at this
  · exact hQ _ _ this
  · exact hE _ this

lemma pure {a : α} (h : ∀ s, P s → Q a s) : Triple P (Pure.pure a : Prog σ ε α) Q E := fun s hs => h s hs

lemma throw {e : ε} (h : ∀ s, P s → E s) : Triple P (Prog.throw e : Prog σ ε α) Q E :=
  fun s hs => h s hs

lemma bind {f : α → Prog σ ε β} {R : β → σ → Prop} (hx : Triple P x Q E)
    (hf : ∀ a, Triple (Q a) (f a) R E) : Triple P (x >>= f) R E := by
  intro s hs
  have h := hx s hs
  rw [bind_run]
  split at h
  · next a t hxs => exact hf a t h
  · exact h

lemma mapError {f : ε → ε'} (h : Triple P x Q E) : Triple P (Prog.mapError f x) Q E := by
  intro s hs
  have hx := h s hs
  rcases hr : x s with ⟨_ | a, t⟩ <;> simp only [hr, Prog.mapError, Except.mapError] at hx ⊢ <;>
    exact hx

/-- **Lists**: an invariant over the elements done and those to do, kept by each element, holds of
the whole list at the end. -/
theorem each {γ : Type} {f : γ → Prog σ ε PUnit} (I : List γ → σ → Prop) (cs : List γ)
    (h : ∀ pre c post, cs = pre ++ c :: post →
      Triple (I pre) (f c) (fun _ => I (pre ++ [c])) E) :
    Triple (I []) (Prog.each f cs) (fun _ => I cs) E := by
  suffices hsuff : ∀ post pre, cs = pre ++ post →
      Triple (I pre) (Prog.each f post) (fun _ => I cs) E from hsuff cs [] rfl
  intro post
  induction post with
  | nil =>
    intro pre hcs
    refine Triple.pure fun s hs => ?_
    rw [hcs, List.append_nil]
    exact hs
  | cons c post ih =>
    intro pre hcs
    exact (h pre c post hcs).bind fun _ => ih (pre ++ [c]) (by simp [hcs])

end Triple

end OneRom.Fallible
