import Mathlib

/-!
Programs on a memory that another party works on too. A program makes its accesses one at a time,
and the other party may take steps before each of them.
-/

namespace OneRom.Shared

open Relation

/-- A program: it returns, or it makes an access and goes on with what that gives. -/
inductive Prog (Act : Type) (Res : Act → Type) (α : Type) where
  | ret (x : α)
  | access (a : Act) (k : Res a → Prog Act Res α)

/-- An access that was made, what it gave, and the memory it was made on. -/
structure Event (Act : Type) (Res : Act → Type) (σ : Type) where
  act : Act
  res : Res act
  seen : σ

variable {Act : Type} {Res : Act → Type} {α β σ γ : Type}

namespace Prog

def bind : Prog Act Res α → (α → Prog Act Res β) → Prog Act Res β
  | .ret x, f => f x
  | .access a k, f => .access a fun r => (k r).bind f

instance : Monad (Prog Act Res) where
  pure := .ret
  bind := bind

/-- The program that makes one access. -/
def act (a : Act) : Prog Act Res (Res a) := .access a .ret

@[simp] lemma pure_eq (x : α) : (pure x : Prog Act Res α) = .ret x := rfl
@[simp] lemma ret_bind (x : α) (f : α → Prog Act Res β) : (Prog.ret x >>= f) = f x := rfl
@[simp] lemma access_bind (a : Act) (k : Res a → Prog Act Res α) (f : α → Prog Act Res β) :
    (Prog.access a k >>= f) = .access a fun r => k r >>= f := rfl
@[simp] lemma act_bind (a : Act) (f : Res a → Prog Act Res β) :
    (act a >>= f) = .access a f := rfl

lemma bind_pure_ret (p : Prog Act Res α) : (p >>= Prog.ret) = p := by
  induction p with
  | ret x => rfl
  | access a k ih => exact congrArg (Prog.access a) (funext ih)

lemma bind_assoc' (p : Prog Act Res α) (f : α → Prog Act Res β) (g : β → Prog Act Res γ) :
    (p >>= f >>= g) = p >>= fun x => f x >>= g := by
  induction p with
  | ret x => rfl
  | access a k ih => exact congrArg (Prog.access a) (funext ih)

/-- Every access the program may make is one of these. -/
def Only (P : Act → Prop) : Prog Act Res α → Prop
  | .ret _ => True
  | .access a k => P a ∧ ∀ r, (k r).Only P

lemma only_all (p : Prog Act Res α) : p.Only fun _ => True := by
  induction p with
  | ret => trivial
  | access a k ih => exact ⟨trivial, ih⟩

lemma Only.mono {P Q : Act → Prop} {p : Prog Act Res α} (hp : p.Only P) (h : ∀ a, P a → Q a) :
    p.Only Q := by
  induction p with
  | ret => trivial
  | access a k ih => exact ⟨h a hp.1, fun r => ih r (hp.2 r)⟩

lemma Only.bind {P : Act → Prop} {p : Prog Act Res α} {f : α → Prog Act Res β} (hp : p.Only P)
    (hf : ∀ x, (f x).Only P) : (p >>= f).Only P := by
  induction p with
  | ret x => exact hf x
  | access a k ih => exact ⟨hp.1, fun r => ih r (hp.2 r)⟩

end Prog

variable (sem : (a : Act) → σ → Res a × σ)

/-- A program run alone. -/
def Prog.run : Prog Act Res α → σ → List (Event Act Res σ) × α × σ
  | .ret x, s => ([], x, s)
  | .access a k, s =>
    let (tr, x, t) := (k (sem a s).1).run (sem a s).2
    (⟨a, (sem a s).1, s⟩ :: tr, x, t)

/-- The same accesses with something carried along that no access reads. -/
def beside (a : Act) (s : σ × γ) : Res a × σ × γ := ((sem a s.1).1, (sem a s.1).2, s.2)

variable (env : Act → σ → σ → Prop)

/-- A run of a program: before it makes access `a`, the other party takes steps of `env a`. -/
inductive Exec : Prog Act Res α → σ → List (Event Act Res σ) → α → σ → Prop
  | ret (x : α) (s : σ) : Exec (.ret x) s [] x s
  | access {a : Act} {k : Res a → Prog Act Res α} {s t u : σ} {tr : List (Event Act Res σ)} {x : α}
    (henv : ReflTransGen (env a) s t) (hk : Exec (k (sem a t).1) (sem a t).2 tr x u) :
    Exec (.access a k) s (⟨a, (sem a t).1, t⟩ :: tr) x u

variable {sem env}

/-- What every step keeps, any number of steps keep. -/
lemma steps_keep {step : σ → σ → Prop} {I : σ → Prop} (h : ∀ s t, step s t → I s → I t) {s t : σ}
    (hst : ReflTransGen step s t) (hs : I s) : I t := by
  induction hst with
  | refl => exact hs
  | tail _ hstep ih => exact h _ _ hstep ih

namespace Exec

lemma ret_inv {x y : α} {s t : σ} {tr : List (Event Act Res σ)}
    (h : Exec sem env (.ret x) s tr y t) : tr = [] ∧ y = x ∧ t = s := by
  cases h
  exact ⟨rfl, rfl, rfl⟩

lemma access_inv {a : Act} {k : Res a → Prog Act Res α} {s u : σ}
    {tr : List (Event Act Res σ)} {x : α} (h : Exec sem env (.access a k) s tr x u) :
    ∃ t tr', ReflTransGen (env a) s t ∧ tr = ⟨a, (sem a t).1, t⟩ :: tr' ∧
      Exec sem env (k (sem a t).1) (sem a t).2 tr' x u := by
  cases h with
  | access henv hk => exact ⟨_, _, henv, rfl, hk⟩

/-- The program goes on after its first access. -/
lemma act_inv {a : Act} {f : Res a → Prog Act Res β} {s u : σ} {tr : List (Event Act Res σ)}
    {y : β} (h : Exec sem env (Prog.act a >>= f) s tr y u) :
    ∃ t tr', ReflTransGen (env a) s t ∧ Exec sem env (f (sem a t).1) (sem a t).2 tr' y u ∧
      tr = ⟨a, (sem a t).1, t⟩ :: tr' := by
  obtain ⟨t, tr', henv, rfl, hk⟩ := access_inv h
  exact ⟨t, tr', henv, hk, rfl⟩

lemma bind {p : Prog Act Res α} {f : α → Prog Act Res β} {s t u : σ}
    {tr₁ tr₂ : List (Event Act Res σ)} {x : α} {y : β} (hp : Exec sem env p s tr₁ x t)
    (hf : Exec sem env (f x) t tr₂ y u) : Exec sem env (p >>= f) s (tr₁ ++ tr₂) y u := by
  induction hp with
  | ret => exact hf
  | access henv _ ih => exact .access henv (ih hf)

lemma bind_inv {p : Prog Act Res α} {f : α → Prog Act Res β} {s u : σ}
    {tr : List (Event Act Res σ)} {y : β} (h : Exec sem env (p >>= f) s tr y u) :
    ∃ tr₁ x t tr₂, Exec sem env p s tr₁ x t ∧ Exec sem env (f x) t tr₂ y u ∧
      tr = tr₁ ++ tr₂ := by
  induction p generalizing s tr with
  | ret x => exact ⟨[], x, s, tr, .ret x s, h, rfl⟩
  | access a k ih =>
    obtain ⟨t, tr', henv, rfl, hk⟩ := access_inv h
    obtain ⟨tr₁, x, v, tr₂, hp, hf, rfl⟩ := ih _ hk
    exact ⟨_, x, v, tr₂, .access henv hp, hf, rfl⟩

/-- What the other party and every access a program may make keep, the program keeps. -/
lemma keeps {P : Act → Prop} {I : σ → Prop} {p : Prog Act Res α} {s u : σ}
    {tr : List (Event Act Res σ)} {x : α} (h : Exec sem env p s tr x u) (hp : p.Only P)
    (henv : ∀ a s t, P a → env a s t → I s → I t) (hsem : ∀ a s, P a → I s → I (sem a s).2)
    (hs : I s) : I u := by
  induction h with
  | ret => exact hs
  | access hab _ ih =>
    exact ih (hp.2 _) (hsem _ _ hp.1 (steps_keep (fun s t => henv _ s t hp.1) hab hs))

/-- Every access made is one the program may make. -/
lemma acts {P : Act → Prop} {p : Prog Act Res α} {s u : σ} {tr : List (Event Act Res σ)} {x : α}
    (h : Exec sem env p s tr x u) (hp : p.Only P) : ∀ e ∈ tr, P e.act := by
  induction h with
  | ret => simp
  | access _ _ ih =>
    intro e he
    rcases List.mem_cons.mp he with rfl | he
    · exact hp.1
    · exact ih (hp.2 _) e he

/-- The other party may take no step. -/
lemma of_run (p : Prog Act Res α) (s : σ) :
    Exec sem env p s (p.run sem s).1 (p.run sem s).2.1 (p.run sem s).2.2 := by
  induction p generalizing s with
  | ret x => exact .ret x s
  | access a k ih => exact .access .refl (ih _ _)

end Exec

end OneRom.Shared
