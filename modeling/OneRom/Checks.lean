import Mathlib

/-!
Checks that stop at the first failure: what one that succeeds has established.
-/

namespace OneRom.Checks

variable {ε α β : Type}

lemma bind_eq_ok {x : Except ε α} {f : α → Except ε β} {b : β} :
    (x >>= f) = .ok b ↔ ∃ a, x = .ok a ∧ f a = .ok b := by
  cases x with
  | error e => simp [bind, Except.bind]
  | ok a => simp [bind, Except.bind]

lemma bind_eq_error {x : Except ε α} {f : α → Except ε β} {e : ε} :
    (x >>= f) = .error e ↔ x = .error e ∨ ∃ a, x = .ok a ∧ f a = .error e := by
  cases x with
  | error e => simp [bind, Except.bind]
  | ok a => simp [bind, Except.bind]

lemma pure_eq_ok {a b : α} : (pure a : Except ε α) = .ok b ↔ a = b :=
  ⟨Except.ok.inj, congrArg _⟩

/-- Fails with `e` where `c` holds. -/
def refuse (c : Prop) [Decidable c] (e : ε) : Except ε Unit := if c then .error e else .ok ()

/-- Makes the check where `c` holds. -/
def only (c : Prop) [Decidable c] (check : Except ε Unit) : Except ε Unit :=
  if c then check else .ok ()

lemma refuse_eq_ok {c : Prop} [Decidable c] {e : ε} : refuse c e = .ok () ↔ ¬c := by
  by_cases hc : c <;> simp [refuse, hc]

lemma only_eq_ok {c : Prop} [Decidable c] {check : Except ε Unit} :
    only c check = .ok () ↔ (c → check = .ok ()) := by
  by_cases hc : c <;> simp [only, hc]

/-- Two checks, one after the other, pass where both do. -/
lemma seq_eq_ok {x : Except ε Unit} {y : Except ε β} {b : β} :
    (x >>= fun _ => y) = .ok b ↔ x = .ok () ∧ y = .ok b := by
  rw [bind_eq_ok]
  exact ⟨fun ⟨_, hx, hy⟩ => ⟨hx, hy⟩, fun ⟨hx, hy⟩ => ⟨(), hx, hy⟩⟩

/-- A list is passed where each of its elements is. -/
lemma forM_eq_ok {f : α → Except ε Unit} {l : List α} :
    l.forM f = .ok () ↔ ∀ x ∈ l, f x = .ok () := by
  induction l with
  | nil => simp [List.forM, pure, Except.pure]
  | cons x l ih =>
    change (f x >>= fun _ => l.forM f) = .ok () ↔ _
    rw [seq_eq_ok, List.forall_mem_cons, ih]

/-- A list that fails fails at one of its elements. -/
lemma forM_eq_error {f : α → Except ε Unit} {l : List α} {e : ε} (h : l.forM f = .error e) :
    ∃ x ∈ l, f x = .error e := by
  induction l with
  | nil => cases h
  | cons x l ih =>
    rcases bind_eq_error.mp (show (f x >>= fun _ => l.forM f) = .error e from h) with hx | ⟨-, -, hl⟩
    · exact ⟨x, List.mem_cons_self, hx⟩
    · obtain ⟨y, hy, hfail⟩ := ih hl
      exact ⟨y, List.mem_cons_of_mem _ hy, hfail⟩

lemma mapM_eq_error {f : α → Except ε β} {l : List α} {e : ε} (h : l.mapM f = .error e) :
    ∃ x ∈ l, f x = .error e := by
  induction l with
  | nil => cases h
  | cons x l ih =>
    rw [List.mapM_cons] at h
    rcases bind_eq_error.mp h with hx | ⟨y, -, hrest⟩
    · exact ⟨x, List.mem_cons_self, hx⟩
    · rcases bind_eq_error.mp hrest with hl | ⟨ys, -, hpure⟩
      · obtain ⟨z, hz, hfail⟩ := ih hl
        exact ⟨z, List.mem_cons_of_mem _ hz, hfail⟩
      · cases hpure

lemma refuse_eq_error {c : Prop} [Decidable c] {e e' : ε} : refuse c e = .error e' ↔ c ∧ e = e' := by
  by_cases hc : c <;> simp [refuse, hc]

lemma mapError_eq_error {ε' : Type} {f : ε → ε'} {x : Except ε α} {e : ε'} :
    x.mapError f = .error e ↔ ∃ e', x = .error e' ∧ f e' = e := by
  cases x <;> simp [Except.mapError]

lemma option_forM_eq_ok {f : α → Except ε Unit} {o : Option α} :
    o.forM f = .ok () ↔ ∀ x ∈ o, f x = .ok () := by
  cases o with
  | none => simp [Option.forM, pure, Except.pure]
  | some x => simp [Option.forM]

lemma map_eq_ok {x : Except ε α} {f : α → β} {b : β} :
    (f <$> x) = .ok b ↔ ∃ a, x = .ok a ∧ f a = b := by
  cases x with
  | error e => simp [Functor.map, Except.map]
  | ok a => simp [Functor.map, Except.map]

lemma mapError_eq_ok {ε' : Type} {f : ε → ε'} {x : Except ε α} {a : α} :
    x.mapError f = .ok a ↔ x = .ok a := by
  cases x <;> simp [Except.mapError]

/-- What each element of a list gives. -/
lemma mapM_eq_ok {f : α → Except ε β} {l : List α} {r : List β} (h : l.mapM f = .ok r) :
    List.Forall₂ (fun x y => f x = .ok y) l r := by
  induction l generalizing r with
  | nil =>
    cases h
    exact .nil
  | cons x l ih =>
    rw [List.mapM_cons] at h
    obtain ⟨y, hy, hrest⟩ := bind_eq_ok.mp h
    obtain ⟨ys, hys, heq⟩ := bind_eq_ok.mp hrest
    cases pure_eq_ok.mp heq
    exact .cons hy (ih hys)

/-- What an element of a list gives, at its place. -/
lemma mapM_getElem? {f : α → Except ε β} {l : List α} {r : List β} (h : l.mapM f = .ok r) {i : ℕ}
    {x : α} (hx : l[i]? = some x) : ∃ y, r[i]? = some y ∧ f x = .ok y := by
  have hall := mapM_eq_ok h
  obtain ⟨hi, rfl⟩ := List.getElem?_eq_some_iff.mp hx
  have hi' : i < r.length := hall.length_eq ▸ hi
  exact ⟨r[i], List.getElem?_eq_getElem hi', List.Forall₂.get hall hi hi'⟩

/-- A list gives something where each of its elements does. -/
lemma mapM_eq_ok_iff {f : α → Except ε β} {P : α → Prop} {g : α → β} {l : List α} {r : List β}
    (h : ∀ x ∈ l, ∀ y, f x = .ok y ↔ P x ∧ y = g x) :
    l.mapM f = .ok r ↔ (∀ x ∈ l, P x) ∧ r = l.map g := by
  induction l generalizing r with
  | nil =>
    rw [List.mapM_nil, pure_eq_ok]
    exact ⟨fun heq => ⟨by simp, heq.symm⟩, fun ⟨_, heq⟩ => heq.symm⟩
  | cons x l ih =>
    have hl : ∀ z ∈ l, ∀ y, f z = .ok y ↔ P z ∧ y = g z := fun z hz => h z (by simp [hz])
    rw [List.mapM_cons, bind_eq_ok]
    constructor
    · rintro ⟨y, hy, hrest⟩
      obtain ⟨ys, hys, heq⟩ := bind_eq_ok.mp hrest
      obtain ⟨hx, rfl⟩ := (h x (by simp) y).mp hy
      obtain ⟨hall, rfl⟩ := (ih hl).mp hys
      exact ⟨List.forall_mem_cons.mpr ⟨hx, hall⟩, (pure_eq_ok.mp heq).symm⟩
    · rintro ⟨hall, rfl⟩
      obtain ⟨hx, hall⟩ := List.forall_mem_cons.mp hall
      refine ⟨g x, (h x (by simp) _).mpr ⟨hx, rfl⟩, ?_⟩
      exact bind_eq_ok.mpr ⟨_, (ih hl).mpr ⟨hall, rfl⟩, rfl⟩

end OneRom.Checks
