import Mathlib.Data.List.Infix
import Mathlib.Data.List.Range
import Mathlib.Order.Basic

/-!
Generators that are called again and again, each time for some more of what they have to put out,
and keep no more than a cursor between calls.

`Resumes gen Inv rest` says that every call puts out a piece of what is left, `rest`, is done only
when nothing is, and keeps `Inv`. However such a generator is called, the pieces make up what was
left at the start (`Resumes.drain`), and all of it where it is called often enough with an input
that it makes something of (`Resumes.drain_all`).
-/

namespace OneRom.Resumable

variable {σ ι β ε : Type}

/-- From a cursor and a call's input: what is put out, whether it is done, and the cursor after. -/
abbrev Generator (σ ι β ε : Type) : Type := σ → ι → Except ε (List β × Bool × σ)

/-- A call that was made: its input, what it put out, and whether it said it was done. -/
structure Call (ι β : Type) where
  input : ι
  out : List β
  done : Bool

/-- What calls put out. -/
def sent (calls : List (Call ι β)) : List β := calls.flatMap Call.out

/-- Calls `gen` with each input in turn, until it is done. -/
def drain (gen : Generator σ ι β ε) : σ → List ι → Except ε (List (Call ι β) × σ)
  | s, [] => .ok ([], s)
  | s, i :: is =>
    match gen s i with
    | .error e => .error e
    | .ok (out, true, t) => .ok ([⟨i, out, true⟩], t)
    | .ok (out, false, t) =>
      match drain gen t is with
      | .error e => .error e
      | .ok (calls, u) => .ok (⟨i, out, false⟩ :: calls, u)

/-- A call takes a piece off `rest`, and a call that is done takes the last. -/
structure Resumes (gen : Generator σ ι β ε) (Inv : σ → Prop) (rest : σ → List β) : Prop where
  step : ∀ s i, Inv s → ∃ out done t, gen s i = .ok (out, done, t) ∧ Inv t ∧
    rest s = out ++ rest t ∧ (done = true → rest t = [])

/-- The call that takes the last of `rest` is done. -/
def Prompt (gen : Generator σ ι β ε) (Inv : σ → Prop) (rest : σ → List β) : Prop :=
  ∀ s i out done t, Inv s → gen s i = .ok (out, done, t) → rest t = [] → done = true

@[simp] lemma sent_nil : sent ([] : List (Call ι β)) = [] := rfl
@[simp] lemma sent_cons (c : Call ι β) (calls : List (Call ι β)) :
    sent (c :: calls) = c.out ++ sent calls := List.flatMap_cons
@[simp] lemma sent_append (calls calls' : List (Call ι β)) :
    sent (calls ++ calls') = sent calls ++ sent calls' := List.flatMap_append

section Drain

variable {gen : Generator σ ι β ε} {s t u : σ} {i : ι} {is js : List ι} {out : List β}
  {calls calls' : List (Call ι β)}

lemma drain_done (h : gen s i = .ok (out, true, t)) :
    drain gen s (i :: is) = .ok ([⟨i, out, true⟩], t) := by
  rw [drain, h]

lemma drain_more (h : gen s i = .ok (out, false, t)) (h' : drain gen t is = .ok (calls, u)) :
    drain gen s (i :: is) = .ok (⟨i, out, false⟩ :: calls, u) := by
  rw [drain, h]
  dsimp only
  rw [h']

/-- A drain that was not done goes on where it stopped. -/
lemma drain_append (h : drain gen s is = .ok (calls, t)) (hdone : ∀ c ∈ calls, c.done = false)
    (h' : drain gen t js = .ok (calls', u)) :
    drain gen s (is ++ js) = .ok (calls ++ calls', u) := by
  induction is generalizing s calls with
  | nil =>
    cases h
    exact h'
  | cons i is ih =>
    rw [drain] at h
    split at h
    · cases h
    · cases h
      exact absurd (hdone _ List.mem_cons_self) (by simp)
    · next out t' hgen =>
      split at h
      · cases h
      · next calls₁ u₁ hdrain =>
        cases h
        exact drain_more hgen (ih hdrain fun c hc => hdone c (List.mem_cons_of_mem _ hc))

end Drain

namespace Resumes

variable {gen : Generator σ ι β ε} {Inv : σ → Prop} {rest : σ → List β}

/-- What a call is known to do, of the one result it has. -/
lemma step_ok (h : Resumes gen Inv rest) {s t : σ} {i : ι} {out : List β} {done : Bool}
    (hs : Inv s) (hgen : gen s i = .ok (out, done, t)) :
    Inv t ∧ rest s = out ++ rest t ∧ (done = true → rest t = []) := by
  obtain ⟨out', done', t', hgen', ht, hrest, hdone⟩ := h.step s i hs
  rw [hgen] at hgen'
  cases hgen'
  exact ⟨ht, hrest, hdone⟩

/-- **Draining** puts out what is left, piece by piece, however the generator is called. -/
theorem drain (h : Resumes gen Inv rest) {s : σ} (hs : Inv s) (is : List ι) :
    ∃ calls t, Resumable.drain gen s is = .ok (calls, t) ∧ Inv t ∧
      rest s = sent calls ++ rest t := by
  induction is generalizing s with
  | nil => exact ⟨[], s, rfl, hs, rfl⟩
  | cons i is ih =>
    obtain ⟨out, done, t, hgen, ht, hrest, -⟩ := h.step s i hs
    cases done with
    | true => exact ⟨[⟨i, out, true⟩], t, drain_done hgen, ht, by simpa using hrest⟩
    | false =>
      obtain ⟨calls, u, hdrain, hu, hleft⟩ := ih ht
      exact ⟨⟨i, out, false⟩ :: calls, u, drain_more hgen hdrain, hu,
        by rw [hrest, hleft, sent_cons, List.append_assoc]⟩

/-- What was left at one of the calls of a drain, and what that call made of it. -/
lemma drain_call (h : Resumes gen Inv rest) {s t : σ} {is : List ι}
    {calls pre post : List (Call ι β)} {c : Call ι β} (hs : Inv s)
    (hdrain : Resumable.drain gen s is = .ok (calls, t)) (hcalls : calls = pre ++ c :: post) :
    ∃ u v, Inv u ∧ gen u c.input = .ok (c.out, c.done, v) ∧ rest s = sent pre ++ rest u ∧
      (c.done = true → post = []) := by
  induction is generalizing s calls pre with
  | nil =>
    cases hdrain
    simp at hcalls
  | cons i is ih =>
    rw [Resumable.drain] at hdrain
    split at hdrain
    · cases hdrain
    · next out v hgen =>
      cases hdrain
      cases pre with
      | nil =>
        obtain ⟨rfl, rfl⟩ := List.cons.inj hcalls
        exact ⟨s, _, hs, hgen, rfl, fun _ => rfl⟩
      | cons => simp at hcalls
    · next out v hgen =>
      split at hdrain
      · cases hdrain
      next calls' w hdrain' =>
      cases hdrain
      cases pre with
      | nil =>
        obtain ⟨rfl, rfl⟩ := List.cons.inj hcalls
        exact ⟨s, v, hs, hgen, rfl, fun hdone => by cases hdone⟩
      | cons c' pre =>
        obtain ⟨rfl, hcalls'⟩ := List.cons.inj hcalls
        obtain ⟨hv, hrest, -⟩ := h.step_ok hs hgen
        obtain ⟨u, x, hu, hgenu, hleft, hpost⟩ := ih hv hdrain' hcalls'
        exact ⟨u, x, hu, hgenu, by rw [hrest, hleft, sent_cons, List.append_assoc], hpost⟩

/-- A call that is done has put out the last of what was left. -/
lemma sent_of_done (h : Resumes gen Inv rest) {s t : σ} {is : List ι}
    {calls pre post : List (Call ι β)} {c : Call ι β} (hs : Inv s)
    (hdrain : Resumable.drain gen s is = .ok (calls, t)) (hcalls : calls = pre ++ c :: post)
    (hdone : c.done = true) : sent (pre ++ [c]) = rest s := by
  obtain ⟨u, v, hu, hgen, hleft, -⟩ := h.drain_call hs hdrain hcalls
  obtain ⟨-, hrest, hnil⟩ := h.step_ok hu hgen
  simp [hleft, hrest, hnil hdone]

lemma not_done (h : Resumes gen Inv rest) {s t : σ} {is : List ι} {calls : List (Call ι β)}
    (hs : Inv s) (hdrain : Resumable.drain gen s is = .ok (calls, t))
    (hleft : rest s = sent calls ++ rest t) (hne : rest t ≠ []) :
    ∀ c ∈ calls, c.done = false := by
  intro c hc
  obtain ⟨pre, post, rfl⟩ := List.append_of_mem hc
  by_contra hdone
  have hall := h.sent_of_done hs hdrain rfl (by simpa using hdone)
  have hsplit : sent (pre ++ c :: post) = sent (pre ++ [c]) ++ sent post := by simp
  rw [← hall, hsplit, List.append_assoc] at hleft
  exact hne (List.append_eq_nil_iff.mp (List.self_eq_append_right.mp hleft)).2

/-- The call that is done is the one that puts out the last of what was left. -/
theorem done_iff (h : Resumes gen Inv rest) (hprompt : Prompt gen Inv rest) {s t : σ}
    {is : List ι} {calls pre post : List (Call ι β)} {c : Call ι β} (hs : Inv s)
    (hdrain : Resumable.drain gen s is = .ok (calls, t)) (hne : rest s ≠ [])
    (hcalls : calls = pre ++ c :: post) :
    c.done = true ↔ c.out ≠ [] ∧ sent (pre ++ [c]) = rest s := by
  constructor
  · intro hdone
    have hall := h.sent_of_done hs hdrain hcalls hdone
    refine ⟨fun hout => ?_, hall⟩
    -- had it put out nothing, the call before it would have been done
    have hpre : sent pre = rest s := by rw [← hall]; simp [hout]
    rcases List.eq_nil_or_concat pre with rfl | ⟨pre', c', rfl⟩
    · exact hne hpre.symm
    · have hcalls' : calls = pre' ++ c' :: c :: post := by simpa using hcalls
      obtain ⟨u, v, hu, hgen, hleft, hpost⟩ := h.drain_call hs hdrain hcalls'
      obtain ⟨-, hrest, -⟩ := h.step_ok hu hgen
      have hv : rest v = [] := by
        rw [hleft, hrest] at hpre
        simpa using hpre
      exact List.cons_ne_nil _ _ (hpost (hprompt _ _ _ _ _ hu hgen hv))
  · rintro ⟨-, hall⟩
    obtain ⟨u, v, hu, hgen, hleft, -⟩ := h.drain_call hs hdrain hcalls
    obtain ⟨-, hrest, -⟩ := h.step_ok hu hgen
    refine hprompt _ _ _ _ _ hu hgen ?_
    rw [hleft, hrest] at hall
    simpa using hall

/-- **Fairness**: where inputs that the generator makes something of keep coming, it comes to the
end of what was left. -/
theorem drain_all (h : Resumes gen Inv rest) {Feeds : ι → Prop}
    (hfeeds : ∀ s i out done t, Inv s → Feeds i → rest s ≠ [] →
      gen s i = .ok (out, done, t) → out ≠ [])
    {s : σ} (hs : Inv s) (ms : ℕ → ι) (hfair : ∀ n, ∃ k, n ≤ k ∧ Feeds (ms k)) :
    ∃ n calls t, Resumable.drain gen s ((List.range n).map ms) = .ok (calls, t) ∧
      sent calls = rest s := by
  induction hlen : (rest s).length using Nat.strongRecOn generalizing s ms with
  | _ len ih =>
    by_cases hnil : rest s = []
    · exact ⟨0, [], s, rfl, hnil.symm⟩
    -- the calls up to the first that makes something, that call, and the rest by induction
    obtain ⟨k, -, hk⟩ := hfair 0
    obtain ⟨calls, t, hdrain, ht, hleft⟩ := h.drain hs ((List.range k).map ms)
    by_cases htnil : rest t = []
    · exact ⟨k, calls, t, hdrain, by rw [hleft, htnil, List.append_nil]⟩
    obtain ⟨out, done, u, hgen, hu, hrest, hdone⟩ := h.step t (ms k) ht
    have hout := hfeeds t (ms k) out done u ht hk htnil hgen
    have hnot := h.not_done hs hdrain hleft htnil
    have hrange : (List.range k).map ms ++ [ms k] = (List.range (k + 1)).map ms := by
      rw [List.range_succ, List.map_append, List.map_singleton]
    cases done with
    | true =>
      refine ⟨k + 1, calls ++ [⟨ms k, out, true⟩], u, ?_, ?_⟩
      · rw [← hrange]
        exact drain_append hdrain hnot (drain_done hgen)
      · rw [hleft, hrest, hdone rfl]
        simp
    | false =>
      have hshort : (rest u).length < len := by
        have hpos := List.length_pos_of_ne_nil hout
        rw [← hlen, hleft, hrest, List.length_append, List.length_append]
        omega
      have hfair' : ∀ n, ∃ j, n ≤ j ∧ Feeds (ms (k + 1 + j)) := by
        intro n
        obtain ⟨j, hj, hms⟩ := hfair (k + 1 + n)
        exact ⟨j - (k + 1), by omega, by rwa [show k + 1 + (j - (k + 1)) = j by omega]⟩
      obtain ⟨n, calls', v, hdrain', hsent⟩ := ih _ hshort hu (fun j => ms (k + 1 + j)) hfair' rfl
      refine ⟨k + 1 + n, calls ++ ⟨ms k, out, false⟩ :: calls', v, ?_, ?_⟩
      · rw [List.range_add, List.map_append, ← hrange, List.append_assoc, List.map_map]
        exact drain_append hdrain hnot (drain_more hgen hdrain')
      · rw [hleft, hrest, ← hsent]
        simp

end Resumes

end OneRom.Resumable
