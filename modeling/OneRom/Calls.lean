import Mathlib.Init

/-!
Calls that read one stream between them. Each reads on until a step of it returns, and the next
call reads what is left. Two readers that agree step by step agree on every stream.
-/

namespace OneRom.Calls

variable {κ ι ρ σ τ : Type}

/-- How a call begins, and what it does with what it reads. -/
structure Reader (κ ι ρ σ : Type) where
  start : κ → σ → σ
  step : κ → σ → ι → σ × Option ρ

/-- What the calls have returned, and the call that is reading, if one is. -/
structure Stand (κ ρ σ : Type) where
  returned : List ρ
  call : Option κ
  state : σ

namespace Reader

variable (r : Reader κ ι ρ σ)

/-- A call's steps up to the one that returns, and what is left of the stream then. -/
def readUntil (k : κ) (s : σ) : List ι → σ × Option (ρ × List ι)
  | [] => (s, none)
  | i :: input =>
    match r.step k s i with
    | (s', none) => readUntil k s' input
    | (s', some out) => (s', some (out, input))

def run (s : σ) : List κ → List ι → Stand κ ρ σ
  | [], _ => ⟨[], none, s⟩
  | k :: calls, input =>
    match r.readUntil k (r.start k s) input with
    | (s', none) => ⟨[], some k, s'⟩
    | (s', some (out, rest)) =>
      { run s' calls rest with returned := out :: (run s' calls rest).returned }

/-- Every step of a call meets a condition. -/
def AlongCall (P : κ → σ → ι → Prop) (k : κ) (s : σ) : List ι → Prop
  | [] => True
  | i :: input => P k s i ∧
    match r.step k s i with
    | (s', none) => AlongCall P k s' input
    | (_, some _) => True

/-- Every step of the calls meets a condition. -/
def Along (P : κ → σ → ι → Prop) (s : σ) : List κ → List ι → Prop
  | [], _ => True
  | k :: calls, input => r.AlongCall P k (r.start k s) input ∧
    match r.readUntil k (r.start k s) input with
    | (_, none) => True
    | (s', some (_, rest)) => Along P s' calls rest

variable {r} {P : κ → σ → ι → Prop}

/-- What a call leaves is a part of the stream. -/
lemma subset_of_readUntil {k : κ} {s s' : σ} {input rest : List ι} {out : ρ}
    (h : r.readUntil k s input = (s', some (out, rest))) : rest ⊆ input := by
  induction input generalizing s with
  | nil => cases h
  | cons i input ih =>
    rw [readUntil] at h
    split at h
    · exact fun x hx => List.mem_cons_of_mem _ (ih h hx)
    · obtain ⟨-, ⟨⟩⟩ := h
      exact List.subset_cons_self _ _

/-- A condition on what is read alone. -/
lemma alongCall_of_forall {k : κ} {s : σ} {input : List ι} (h : ∀ k s, ∀ i ∈ input, P k s i) :
    r.AlongCall P k s input := by
  induction input generalizing s with
  | nil => exact trivial
  | cons i input ih =>
    refine ⟨h k s i List.mem_cons_self, ?_⟩
    split
    · exact ih fun k s i hi => h k s i (List.mem_cons_of_mem _ hi)
    · exact trivial

lemma along_of_forall {s : σ} {calls : List κ} {input : List ι} (h : ∀ k s, ∀ i ∈ input, P k s i) :
    r.Along P s calls input := by
  induction calls generalizing s input with
  | nil => exact trivial
  | cons k calls ih =>
    refine ⟨alongCall_of_forall h, ?_⟩
    split
    · exact trivial
    · next hread => exact ih fun k s i hi => h k s i (subset_of_readUntil hread hi)

end Reader

/-! ### Readers that agree -/

variable (r : Reader κ ι ρ σ) (r' : Reader κ ι ρ τ)

/-- A relation between calls and one within a call that starting and stepping keep, where the
steps meet a condition. -/
structure Agrees (between : σ → τ → Prop) (within : κ → σ → τ → Prop) (Call : κ → Prop)
    (P : κ → σ → ι → Prop) : Prop where
  start : ∀ {k s t}, Call k → between s t → within k (r.start k s) (r'.start k t)
  result : ∀ {k s t i}, within k s t → P k s i → (r.step k s i).2 = (r'.step k t i).2
  on : ∀ {k s t i}, within k s t → P k s i → (r.step k s i).2 = none →
    within k (r.step k s i).1 (r'.step k t i).1
  done : ∀ {k s t i}, within k s t → P k s i → (r.step k s i).2 ≠ none →
    between (r.step k s i).1 (r'.step k t i).1

/-- Two stands that agree. -/
structure Stand.Agrees (between : σ → τ → Prop) (within : κ → σ → τ → Prop) (x : Stand κ ρ σ)
    (y : Stand κ ρ τ) : Prop where
  returned : x.returned = y.returned
  call : x.call = y.call
  idle : x.call = none → between x.state y.state
  reading : ∀ k, x.call = some k → within k x.state y.state

variable {r r'} {between : σ → τ → Prop} {within : κ → σ → τ → Prop} {Call : κ → Prop}
  {P : κ → σ → ι → Prop}

/-- Two calls read on alike, and return alike. -/
lemma Agrees.readUntil (h : Agrees r r' between within Call P) {k : κ} {s : σ} {t : τ}
    (hst : within k s t) {input : List ι} (hP : r.AlongCall P k s input) :
    (r.readUntil k s input).2 = (r'.readUntil k t input).2 ∧
      ((r.readUntil k s input).2 = none →
        within k (r.readUntil k s input).1 (r'.readUntil k t input).1) ∧
      ((r.readUntil k s input).2 ≠ none →
        between (r.readUntil k s input).1 (r'.readUntil k t input).1) := by
  induction input generalizing s t with
  | nil => exact ⟨rfl, fun _ => hst, fun hne => absurd rfl hne⟩
  | cons i input ih =>
    obtain ⟨hi, hrest⟩ := hP
    have hresult := h.result hst hi
    have hon := h.on hst hi
    have hdone := h.done hst hi
    rw [Reader.readUntil, Reader.readUntil]
    cases hs : r.step k s i with
    | mk s' out =>
      cases ht : r'.step k t i with
      | mk t' out' =>
        rw [hs] at hresult hon hdone hrest
        rw [ht] at hresult hon hdone
        obtain rfl : out = out' := hresult
        cases out with
        | none => exact ih (hon rfl) hrest
        | some out => exact ⟨rfl, nofun, fun _ => hdone nofun⟩

/-- Readers that agree step by step agree on every stream. -/
theorem Agrees.run (h : Agrees r r' between within Call P) {s : σ} {t : τ} (hst : between s t)
    {calls : List κ} (hcalls : ∀ k ∈ calls, Call k) {input : List ι}
    (hP : r.Along P s calls input) :
    (r.run s calls input).Agrees between within (r'.run t calls input) := by
  induction calls generalizing s t input with
  | nil => exact ⟨rfl, rfl, fun _ => hst, nofun⟩
  | cons k calls ih =>
    obtain ⟨hk, hcalls⟩ := List.forall_mem_cons.mp hcalls
    obtain ⟨hcall, hrest⟩ := hP
    obtain ⟨hresult, hon, hdone⟩ := h.readUntil (h.start hk hst) hcall
    rw [Reader.run, Reader.run]
    cases hs : r.readUntil k (r.start k s) input with
    | mk s' out =>
      cases ht : r'.readUntil k (r'.start k t) input with
      | mk t' out' =>
        rw [hs] at hresult hon hdone hrest
        rw [ht] at hresult hon hdone
        obtain rfl : out = out' := hresult
        cases out with
        | none => exact ⟨rfl, rfl, nofun, fun k' hk' => Option.some.inj hk' ▸ hon rfl⟩
        | some out =>
          obtain ⟨out, rest⟩ := out
          have hagrees := ih (hdone nofun) hcalls hrest
          exact ⟨congrArg (out :: ·) hagrees.returned, hagrees.call, hagrees.idle,
            hagrees.reading⟩

end OneRom.Calls
