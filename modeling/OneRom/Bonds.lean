import Mathlib

/-!
A search over choices. Each place has its options, a combination of the choices is a number, and
the first combination with the lowest score is kept.
-/

namespace OneRom.Bonds

/-! ### Lists in step -/

section InStep

variable {α β γ : Type} {R : α → β → Prop} {S : β → γ → Prop}

lemma exists_left {l : List α} {r : List β} (h : List.Forall₂ R l r) {b : β} (hb : b ∈ r) :
    ∃ a ∈ l, R a b := by
  induction h with
  | nil => cases hb
  | cons hr _ ih =>
    rcases List.mem_cons.mp hb with rfl | hb
    · exact ⟨_, List.mem_cons_self, hr⟩
    · obtain ⟨a, ha, hr⟩ := ih hb
      exact ⟨a, List.mem_cons_of_mem _ ha, hr⟩

lemma forall₂_comp {l : List α} {r : List β} {t : List γ} (h : List.Forall₂ R l r)
    (h' : List.Forall₂ S r t) : List.Forall₂ (fun a c => ∃ b, R a b ∧ S b c) l t := by
  induction h generalizing t with
  | nil =>
    cases h'
    exact .nil
  | cons hr _ ih =>
    cases h' with
    | cons hs htail => exact .cons ⟨_, hr, hs⟩ (ih htail)

/-- Where every element of the left list is in step with its own, those of the right differ. -/
lemma nodup_of_forall₂ {l : List α} {r : List β} (h : List.Forall₂ R l r) (hl : l.Nodup)
    (hinj : ∀ a a' b, R a b → R a' b → a = a') : r.Nodup := by
  induction h with
  | nil => exact List.nodup_nil
  | cons hr htail ih =>
    obtain ⟨hout, hl⟩ := List.nodup_cons.mp hl
    refine List.nodup_cons.mpr ⟨fun hin => ?_, ih hl⟩
    obtain ⟨a, ha, hr'⟩ := exists_left htail hin
    exact hout (hinj _ _ _ hr hr' ▸ ha)

lemma getElem?_toList {l : List α} (h : l.length ≤ 2) : l[0]?.toList ++ l[1]?.toList = l := by
  match l with
  | [] => rfl
  | [_] => rfl
  | [_, _] => rfl

end InStep

/-! ### Combinations -/

/-- The places with a choice. -/
def twoOptionSlots (candidates : List (List ℕ)) : List ℕ :=
  (candidates.zipIdx.filter fun (opts, _) => 1 < opts.length).map (·.2)

/-- What a combination chooses at a place: the first option, unless the bit that stands for the
place says otherwise. -/
def choice (slots : List ℕ) (combo i : ℕ) : ℕ :=
  match slots.idxOf? i with
  | some bit => combo >>> bit &&& 1
  | none => 0

/-- The options a combination chooses. -/
def resolve (candidates : List (List ℕ)) (combo : ℕ) : List ℕ :=
  candidates.zipIdx.map fun (opts, i) => opts.getD (choice (twoOptionSlots candidates) combo i) 0

def numCombos (candidates : List (List ℕ)) : ℕ := 2 ^ (twoOptionSlots candidates).length

lemma mem_twoOptionSlots {candidates : List (List ℕ)} {i : ℕ} :
    i ∈ twoOptionSlots candidates ↔ ∃ opts, candidates[i]? = some opts ∧ 1 < opts.length := by
  simp only [twoOptionSlots, List.mem_map, List.mem_filter, Prod.exists, exists_eq_right,
    List.mem_zipIdx_iff_getElem?, decide_eq_true_eq]

/-- A combination chooses one of the options. -/
lemma choice_lt {candidates : List (List ℕ)} {combo i : ℕ} {opts : List ℕ}
    (hi : candidates[i]? = some opts) (hne : opts ≠ []) :
    choice (twoOptionSlots candidates) combo i < opts.length := by
  unfold choice
  split
  · next bit hbit =>
    have hmem : i ∈ twoOptionSlots candidates := by
      by_contra hout
      rw [List.idxOf?_eq_none_iff.mpr hout] at hbit
      cases hbit
    obtain ⟨opts', hi', hlen⟩ := mem_twoOptionSlots.mp hmem
    obtain rfl : opts = opts' := Option.some.inj (hi.symm.trans hi')
    exact (Nat.and_le_right.trans_lt (by decide : 1 < 2)).trans_le hlen
  · exact List.length_pos_iff.mpr hne

/-- Each of the chosen is an option of its place. -/
lemma resolve_mem {candidates : List (List ℕ)} (h : ∀ opts ∈ candidates, opts ≠ [])
    (combo : ℕ) : List.Forall₂ (fun opts g => g ∈ opts) candidates (resolve candidates combo) := by
  rw [List.forall₂_iff_get]
  refine ⟨by simp [resolve], fun i hi _ => ?_⟩
  have hget : candidates[i]? = some candidates[i] := List.getElem?_eq_getElem hi
  have hlt : choice (twoOptionSlots candidates) combo i < candidates[i].length :=
    choice_lt hget (h _ (List.getElem_mem hi))
  simp only [resolve, List.get_eq_getElem, List.getElem_map, List.getElem_zipIdx, zero_add]
  rw [List.getD_eq_getElem _ _ hlt]
  exact List.getElem_mem hlt

/-- The combination that chooses the given options. -/
def comboFor (candidates : List (List ℕ)) (gpios : List ℕ) : ℕ :=
  let slots := twoOptionSlots candidates
  Nat.ofBits fun bit : Fin slots.length =>
    (candidates.getD slots[bit] []).idxOf (gpios.getD slots[bit] 0) == 1

lemma comboFor_lt (candidates : List (List ℕ)) (gpios : List ℕ) :
    comboFor candidates gpios < numCombos candidates :=
  Nat.ofBits_lt_two_pow _

/-- At a place of one or two options, the combination chooses the given one. -/
lemma getD_choice_comboFor {candidates : List (List ℕ)} {gpios opts : List ℕ} {i g : ℕ}
    (hi : candidates[i]? = some opts) (hg : gpios[i]? = some g) (hlen : opts.length ≤ 2)
    (hmem : g ∈ opts) :
    opts.getD (choice (twoOptionSlots candidates) (comboFor candidates gpios) i) 0 = g := by
  suffices h : choice (twoOptionSlots candidates) (comboFor candidates gpios) i = opts.idxOf g by
    rw [h, List.getD_eq_getElem _ _ (List.idxOf_lt_length_iff.mpr hmem), List.getElem_idxOf]
  have hlt := List.idxOf_lt_length_iff.mpr hmem
  unfold choice
  cases hbit : (twoOptionSlots candidates).idxOf? i with
  | none =>
    -- a place without a choice has one option
    have hone : ¬1 < opts.length := fun hone =>
      List.idxOf?_eq_none_iff.mp hbit (mem_twoOptionSlots.mpr ⟨opts, hi, hone⟩)
    dsimp only
    omega
  | some bit =>
    obtain ⟨hbitLt, hslot, -⟩ := List.idxOf?_eq_some_iff.mp hbit
    have hslot : (twoOptionSlots candidates)[bit] = i := hslot
    have htest : (comboFor candidates gpios).testBit bit = (opts.idxOf g == 1) := by
      rw [comboFor, Nat.testBit_ofBits_lt _ _ hbitLt]
      simp [hslot, hi, hg]
    have hchoice : comboFor candidates gpios >>> bit &&& 1 =
        ((comboFor candidates gpios).testBit bit).toNat := by
      rw [Nat.toNat_testBit, Nat.and_one_is_mod, Nat.shiftRight_eq_div_pow]
    dsimp only
    rw [hchoice, htest]
    by_cases hfirst : opts.idxOf g = 1
    · simp [hfirst]
    · simp only [beq_eq_false_iff_ne.mpr hfirst, Bool.toNat_false]
      omega

/-- Where every place has one or two options, each way to choose from them is a combination. -/
lemma resolve_comboFor {candidates : List (List ℕ)} {gpios : List ℕ}
    (hlen : ∀ opts ∈ candidates, opts.length ≤ 2)
    (h : List.Forall₂ (fun opts g => g ∈ opts) candidates gpios) :
    resolve candidates (comboFor candidates gpios) = gpios := by
  refine List.ext_getElem (by simp [resolve, h.length_eq]) fun i hi hi' => ?_
  have hlt : i < candidates.length := h.length_eq ▸ hi'
  simp only [resolve, List.getElem_map, List.getElem_zipIdx, zero_add]
  exact getD_choice_comboFor (List.getElem?_eq_getElem hlt) (List.getElem?_eq_getElem hi')
    (hlen _ (List.getElem_mem hlt)) (List.Forall₂.get h hlt hi')

/-! ### The best one -/

section Search

variable {α σ : Type} (lt : σ → σ → Bool)

/-- The better of the best so far and what is found next. -/
def keepBest (best found : Option (α × σ)) : Option (α × σ) :=
  match found, best with
  | none, _ => best
  | some x, none => some x
  | some x, some y => if lt x.2 y.2 then some x else some y

/-- The first of the best among the combinations below `n`. -/
def search (n : ℕ) (found : ℕ → Option (α × σ)) : Option α :=
  ((List.range n).foldl (fun best combo => keepBest lt best (found combo)) none).map (·.1)

variable {lt}

lemma keepBest_eq {best found : Option (α × σ)} {x : α × σ} (h : keepBest lt best found = some x) :
    best = some x ∨ found = some x := by
  unfold keepBest at h
  split at h
  · exact Or.inl h
  · exact Or.inr h
  · split_ifs at h
    · exact Or.inr h
    · exact Or.inl h

lemma foldl_keepBest {found : ℕ → Option (α × σ)} {combos : List ℕ} {best : Option (α × σ)}
    {x : α × σ}
    (h : combos.foldl (fun best combo => keepBest lt best (found combo)) best = some x) :
    best = some x ∨ ∃ combo ∈ combos, found combo = some x := by
  induction combos generalizing best with
  | nil => exact Or.inl h
  | cons combo combos ih =>
    rcases ih h with hbest | ⟨c, hc, hfound⟩
    · rcases keepBest_eq hbest with hbest | hfound
      · exact Or.inl hbest
      · exact Or.inr ⟨combo, List.mem_cons_self, hfound⟩
    · exact Or.inr ⟨c, List.mem_cons_of_mem _ hc, hfound⟩

/-- What a search returns is what one of the combinations gave. -/
lemma search_eq_some {n : ℕ} {found : ℕ → Option (α × σ)} {a : α} (h : search lt n found = some a) :
    ∃ combo < n, ∃ score, found combo = some (a, score) := by
  obtain ⟨⟨b, score⟩, hx, rfl⟩ := Option.map_eq_some_iff.mp h
  rcases foldl_keepBest hx with hnone | ⟨combo, hc, hfound⟩
  · cases hnone
  · exact ⟨combo, List.mem_range.mp hc, score, hfound⟩

/-- The best so far is no worse than another is, where there is another. -/
def NoWorse (lt : σ → σ → Bool) (best : Option (α × σ)) (other : α × σ) : Prop :=
  ∃ x, best = some x ∧ lt other.2 x.2 = false

lemma NoWorse.keepBest (htrans : ∀ a b c, lt a b → lt b c → lt a c) {best : Option (α × σ)}
    {y : α × σ} (found : Option (α × σ)) (h : NoWorse lt best y) :
    NoWorse lt (keepBest lt best found) y := by
  obtain ⟨x, rfl, hx⟩ := h
  cases found with
  | none => exact ⟨x, rfl, hx⟩
  | some z =>
    unfold Bonds.keepBest
    dsimp only
    split_ifs with hlt
    · refine ⟨z, rfl, Bool.eq_false_iff.mpr fun hz => ?_⟩
      rw [htrans _ _ _ hz hlt] at hx
      cases hx
    · exact ⟨x, rfl, hx⟩

lemma noWorse_keepBest (hirrefl : ∀ a, lt a a = false) (best : Option (α × σ)) (y : α × σ) :
    NoWorse lt (keepBest lt best (some y)) y := by
  unfold Bonds.keepBest
  cases best with
  | none => exact ⟨y, rfl, hirrefl _⟩
  | some x =>
    dsimp only
    split_ifs with hlt
    · exact ⟨y, rfl, hirrefl _⟩
    · exact ⟨x, rfl, Bool.eq_false_iff.mpr hlt⟩

/-- What is kept at the end is no worse than anything found on the way. -/
lemma noWorse_foldl (htrans : ∀ a b c, lt a b → lt b c → lt a c) (hirrefl : ∀ a, lt a a = false)
    {found : ℕ → Option (α × σ)} {combos : List ℕ} {best : Option (α × σ)} {y : α × σ}
    (h : NoWorse lt best y ∨ ∃ combo ∈ combos, found combo = some y) :
    NoWorse lt (combos.foldl (fun best combo => keepBest lt best (found combo)) best) y := by
  induction combos generalizing best with
  | nil =>
    rcases h with h | ⟨_, hc, _⟩
    · exact h
    · cases hc
  | cons c combos ih =>
    refine ih ?_
    rcases h with h | ⟨combo, hc, hy⟩
    · exact Or.inl (h.keepBest htrans _)
    · rcases List.mem_cons.mp hc with rfl | hc
      · refine Or.inl ?_
        dsimp only
        rw [hy]
        exact noWorse_keepBest hirrefl best y
      · exact Or.inr ⟨combo, hc, hy⟩

/-- What a search returns is the best of what the combinations give. -/
lemma search_best (htrans : ∀ a b c, lt a b → lt b c → lt a c) (hirrefl : ∀ a, lt a a = false)
    {n : ℕ} {found : ℕ → Option (α × σ)} {a : α} (h : search lt n found = some a) :
    ∃ score, (∃ combo < n, found combo = some (a, score)) ∧
      ∀ combo < n, ∀ y, found combo = some y → lt y.2 score = false := by
  obtain ⟨⟨b, score⟩, hx, rfl⟩ := Option.map_eq_some_iff.mp h
  refine ⟨score, ?_, fun combo hc y hy => ?_⟩
  · rcases foldl_keepBest hx with hnone | ⟨combo, hc, hfound⟩
    · cases hnone
    · exact ⟨combo, List.mem_range.mp hc, hfound⟩
  · have hworse : NoWorse lt ((List.range n).foldl
        (fun best combo => keepBest lt best (found combo)) none) y :=
      noWorse_foldl htrans hirrefl (Or.inr ⟨combo, List.mem_range.mpr hc, hy⟩)
    obtain ⟨x, hx', hle⟩ := hworse
    obtain rfl : x = (b, score) := Option.some.inj (hx'.symm.trans hx)
    exact hle

/-- A search that returns nothing has no combination that gives something. -/
lemma search_eq_none (htrans : ∀ a b c, lt a b → lt b c → lt a c) (hirrefl : ∀ a, lt a a = false)
    {n : ℕ} {found : ℕ → Option (α × σ)} (h : search lt n found = none) {combo : ℕ}
    (hc : combo < n) : found combo = none := by
  by_contra hsome
  obtain ⟨y, hy⟩ := Option.ne_none_iff_exists'.mp hsome
  have hworse : NoWorse lt ((List.range n).foldl
      (fun best combo => keepBest lt best (found combo)) none) y :=
    noWorse_foldl htrans hirrefl (Or.inr ⟨combo, List.mem_range.mpr hc, hy⟩)
  obtain ⟨x, hx, -⟩ := hworse
  rw [search, hx] at h
  cases h

end Search

/-! ### Runs of numbers -/

/-- The least and the greatest of a list. -/
def extent (l : List ℕ) : Option (ℕ × ℕ) := do return (← l.min?, ← l.max?)

lemma extent_bounds {l : List ℕ} {lo hi : ℕ} (h : extent l = some (lo, hi)) :
    lo ∈ l ∧ hi ∈ l ∧ ∀ g ∈ l, lo ≤ g ∧ g ≤ hi := by
  simp only [extent, Option.bind_eq_bind, Option.pure_def, Option.bind_eq_some_iff,
    Option.some.injEq, Prod.mk.injEq] at h
  obtain ⟨_, hlo, _, hhi, rfl, rfl⟩ := h
  rw [List.min?_eq_some_iff] at hlo
  rw [List.max?_eq_some_iff] at hhi
  exact ⟨hlo.1, hhi.1, fun g hg => ⟨hlo.2 g hg, hhi.2 g hg⟩⟩

/-- Different numbers, as many as there are between the least and the greatest, are a run. -/
lemma perm_range'_of_extent {l : List ℕ} {lo hi : ℕ} (h : extent l = some (lo, hi))
    (hnodup : l.Nodup) (hlen : hi - lo + 1 = l.length) : l.Perm (List.range' lo l.length) := by
  obtain ⟨-, hmem, hb⟩ := extent_bounds h
  have hle := (hb hi hmem).1
  refine (List.subperm_of_subset hnodup fun g hg => ?_).perm_of_length_le (by simp)
  obtain ⟨h1, h2⟩ := hb g hg
  exact List.mem_range'_1.mpr ⟨h1, by omega⟩

/-- How many numbers between the least and the greatest a list goes without. -/
lemma card_missing {l : List ℕ} {lo hi : ℕ} (h : extent l = some (lo, hi)) :
    (Finset.Icc lo hi \ l.toFinset).card + l.dedup.length = hi - lo + 1 := by
  obtain ⟨-, hmem, hb⟩ := extent_bounds h
  have hsub : l.toFinset ⊆ Finset.Icc lo hi := fun g hg => by
    rw [List.mem_toFinset] at hg
    exact Finset.mem_Icc.mpr (hb g hg)
  have hcard := Finset.card_sdiff_add_card_eq_card hsub
  rw [List.card_toFinset, Nat.card_Icc] at hcard
  have hle := (hb hi hmem).1
  omega

end OneRom.Bonds
