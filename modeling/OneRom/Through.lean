import Mathlib.Data.List.Basic
import Mathlib.Logic.Function.Basic

/-!
An array kept in a memory: a cell has a place there, and a value stands for it that reads back.

Where cells have places of their own, writing them through the memory is writing them.
-/

namespace OneRom.Through

variable {ι κ α β : Type} [DecidableEq ι] [DecidableEq κ]

/-- An array with some of its cells written, one after the other. -/
def lay (cells : ι → α) (writes : List (ι × α)) : ι → α :=
  writes.foldl (fun cells write => Function.update cells write.1 write.2) cells

@[simp] lemma lay_nil (cells : ι → α) : lay cells [] = cells := rfl
@[simp] lemma lay_cons (cells : ι → α) (write : ι × α) (writes : List (ι × α)) :
    lay cells (write :: writes) = lay (Function.update cells write.1 write.2) writes := rfl

lemma lay_append (cells : ι → α) (writes writes' : List (ι × α)) :
    lay cells (writes ++ writes') = lay (lay cells writes) writes' := List.foldl_append

/-- Cells that aren't written keep what they held. -/
lemma lay_of_notMem {cells : ι → α} {writes : List (ι × α)} {i : ι}
    (h : i ∉ writes.map Prod.fst) : lay cells writes i = cells i := by
  induction writes generalizing cells with
  | nil => rfl
  | cons write writes ih =>
    rw [List.map_cons, List.mem_cons, not_or] at h
    rw [lay_cons, ih h.2, Function.update_of_ne h.1]

/-- A cell that is written once holds what was written. -/
lemma lay_of_mem {cells : ι → α} {writes : List (ι × α)} {i : ι} {a : α}
    (hnodup : (writes.map Prod.fst).Nodup) (h : (i, a) ∈ writes) : lay cells writes i = a := by
  induction writes generalizing cells with
  | nil => cases h
  | cons write writes ih =>
    rw [List.map_cons, List.nodup_cons] at hnodup
    rw [lay_cons]
    rcases List.mem_cons.mp h with rfl | h
    · rw [lay_of_notMem hnodup.1, Function.update_self]
    · exact ih hnodup.2 h

/-- What is laid over a cell depends on that cell. -/
lemma lay_congr {cells cells' : ι → α} (writes : List (ι × α)) {i : ι} (h : cells i = cells' i) :
    lay cells writes i = lay cells' writes i := by
  induction writes generalizing cells cells' with
  | nil => exact h
  | cons write writes ih =>
    rw [lay_cons, lay_cons]
    refine ih ?_
    by_cases hi : i = write.1
    · subst hi
      rw [Function.update_self, Function.update_self]
    · rw [Function.update_of_ne hi, Function.update_of_ne hi, h]

/-- Writes of other cells, before and after. -/
lemma lay_between {cells : ι → α} {before writes after : List (ι × α)} {i : ι}
    (hbefore : i ∉ before.map Prod.fst) (hafter : i ∉ after.map Prod.fst) :
    lay cells (before ++ writes ++ after) i = lay cells writes i := by
  rw [lay_append, lay_of_notMem hafter, lay_append]
  exact lay_congr writes (lay_of_notMem hbefore)

/-- Writes of other cells, in between. -/
lemma lay_around {cells : ι → α} {before writes after : List (ι × α)} {i : ι}
    (h : i ∉ writes.map Prod.fst) :
    lay cells (before ++ writes ++ after) i = lay cells (before ++ after) i := by
  rw [lay_append, lay_append, lay_append]
  exact lay_congr after (lay_of_notMem h)

/-- Cells that have places in a memory. -/
structure Store (ι κ α β : Type) where
  valid : ι → Prop
  place : ι → κ
  encode : α → β
  decode : β → α
  place_inj : ∀ {i j}, valid i → valid j → place i = place j → i = j
  decode_encode : ∀ a, decode (encode a) = a

namespace Store

variable (s : Store ι κ α β) {writes : List (ι × α)} {mem : κ → β} {i j : ι}

/-- The array, as it is read from a memory. -/
def read (mem : κ → β) (i : ι) : α := s.decode (mem (s.place i))

/-- A write of a cell, in the memory. -/
def entry (write : ι × α) : κ × β := (s.place write.1, s.encode write.2)

lemma read_update (hi : s.valid i) (hj : s.valid j) (a : α) :
    s.read (Function.update mem (s.place i) (s.encode a)) j =
      Function.update (s.read mem) i a j := by
  by_cases hij : j = i
  · subst hij
    rw [read, Function.update_self, Function.update_self, s.decode_encode]
  · have hplace : s.place j ≠ s.place i := fun h => hij (s.place_inj hj hi h)
    rw [read, Function.update_of_ne hplace, Function.update_of_ne hij, read]

/-- **Writing cells through the memory is writing them.** -/
theorem read_lay (h : ∀ write ∈ writes, s.valid write.1) (hj : s.valid j) :
    s.read (lay mem (writes.map s.entry)) j = lay (s.read mem) writes j := by
  induction writes generalizing mem with
  | nil => rfl
  | cons write writes ih =>
    rw [List.map_cons, lay_cons, lay_cons, ih fun w hw => h w (List.mem_cons_of_mem _ hw)]
    exact lay_congr writes (s.read_update (h write List.mem_cons_self) hj write.2)

end Store

end OneRom.Through
