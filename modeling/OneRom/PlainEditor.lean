import OneRom.Editor

/-!
The line editor that is meant: a list of characters with a cursor in it, and the lines that were
entered before, the newest first. It has no screen.
-/

namespace OneRom.PlainEditor

open OneRom.Calls OneRom.Editor OneRom.SlotArg
open OneRom.HexFile (ascii)

inductive Key
  | char (c : Char)
  | backspace
  | delete
  | left
  | right
  | home
  | toEnd
  | up
  | down
  | enter
  | cancel
  deriving DecidableEq, Repr

/-- The key that a byte completes, and what is to follow it otherwise. -/
def keyOf : EscState → UInt8 → EscState × Option Key
  | .normal, b =>
    if b = 0x0D then (.normal, some .enter)
    else if b = 0x03 then (.normal, some .cancel)
    else if b = 0x1B then (.gotEsc, none)
    else if b = 0x08 ∨ b = 0x7F then (.normal, some .backspace)
    else if 0x20 ≤ b ∧ b ≤ 0x7E then (.normal, some (.char (Char.ofNat b.toNat)))
    else (.normal, none)
  | .gotEsc, b => (if b = ascii '[' then .gotBracket else .normal, none)
  | .gotBracket, b =>
    if b = ascii 'A' then (.normal, some .up)
    else if b = ascii 'B' then (.normal, some .down)
    else if b = ascii 'C' then (.normal, some .right)
    else if b = ascii 'D' then (.normal, some .left)
    else if b = ascii 'H' then (.normal, some .home)
    else if b = ascii 'F' then (.normal, some .toEnd)
    else if b = ascii '3' then (.gotBracket3, none)
    else (.normal, none)
  | .gotBracket3, b => (.normal, if b = ascii '~' then some .delete else none)

/-- The lines with one more, unless it is empty or the newest of them already. -/
def remember (lines : List Text) (line : Text) : List Text :=
  if line = [] ∨ lines.head? = some line then lines else line :: lines

structure Plain where
  line : Text
  cursor : ℕ
  /-- Which of the lines was recalled, and the line in progress, which is set aside. -/
  recalled : Option (ℕ × Text)
  lines : List Text
  esc : EscState

namespace Plain

def new : Plain := ⟨[], 0, none, [], .normal⟩

/-- Puts a line in place of the line, and the cursor at its end. -/
def replace (p : Plain) (line : Text) : Plain := { p with line := line, cursor := line.length }

/-- Recalls a line, setting another aside. -/
def bringBack (p : Plain) (n : ℕ) (draft : Text) : Plain :=
  { p.replace (p.lines.getD n []) with recalled := some (n, draft) }

/-- No more than the newest lines are within reach. -/
def reach (p : Plain) : ℕ := min p.lines.length HISTORY_CAP

def up (p : Plain) : Plain :=
  match p.recalled with
  | none => if p.lines = [] then p else p.bringBack 0 p.line
  | some (n, draft) => if n + 1 < p.reach then p.bringBack (n + 1) draft else p

def down (p : Plain) : Plain :=
  match p.recalled with
  | none => p
  | some (0, draft) => { p.replace draft with recalled := none }
  | some (n + 1, draft) => p.bringBack n draft

def press (p : Plain) (withHistory : Bool) : Key → Plain
  | .char c =>
    if p.line.length < LINE_BUF then
      { p with line := p.line.insertIdx p.cursor c, cursor := p.cursor + 1 }
    else p
  | .backspace =>
    if 0 < p.cursor then
      { p with line := p.line.eraseIdx (p.cursor - 1), cursor := p.cursor - 1 }
    else p
  | .delete => { p with line := p.line.eraseIdx p.cursor }
  | .left => { p with cursor := p.cursor - 1 }
  | .right => { p with cursor := min (p.cursor + 1) p.line.length }
  | .home => { p with cursor := 0 }
  | .toEnd => { p with cursor := p.line.length }
  | .up => if withHistory then p.up else p
  | .down => if withHistory then p.down else p
  | .enter => if withHistory then { p with lines := remember p.lines (trim p.line) } else p
  | .cancel => p

/-- What a key ends the call with. -/
def result (p : Plain) : Key → Option (Option Text)
  | .enter => some (some (trim p.line))
  | .cancel => some none
  | _ => none

end Plain

def plainEditor : Reader ReadLine UInt8 (Option Text) Plain where
  start _ p := { p with line := [], cursor := 0, recalled := none, esc := .normal }
  step call p b :=
    let p' := { p with esc := (keyOf p.esc b).1 }
    match (keyOf p.esc b).2 with
    | none => (p', none)
    | some key => (p'.press call.withHistory key, p'.result key)

/-! ### History -/

/-- The ring holds the newest lines. -/
def Keeps (h : History) (lines : List Text) : Prop :=
  h.count = min lines.length HISTORY_CAP ∧
    ∀ idx < h.count, h.entries.get (h.slot idx) = lines[idx]?

lemma keeps_new : Keeps .new [] := ⟨rfl, nofun⟩

lemma Keeps.get {h : History} {lines : List Text} (hkeeps : Keeps h lines) {idx : ℕ}
    (hidx : idx < h.count) : h.get idx = lines[idx]? := by
  rw [History.get, if_neg (by omega), hkeeps.2 idx hidx]

/-- The slot before the one that was written is the newest of those before. -/
lemma slot_succ (h : History) (entries : Vector (Option Text) HISTORY_CAP) (count idx : ℕ)
    (hidx : idx + 1 < HISTORY_CAP) :
    (⟨entries, ⟨(h.head + 1) % HISTORY_CAP, Nat.mod_lt _ (by decide)⟩, count⟩ : History).slot
        (idx + 1) = h.slot idx ∧ h.slot idx ≠ h.head := by
  have hhead : (h.head : ℕ) < 16 := h.head.isLt
  have hidx : idx + 1 < 16 := hidx
  refine ⟨Fin.ext ?_, fun heq => ?_⟩
  · change (((h.head : ℕ) + 1) % 16 + 16 - 1 - (idx + 1)) % 16 = ((h.head : ℕ) + 16 - 1 - idx) % 16
    omega
  · have hval : ((h.head : ℕ) + 16 - 1 - idx) % 16 = h.head := congrArg Fin.val heq
    omega

lemma slot_zero (h : History) (entries : Vector (Option Text) HISTORY_CAP) (count : ℕ) :
    (⟨entries, ⟨(h.head + 1) % HISTORY_CAP, Nat.mod_lt _ (by decide)⟩, count⟩ : History).slot 0 =
      h.head := by
  have hhead : (h.head : ℕ) < 16 := h.head.isLt
  refine Fin.ext ?_
  change (((h.head : ℕ) + 1) % 16 + 16 - 1 - 0) % 16 = h.head
  omega

lemma get_set_self (entries : Vector (Option Text) HISTORY_CAP) (i : Fin HISTORY_CAP)
    (line : Option Text) : (entries.set i line).get i = line := by
  simp [Vector.get_eq_getElem]

lemma get_set_ne (entries : Vector (Option Text) HISTORY_CAP) {i j : Fin HISTORY_CAP} (h : j ≠ i)
    (line : Option Text) : (entries.set i line).get j = entries.get j := by
  have hne : (i : ℕ) ≠ j := fun heq => h (Fin.ext heq.symm)
  simp [Vector.get_eq_getElem, hne]

/-- A line that is pushed is remembered, over the oldest where the ring is full. -/
lemma Keeps.push {h : History} {lines : List Text} (hkeeps : Keeps h lines) (line : Text) :
    Keeps (h.push line) (remember lines line) := by
  have hnewest : (0 < h.count ∧ h.get 0 = some line) ↔ lines.head? = some line := by
    cases lines with
    | nil =>
      have hcount : h.count = 0 := hkeeps.1
      simp [hcount]
    | cons first rest =>
      have hcount : 0 < h.count := by
        rw [hkeeps.1]
        simp [HISTORY_CAP]
      rw [hkeeps.get hcount]
      simp [hcount]
  rw [History.push, remember]
  by_cases hempty : line = []
  · rw [if_pos hempty, if_pos (.inl hempty)]
    exact hkeeps
  · by_cases hsame : lines.head? = some line
    · rw [if_neg hempty, if_pos (hnewest.mpr hsame), if_pos (.inr hsame)]
      exact hkeeps
    · rw [if_neg hempty, if_neg (mt hnewest.mp hsame), if_neg (not_or.mpr ⟨hempty, hsame⟩)]
      have hcount := hkeeps.1
      refine ⟨?_, fun idx hidx => ?_⟩
      · rw [List.length_cons]
        dsimp only
        split <;> omega
      · cases idx with
        | zero =>
          rw [slot_zero, get_set_self]
          rfl
        | succ idx =>
          have hcap : idx + 1 < HISTORY_CAP ∧ idx < h.count := by
            dsimp only at hidx
            split at hidx <;> omega
          obtain ⟨hslot, hne⟩ := slot_succ h (h.entries.set h.head (some line))
            (if h.count < HISTORY_CAP then h.count + 1 else h.count) idx hcap.1
          rw [hslot, get_set_ne _ hne, hkeeps.2 idx hcap.2]
          rfl

end OneRom.PlainEditor
