import Mathlib.Data.Finmap
import Mathlib.Data.List.Infix

/-!
A clone of a git repository with one branch, and the commands that bring it to its remote, commit a
file and push. A history is a list of commits, the newest first: one goes on from another where the
other is a suffix of it, which is what a push asks for.
-/

namespace OneRom.Git

variable {β : Type}

/-- The files under a commit, by their paths. -/
abbrev Tree (β : Type) : Type := Finmap fun _ : String => β

/-- A commit, and what else tells it from others: its message, and `stamp` for who made it when. -/
structure Commit (β : Type) where
  tree : Tree β
  message : String
  stamp : ℕ
  deriving DecidableEq

abbrev History (β : Type) : Type := List (Commit β)

/-- The files at the end of a history. -/
def History.tree (history : History β) : Tree β := (history.head?.map Commit.tree).getD ∅

/-- A clone: the branch it tracks as it was fetched last, its own branch, its index, its files. -/
structure Clone (β : Type) where
  upstream : History β
  head : History β
  index : Tree β
  work : String → Option β

namespace Clone

variable (clone : Clone β)

def fetch (remote : History β) : Clone β := { clone with upstream := remote }

/-- `reset --hard @{upstream}`: files that are not tracked stay. -/
def reset : Clone β where
  upstream := clone.upstream
  head := clone.upstream
  index := clone.upstream.tree
  work file := match clone.upstream.tree.lookup file with
    | some text => some text
    | none => if file ∈ clone.index then none else clone.work file

/-- `clean --force -d -x` -/
def clean : Clone β :=
  { clone with work := fun file => if file ∈ clone.index then clone.work file else none }

def write (file : String) (text : β) : Clone β :=
  { clone with work := Function.update clone.work file (some text) }

/-- `add`, which fails for a file that is neither there nor tracked. -/
def stage (file : String) : Option (Clone β) :=
  match clone.work file with
  | some text => some { clone with index := clone.index.insert file text }
  | none => if file ∈ clone.index then some { clone with index := clone.index.erase file } else none

/-- `commit`, which fails where nothing is staged. -/
def commit [DecidableEq β] (message : String) (stamp : ℕ) : Option (Clone β) :=
  if clone.index = clone.head.tree then none
  else some { clone with head := ⟨clone.index, message, stamp⟩ :: clone.head }

end Clone

/-- What a push makes of a remote's history: it has to go on from what is there. -/
def push [DecidableEq β] (remote history : History β) : Option (History β) :=
  if remote <:+ history then some history else none

variable {remote history : History β} {clone : Clone β} {file : String}

/-- The remote of a push of one commit had either what the commit is on, or the commit. -/
lemma eq_or_eq_of_suffix {base : History β} {commit : Commit β} (hbase : base <:+ remote)
    (h : remote <:+ commit :: base) : remote = base ∨ remote = commit :: base := by
  rcases List.suffix_cons_iff.mp h with heq | hle
  · exact .inr heq
  · exact .inl (List.IsSuffix.eq_of_length hle (le_antisymm hle.length_le hbase.length_le))

lemma reset_work (h : file ∈ clone.reset.index) :
    clone.reset.work file = clone.upstream.tree.lookup file := by
  obtain ⟨text, htext⟩ := Finmap.mem_iff.mp h
  change clone.upstream.tree.lookup file = some text at htext
  simp only [Clone.reset, htext]

/-- Reset and cleaned, a clone has the files it tracks. -/
lemma clean_work (htree : clone.index = clone.upstream.tree)
    (h : file ∈ clone.index → clone.work file = clone.upstream.tree.lookup file) :
    clone.clean.work file = clone.upstream.tree.lookup file := by
  by_cases hfile : file ∈ clone.index
  · exact (if_pos hfile).trans (h hfile)
  · have hnone := Finmap.lookup_eq_none.mpr (htree ▸ hfile)
    exact (if_neg hfile).trans hnone.symm

end OneRom.Git
