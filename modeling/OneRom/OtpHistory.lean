import OneRom.OtpAttempt

/-!
Histories of commissioning attempts, each cut after any number of its writes.

The state of a run is the OTP memory. `Recorded` is its invariant: the parser's walk meets no
problem, its last complete instance shows the last attempt completed, and the rows from the
boundary where the walk ended on are unwritten. `recorded_step` keeps it for every attempt but
one cut just short of the area's end, after which the parser gives up (`lost_step`).
-/

namespace OneRom.OtpHistory

open OneRom.LittleEndian OneRom.OtpEntry OneRom.OtpStore OneRom.OtpWriter OneRom.OtpArea
open OneRom.OtpAttempt OneRom.WriteOnce OneRom.Hw

/-- A commissioning of which the first `count` writes are performed. -/
structure Attempt extends Commissioning where
  count : ℕ
  count_le : count ≤ toCommissioning.writes.length

namespace Attempt

variable (a : Attempt)

def performed : List RowWrite := a.writes.take a.count

/-- Whether all the attempt's writes were performed. -/
def completed : Bool := a.count == a.writes.length

/-- The attempt is cut just short of the area's end. -/
def CutAtEnd : Prop := OtpAttempt.CutAtEnd a.toCommissioning a.count

end Attempt

/-- The commissioning area, parsed from an OTP memory. -/
def parsed (mem : ℕ → UInt16) : CommissioningArea := CommissioningArea.parse (commissioningRows mem)

/-- The memories a history of attempts can leave, from an all-zero commissioning area on. -/
inductive Reaches : List Attempt → (ℕ → UInt16) → Prop
  | zero {mem : ℕ → UInt16} (h : ZeroFrom mem OTP_COMMISSIONING_AREA_FIRST_ROW) : Reaches [] mem
  | attempt {history : List Attempt} {mem : ℕ → UInt16} (a : Attempt) (h : Reaches history mem)
      (hnext : (parsed mem).nextInstanceRow = some a.firstRow) :
      Reaches (history ++ [a]) (apply mem a.performed)

/-- The last attempt whose writes were all performed. -/
def lastCompleted (history : List Attempt) : Option Attempt :=
  history.reverse.find? Attempt.completed

lemma lastCompleted_snoc (history : List Attempt) (a : Attempt) :
    lastCompleted (history ++ [a]) = if a.completed then some a else lastCompleted history := by
  simp only [lastCompleted, List.reverse_append, List.reverse_singleton, List.singleton_append,
    List.find?_cons]
  cases a.completed <;> rfl

/-! ### The current instance -/

def lastComplete (instances : List CommissioningInstance) : Option CommissioningInstance :=
  instances.reverse.find? CommissioningInstance.isComplete

lemma lastComplete_snoc (instances : List CommissioningInstance) (inst : CommissioningInstance) :
    lastComplete (instances ++ [inst]) =
      if inst.isComplete then some inst else lastComplete instances := by
  simp only [lastComplete, List.reverse_append, List.reverse_singleton, List.singleton_append,
    List.find?_cons]
  cases inst.isComplete <;> rfl

lemma rposition_lt {α : Type*} {p : α → Bool} {l : List α} {i : ℕ} (h : rposition p l = some i) :
    i < l.length := by
  induction l generalizing i with
  | nil => cases h
  | cons x l ih =>
    rw [rposition] at h
    rcases hr : rposition p l with _ | j
    · rw [hr] at h
      by_cases hp : p x
      · rw [if_pos hp] at h; cases h; exact Nat.succ_pos _
      · rw [if_neg hp] at h; cases h
    · rw [hr] at h
      cases h
      exact Nat.succ_lt_succ (ih hr)

lemma getElem?_rposition {α : Type*} (p : α → Bool) (l : List α) :
    (rposition p l).bind (l[·]?) = l.reverse.find? p := by
  induction l with
  | nil => rfl
  | cons x l ih =>
    rw [List.reverse_cons, List.find?_append, ← ih, rposition]
    rcases hr : rposition p l with _ | i
    · by_cases hp : p x <;> simp [hp]
    · simp [rposition_lt hr]

variable {mem : ℕ → UInt16} {instances : List CommissioningInstance} {next : Option ℕ}

lemma parsed_ended {issues : List AreaIssue}
    (h : walk (areaOf mem) 0x0c0 = (instances, issues, .ended next)) :
    (parsed mem).instances = instances ∧ (parsed mem).issues = issues ∧
      (parsed mem).nextInstanceRow = next ∧
      (parsed mem).current = (lastComplete instances).filter CommissioningInstance.isValid := by
  have hparse : parsed mem = ⟨instances, issues,
      (rposition CommissioningInstance.isComplete instances).filter
        fun i => (instances[i]?.map CommissioningInstance.isValid).getD false, next⟩ := by
    unfold parsed CommissioningArea.parse
    simp only
    rw [show Area.new _ _ _ = areaOf mem from rfl, areaOf_first, h]
  rw [hparse]
  refine ⟨rfl, rfl, rfl, ?_⟩
  rw [lastComplete, ← getElem?_rposition]
  simp only [CommissioningArea.current]
  rcases rposition CommissioningInstance.isComplete instances with _ | i
  · rfl
  · rcases hi : instances[i]? with _ | inst
    · simp [hi]
    · by_cases hv : inst.isValid <;> simp [Option.filter, hi, hv]

lemma parsed_abandoned {issues : List AreaIssue}
    (h : walk (areaOf mem) 0x0c0 = (instances, issues, .abandoned)) :
    (parsed mem).nextInstanceRow = none ∧ (parsed mem).current = none := by
  have hparse : parsed mem = ⟨instances, issues, none, none⟩ := by
    unfold parsed CommissioningArea.parse
    simp only
    rw [show Area.new _ _ _ = areaOf mem from rfl, areaOf_first, h]
  rw [hparse]
  exact ⟨rfl, rfl⟩

lemma parsed_walk (mem : ℕ → UInt16) :
    (parsed mem).instances = (walk (areaOf mem) 0x0c0).1 ∧
      (parsed mem).issues = (walk (areaOf mem) 0x0c0).2.1 := by
  unfold parsed CommissioningArea.parse
  simp only
  rw [show Area.new _ _ _ = areaOf mem from rfl, areaOf_first]
  rcases walk (areaOf mem) 0x0c0 with ⟨instances, issues, next | _⟩ <;> exact ⟨rfl, rfl⟩

/-! ### One attempt -/

/-- The page boundary after `lastRow`, where the area has one. -/
def nextBoundary (lastRow : ℕ) : Option ℕ :=
  if pageAfter lastRow < 0x4c0 then some (pageAfter lastRow) else none

variable {c : Commissioning} {k lastRow : ℕ} {inst : CommissioningInstance}

/-- The walk over an instance that ended goes on to the boundary after it. -/
lemma walk_attempt (hwalk : walk (areaOf mem) 0x0c0 = (instances, [], .ended (some c.firstRow)))
    (hk : 0 < k)
    (hinst : parseInstance (areaOf (apply mem (c.writes.take k))) c.firstRow = .ended inst lastRow)
    (hzero : ZeroFrom (apply mem (c.writes.take k)) (lastRow + 1)) :
    walk (areaOf (apply mem (c.writes.take k))) 0x0c0 =
      (instances ++ [inst], [], .ended (nextBoundary lastRow)) := by
  have hend : (areaOf (apply mem (c.writes.take k))).endRow = 0x4c0 := areaOf_endRow
  have hfits := c.fits
  have hfirst := c.first_le
  have hcount := c.two_le_rowCount
  have hpage := lt_pageAfter lastRow
  have hbefore : ∀ r, r < c.firstRow → apply mem (c.writes.take k) r = mem r := fun r hr =>
    c.lays_writes.apply_take_of_notMem mem k (.inl hr)
  have hmagic : (areaOf (apply mem (c.writes.take k))).row c.firstRow = OTP_STORE_MAGIC := by
    rw [row_areaOf _ hfirst (by omega), magic_row c mem hk]
  have hafter := parseInstance_from (areaOf (apply mem (c.writes.take k))) c.firstRow
  rw [hinst] at hafter
  have hafter : c.firstRow < lastRow := hafter
  rw [walk_resume hbefore le_rfl hwalk, walk_instance (by rw [hend]; omega) hmagic hinst]
  unfold nextBoundary
  split_ifs with hlt
  · rw [walk_unwritten (by rw [hend]; exact hlt)
      (by rw [row_areaOf _ (by omega) hlt]; exact hzero _ hpage hlt)]
  · rw [walk_past (by rw [hend]; exact not_lt.mp hlt)]

/-- Cut just short of the area's end, the parser finds no instance after the interrupted one. -/
lemma walk_cutAtEnd (hwalk : walk (areaOf mem) 0x0c0 = (instances, [], .ended (some c.firstRow)))
    (hzero : ZeroFrom mem c.firstRow) (hcut : OtpAttempt.CutAtEnd c k) :
    ∃ instances' issues, walk (areaOf (apply mem (c.writes.take k))) 0x0c0 =
      (instances', issues, .abandoned) := by
  have hend : (areaOf (apply mem (c.writes.take k))).endRow = 0x4c0 := areaOf_endRow
  have hfits := c.fits
  have hfirst := c.first_le
  have hcount := c.two_le_rowCount
  have hbefore : ∀ r, r < c.firstRow → apply mem (c.writes.take k) r = mem r := fun r hr =>
    c.lays_writes.apply_take_of_notMem mem k (.inl hr)
  obtain ⟨inst, hinst⟩ := parse_cutAtEnd hzero hcut
  have hmagic : (areaOf (apply mem (c.writes.take k))).row c.firstRow = OTP_STORE_MAGIC := by
    rw [row_areaOf _ hfirst (by omega), magic_row c mem (by have := hcut.2.1; omega)]
  have hnone : (areaOf (apply mem (c.writes.take k))).instanceAfter 0x4bf = none := by
    rw [Area.instanceAfter, hend]
    rfl
  rw [walk_resume hbefore le_rfl hwalk, walk_abandoned (by rw [hend]; omega) hmagic hinst hnone]
  exact ⟨_, _, rfl⟩

/-! ### Runs -/

/-- The parser finds the last attempt completed and unwritten rows after the last begun. -/
structure Recorded (history : List Attempt) (mem : ℕ → UInt16)
    (instances : List CommissioningInstance) (next : Option ℕ) : Prop where
  walk_eq : walk (areaOf mem) 0x0c0 = (instances, [], .ended next)
  shows : Option.Rel (fun a inst => Shows a.toCommissioning inst) (lastCompleted history)
    (lastComplete instances)
  unwritten : ∀ b, next = some b → ZeroFrom mem b

lemma recorded_zero (h : ZeroFrom mem 0x0c0) : Recorded [] mem [] (some 0x0c0) where
  walk_eq := walk_unwritten (by rw [areaOf_endRow]; decide)
    (by rw [row_areaOf _ le_rfl (by decide)]; exact h _ le_rfl (by decide))
  shows := .none
  unwritten := by rintro b ⟨⟩; exact h

variable {history : List Attempt}

lemma Recorded.reads (h : Recorded history mem instances next) :
    (parsed mem).nextInstanceRow = next ∧ (parsed mem).current = lastComplete instances := by
  obtain ⟨-, -, hnext, hcurrent⟩ := parsed_ended h.walk_eq
  refine ⟨hnext, hcurrent.trans ?_⟩
  have hshows := h.shows
  rcases hlast : lastComplete instances with _ | inst
  · rfl
  · rw [hlast] at hshows
    obtain ⟨a, -, hshows⟩ : ∃ a, lastCompleted history = some a ∧ Shows a.toCommissioning inst := by
      generalize lastCompleted history = o at hshows
      rcases hshows with hshows | _
      exact ⟨_, rfl, hshows⟩
    simp [Option.filter, hshows.isValid]

/-- **Step**: an attempt not cut just short of the area's end keeps the invariant; it changes the
last complete instance only where all its writes are performed. -/
theorem recorded_step {a : Attempt} (h : Recorded history mem instances (some a.firstRow))
    (hcut : ¬a.CutAtEnd) :
    ∃ instances' next', Recorded (history ++ [a]) (apply mem a.performed) instances' next' ∧
      (a.completed = false → lastComplete instances' = lastComplete instances) ∧
      (a.completed = true →
        next' = nextBoundary (a.firstRow + a.values.rowCount - 1)) := by
  have hzero := h.unwritten _ rfl
  have hcount := a.two_le_rowCount
  have hlen := a.length_writes
  have hle := a.count_le
  rcases Nat.eq_zero_or_pos a.count with h0 | hpos
  · -- nothing was written
    have hnone : a.completed = false := by simp [Attempt.completed, h0, hlen]; omega
    have hsame : apply mem a.performed = mem := by simp [Attempt.performed, h0]
    refine ⟨instances, some a.firstRow, ?_, fun _ => rfl, by simp [hnone]⟩
    rw [hsame]
    exact ⟨h.walk_eq, by rw [lastCompleted_snoc, hnone]; exact h.shows, h.unwritten⟩
  rcases eq_or_lt_of_le (hlen ▸ hle) with hall | hlt
  · -- all of it was written
    have hdone : a.completed = true := by simp [Attempt.completed, hlen, hall]
    have htake : a.performed = a.writes := List.take_of_length_le (by omega)
    obtain ⟨inst, hinst, hshows⟩ := parse_complete a.toCommissioning mem
    have hfirst := a.first_le
    have hafter : ZeroFrom (apply mem a.writes) (a.firstRow + a.values.rowCount - 1 + 1) :=
      fun r hr hlt => by
        rw [apply_of_notMem _ fun hmem => by
          have := a.lays_writes.mem_cells.mp hmem
          have := a.length_image
          omega]
        exact hzero r (by omega) hlt
    rw [← htake] at hinst hafter
    have hwalk := walk_attempt h.walk_eq hpos hinst hafter
    refine ⟨_, _, ⟨hwalk, ?_, ?_⟩, by simp [hdone], fun _ => rfl⟩
    · rw [lastCompleted_snoc, lastComplete_snoc, hdone, hshows.isComplete]
      exact .some hshows
    · intro b hb
      unfold nextBoundary at hb
      split_ifs at hb
      cases hb
      exact hafter.mono (lt_pageAfter _)
  · -- it was cut short
    have hnone : a.completed = false := by simp [Attempt.completed, hlen]; omega
    obtain ⟨inst, lastRow, hinst, -, hincomplete, hafter⟩ :=
      parse_interrupted hzero hpos hlt hcut
    have hwalk := walk_attempt h.walk_eq hpos hinst hafter
    have hlast : lastComplete (instances ++ [inst]) = lastComplete instances := by
      simp [lastComplete_snoc, hincomplete]
    refine ⟨_, _, ⟨hwalk, ?_, ?_⟩, fun _ => hlast, by simp [hnone]⟩
    · rw [lastCompleted_snoc, hnone, hlast]
      exact h.shows
    · intro b hb
      unfold nextBoundary at hb
      split_ifs at hb
      cases hb
      exact hafter.mono (lt_pageAfter _)

/-- After an attempt cut just short of the area's end, the parser names no boundary and no
current instance. -/
lemma lost_step {a : Attempt} (h : Recorded history mem instances (some a.firstRow))
    (hcut : a.CutAtEnd) :
    (parsed (apply mem a.performed)).nextInstanceRow = none ∧
      (parsed (apply mem a.performed)).current = none := by
  obtain ⟨_, _, hwalk⟩ := walk_cutAtEnd h.walk_eq (h.unwritten _ rfl) hcut
  exact parsed_abandoned hwalk

/-- **Run**: in every run, the invariant holds or the parser names no boundary any more. -/
theorem recorded_run (h : Reaches history mem) :
    (∃ instances next, Recorded history mem instances next) ∨
      (parsed mem).nextInstanceRow = none := by
  induction h with
  | zero hzero => exact .inl ⟨_, _, recorded_zero hzero⟩
  | @attempt history mem a _ hnext ih =>
    rcases ih with ⟨instances, next, hrec⟩ | hnone
    · rw [hrec.reads.1] at hnext
      subst hnext
      by_cases hcut : a.CutAtEnd
      · exact .inr (lost_step hrec hcut).1
      · obtain ⟨_, _, hrec', -⟩ := recorded_step hrec hcut
        exact .inl ⟨_, _, hrec'⟩
    · rw [hnone] at hnext; cases hnext

/-- In a run without such a cut the invariant holds. -/
lemma recorded_of_not_cutAtEnd (h : Reaches history mem) (hcut : ∀ a ∈ history, ¬a.CutAtEnd) :
    ∃ instances next, Recorded history mem instances next := by
  induction h with
  | zero hzero => exact ⟨_, _, recorded_zero hzero⟩
  | @attempt history mem a _ hnext ih =>
    obtain ⟨instances, next, hrec⟩ := ih fun a' ha' => hcut a' (by simp [ha'])
    rw [hrec.reads.1] at hnext
    subst hnext
    obtain ⟨_, _, hrec', -⟩ := recorded_step hrec (hcut a (by simp))
    exact ⟨_, _, hrec'⟩

/-- **Power cuts**: in every run without an attempt cut just short of the area's end, the current
instance is the last attempt completed, and an attempt cut short leaves it as it was. -/
theorem power_cut_safe (h : Reaches history mem) (hcut : ∀ a ∈ history, ¬a.CutAtEnd) :
    Option.Rel (fun a inst => Shows a.toCommissioning inst) (lastCompleted history)
        (parsed mem).current ∧
      ∀ a : Attempt, (parsed mem).nextInstanceRow = some a.firstRow →
        a.completed = false → ¬a.CutAtEnd →
          (parsed (apply mem a.performed)).current =
            (parsed mem).current := by
  obtain ⟨instances, next, hrec⟩ := recorded_of_not_cutAtEnd h hcut
  obtain ⟨hnext, hcurrent⟩ := hrec.reads
  refine ⟨hcurrent ▸ hrec.shows, fun a ha hnone hcut' => ?_⟩
  obtain rfl : next = some a.firstRow := hnext.symm.trans ha
  obtain ⟨instances', next', hrec', hsame, -⟩ := recorded_step hrec hcut'
  rw [hrec'.reads.2, hcurrent, hsame hnone]

/-! ### A history the condition excludes

A board commissioned with a long name fills the area up to its last page; commissioned once more,
with an instance of 63 rows, it loses power in the signature. -/

/-- A name of `n` letters. -/
def letters (n : ℕ) : String := String.ofList (List.replicate n 'x')

lemma strBytes_letters (n : ℕ) : strBytes (letters n) = List.replicate n 0x78 := by
  induction n with
  | zero => rfl
  | succ n ih =>
    have hx : ['x'].utf8Encode.data.toList = [0x78] := by decide
    simp only [letters, strBytes, String.toByteArray_ofList] at ih ⊢
    rw [List.replicate_succ, List.utf8Encode_cons]
    simp [ih, List.replicate_succ, hx]

lemma checkManufacturer_letters {n : ℕ} (h : 0 < n) : checkManufacturer (letters n) = .ok () := by
  obtain ⟨n, rfl⟩ : ∃ k, n = k + 1 := ⟨n - 1, by omega⟩
  simp [checkManufacturer, strBytes_letters, List.head?_replicate, List.getLast?_replicate]

def lettersValues (n : ℕ) : CommissioningValues :=
  ⟨(valueEntries fire24D (letters n) "20260102" 1).map entryRows⟩

lemma rowCount_letters (n : ℕ) : (lettersValues n).rowCount = 54 + (n + 1) / 2 := by
  have hboard : (strBytes fire24D.name).length = 9 := by decide
  have hdate : (strBytes "20260102").length = 8 := by decide
  simp [lettersValues, CommissioningValues.rowCount, instanceRowCount, valueEntries, valueLen,
    hboard, hdate, strBytes_letters, entryRowCount, OTP_COMMISSIONING_SIG_LEN,
    OTP_COMMISSIONING_SIGNER_LEN]
  omega

lemma new_letters {n : ℕ} (h : 0 < n) (hfits : n ≤ 1940) :
    CommissioningValues.new fire24D (letters n) "20260102" 1 = .ok (lettersValues n) := by
  have hrows := rowCount_letters n
  have hdate : ¬((strBytes "20260102").length ≠ 8 ∨
      !(strBytes "20260102").all fun b => 0x30 ≤ b && b ≤ 0x39) := by decide
  have hlen : (fun entry => entryRowCount (valueLen entry)) = List.length ∘ entryRows := by
    funext entry; simp
  have hfits : ¬instanceRowCount ((valueEntries fire24D (letters n) "20260102" 1).map
      fun entry => entryRowCount (valueLen entry)) >
        COMMISSIONING_AREA_END - OTP_COMMISSIONING_AREA_FIRST_ROW := by
    rw [hlen, ← List.map_map]
    change ¬(lettersValues n).rowCount > _
    rw [hrows]
    simp only [COMMISSIONING_AREA_END, OTP_COMMISSIONING_AREA_FIRST_ROW,
      OTP_COMMISSIONING_AREA_LAST_ROW]
    omega
  simp only [CommissioningValues.new, checkManufacturer_letters h, bind, Except.bind,
    if_neg hfits, if_neg hdate]
  rfl

lemma place_letters {n row : ℕ} (hrow : row % 64 = 0) (hfirst : 0x0c0 ≤ row)
    (hfits : row + (54 + (n + 1) / 2) ≤ 0x4c0) :
    NewCommissioningInstance.new (lettersValues n) row = .ok ⟨row, lettersValues n⟩ := by
  have hplace : ¬(row % OTP_PAGE_ROWS ≠ 0 ∨
      ¬(OTP_COMMISSIONING_AREA_FIRST_ROW ≤ row ∧ row < COMMISSIONING_AREA_END)) := by
    simp only [OTP_PAGE_ROWS, OTP_COMMISSIONING_AREA_FIRST_ROW, COMMISSIONING_AREA_END,
      OTP_COMMISSIONING_AREA_LAST_ROW]
    omega
  have hfits : ¬row + (lettersValues n).rowCount > COMMISSIONING_AREA_END := by
    rw [rowCount_letters]
    simp only [COMMISSIONING_AREA_END, OTP_COMMISSIONING_AREA_LAST_ROW]
    omega
  simp only [NewCommissioningInstance.new, bind, Except.bind, if_neg hfits, if_neg hplace]
  rfl

/-- A commissioning of `fire-24-d` with a manufacturer's name of `n` letters. -/
def lettersCommissioning (n row : ℕ) (hn : 0 < n ∧ n ≤ 1940) (hrow : row % 64 = 0)
    (hfirst : 0x0c0 ≤ row) (hfits : row + (54 + (n + 1) / 2) ≤ 0x4c0) : Commissioning where
  board := fire24D
  manufacturer := letters n
  date := "20260102"
  signer := 1
  signature := Vector.replicate _ 0xa5
  values := lettersValues n
  accepted := new_letters hn.1 hn.2
  firstRow := row
  inst := ⟨row, lettersValues n⟩
  placed := place_letters hrow hfirst hfits

/-- The first commissioning: 904 rows, all of them written. -/
def longAttempt : Attempt where
  toCommissioning := lettersCommissioning 1700 0x0c0 (by decide) (by decide) (by decide) (by decide)
  count := 904
  count_le := by rw [Commissioning.length_writes]; exact (rowCount_letters 1700).ge

/-- The second: 63 rows in the area's last page, cut once the signature's length row is written. -/
def cutAttempt : Attempt where
  toCommissioning := lettersCommissioning 18 0x480 (by decide) (by decide) (by decide) (by decide)
  count := 30
  count_le := by
    have h : (lettersCommissioning 18 0x480 (by decide) (by decide) (by decide)
      (by decide)).values.rowCount = 63 := rowCount_letters 18
    rw [Commissioning.length_writes, h]
    decide

lemma rowCount_long : longAttempt.values.rowCount = 904 := rowCount_letters 1700

lemma rowCount_cut : cutAttempt.values.rowCount = 63 := rowCount_letters 18

lemma completed_long : longAttempt.completed = true := by
  rw [Attempt.completed, Commissioning.length_writes, rowCount_long]
  rfl

lemma completed_cut : cutAttempt.completed = false := by
  rw [Attempt.completed, Commissioning.length_writes, rowCount_cut]
  rfl

lemma not_cutAtEnd_long : ¬longAttempt.CutAtEnd := by
  rintro ⟨-, -, h⟩
  rw [rowCount_long] at h
  exact absurd h (by decide)

lemma cutAtEnd_cut : cutAttempt.CutAtEnd := by
  refine ⟨?_, ?_, ?_⟩
  all_goals rw [show cutAttempt.toCommissioning.values.rowCount = 63 from rowCount_cut]
  all_goals decide

def longMemory : ℕ → UInt16 := apply (fun _ => 0) longAttempt.performed

def cutMemory : ℕ → UInt16 := apply longMemory cutAttempt.performed

lemma reaches_long : Reaches [longAttempt] longMemory :=
  .attempt longAttempt (.zero fun _ _ _ => rfl) (recorded_zero fun _ _ _ => rfl).reads.1

lemma recorded_long : ∃ instances, Recorded [longAttempt] longMemory instances (some 0x480) := by
  obtain ⟨instances, next, hrec, -, hnext⟩ :=
    recorded_step (a := longAttempt) (recorded_zero fun _ _ _ => rfl) not_cutAtEnd_long
  have hfirst : longAttempt.firstRow = 0x0c0 := rfl
  have hpage : nextBoundary (0x0c0 + 904 - 1) = some 0x480 := by
    simp [nextBoundary, pageAfter, OTP_PAGE_ROWS]
  rw [hnext completed_long, rowCount_long, hfirst, hpage] at hrec
  exact ⟨instances, hrec⟩

/-- The current instance after the first commissioning shows it. -/
theorem power_cut_safe_long :
    Option.Rel (fun a inst => Shows a.toCommissioning inst) (lastCompleted [longAttempt])
        (parsed longMemory).current ∧
      ∀ a : Attempt, (parsed longMemory).nextInstanceRow = some a.firstRow →
        a.completed = false → ¬a.CutAtEnd →
          (parsed (apply longMemory a.performed)).current = (parsed longMemory).current :=
  power_cut_safe reaches_long (by simpa using not_cutAtEnd_long)

/-- **A lost instance**: cut just short of the area's end, the second commissioning takes the first
one's place as current instance away. -/
theorem cut_loses_current :
    Reaches [longAttempt, cutAttempt] cutMemory ∧
      lastCompleted [longAttempt, cutAttempt] = some longAttempt ∧
      (parsed cutMemory).current = none ∧
      ¬Option.Rel (fun a inst => Shows a.toCommissioning inst)
        (lastCompleted [longAttempt, cutAttempt]) (parsed cutMemory).current := by
  obtain ⟨instances, hrec⟩ := recorded_long
  have hnone : (parsed cutMemory).current = none := (lost_step (a := cutAttempt) hrec cutAtEnd_cut).2
  have hlast : lastCompleted [longAttempt, cutAttempt] = some longAttempt := by
    have h := lastCompleted_snoc [longAttempt] cutAttempt
    rw [completed_cut] at h
    have h' := lastCompleted_snoc [] longAttempt
    rw [completed_long] at h'
    exact h.trans h'
  refine ⟨.attempt cutAttempt reaches_long hrec.reads.1, hlast, hnone, ?_⟩
  rw [hlast, hnone]
  rintro ⟨⟩

/-- **Write once**: every row a new instance writes lies in the area, is written once, and was
never written before. -/
theorem writes_unused (h : Reaches history mem) {board : Board} {manufacturer date : String}
    {signer : UInt16} {values : CommissioningValues}
    (hvalues : CommissioningValues.new board manufacturer date signer = .ok values) {row : ℕ}
    (hnext : (parsed mem).nextInstanceRow = some row) {inst : NewCommissioningInstance}
    (hinst : NewCommissioningInstance.new values row = .ok inst)
    (signature : Vector UInt8 OTP_COMMISSIONING_SIG_LEN) :
    (∀ w ∈ inst.writes signature, OTP_COMMISSIONING_AREA_FIRST_ROW ≤ w.cell ∧
        w.cell ≤ OTP_COMMISSIONING_AREA_LAST_ROW ∧ mem w.cell = 0) ∧
      ((inst.writes signature).map Write.cell).Nodup := by
  let c : Commissioning := ⟨board, manufacturer, date, signer, signature, values, hvalues, row,
    inst, hinst⟩
  have hfits := c.fits
  have hfirst := c.first_le
  have hlen := c.length_image
  refine ⟨fun w hw => ?_, c.lays_writes.nodup⟩
  have hcell := c.lays_writes.mem_cells.mp (List.mem_map_of_mem hw)
  rcases recorded_run h with ⟨instances, next, hrec⟩ | hnone
  · have hzero : ZeroFrom mem c.firstRow := hrec.unwritten _ (hrec.reads.1.symm.trans hnext)
    exact ⟨hfirst.trans hcell.1, by simp only [OTP_COMMISSIONING_AREA_LAST_ROW]; omega,
      hzero _ hcell.1 (by omega)⟩
  · rw [hnone] at hnext; cases hnext

/-- The rows the second commissioning writes, once the first one has filled fifteen pages. -/
theorem writes_unused_long :
    (∀ w ∈ cutAttempt.inst.writes cutAttempt.signature, OTP_COMMISSIONING_AREA_FIRST_ROW ≤ w.cell ∧
        w.cell ≤ OTP_COMMISSIONING_AREA_LAST_ROW ∧ longMemory w.cell = 0) ∧
      ((cutAttempt.inst.writes cutAttempt.signature).map Write.cell).Nodup :=
  have ⟨_, hrec⟩ := recorded_long
  writes_unused reaches_long cutAttempt.accepted hrec.reads.1 cutAttempt.placed _

end OneRom.OtpHistory
