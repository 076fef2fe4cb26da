import OneRom.OtpHistory

/-!
The writer and the parser agree: what is written after complete instances is read back, value by
value and down to the message its signature covers.
-/

namespace OneRom.OtpRoundTrip

open OneRom.OtpEntry OneRom.OtpStore OneRom.OtpWriter OneRom.OtpArea OneRom.OtpAttempt
open OneRom.OtpHistory OneRom.WriteOnce OneRom.Hw

/-- The pages before `firstRow` hold complete instances only, and the rest is unwritten. -/
structure CompleteBefore (mem : ℕ → UInt16) (firstRow : ℕ) : Prop where
  issues : (parsed mem).issues = []
  complete : ∀ inst ∈ (parsed mem).instances, inst.isComplete
  next : (parsed mem).nextInstanceRow = some firstRow
  unwritten : ZeroFrom mem firstRow

lemma walk_of_next {mem : ℕ → UInt16} {row : ℕ} (h : (parsed mem).nextInstanceRow = some row) :
    walk (areaOf mem) 0x0c0 = ((parsed mem).instances, (parsed mem).issues, .ended (some row)) := by
  rcases hwalk : walk (areaOf mem) 0x0c0 with ⟨instances, issues, next | _⟩
  · obtain ⟨rfl, rfl, hnext, -⟩ := parsed_ended hwalk
    rw [← hnext, h]
  · rw [(parsed_abandoned hwalk).1] at h; cases h

/-- **Round trip**: the area parses to its earlier instances and one more, complete and valid,
which shows the values, the signature and the message it was built from. -/
theorem parsed_writes {board : Board} {manufacturer date : String} {signer : UInt16}
    {values : CommissioningValues}
    (hvalues : CommissioningValues.new board manufacturer date signer = .ok values)
    (signature : Vector UInt8 OTP_COMMISSIONING_SIG_LEN) (chipId : Vector UInt16 4) {firstRow : ℕ}
    {new : NewCommissioningInstance}
    (hnew : NewCommissioningInstance.new values firstRow = .ok new) {mem : ℕ → UInt16}
    (hmem : CompleteBefore mem firstRow) :
    ∃ inst, (parsed (apply mem (new.writes signature))).instances =
        (parsed mem).instances ++ [inst] ∧
      (parsed (apply mem (new.writes signature))).issues = [] ∧
      (parsed (apply mem (new.writes signature))).current = some inst ∧
      inst.isComplete = true ∧ inst.isValid = true ∧
      inst.firstRow = firstRow ∧ inst.board = some board.name ∧
      inst.manufacturer = some manufacturer ∧ inst.date = some date ∧
      inst.signer = some signer ∧ inst.signature = some signature ∧
      inst.message chipId = some (values.message chipId) := by
  let c : Commissioning := ⟨board, manufacturer, date, signer, signature, values, hvalues, firstRow,
    new, hnew⟩
  have hfirst := c.first_le
  have hcount := c.two_le_rowCount
  have hlen := c.length_image
  have hlenW := c.length_writes
  obtain ⟨inst, hinst, hshows⟩ := parse_complete c mem
  have htake : c.writes.take c.writes.length = c.writes := List.take_length
  have hafter : ZeroFrom (apply mem c.writes) (c.firstRow + c.values.rowCount - 1 + 1) :=
    fun r hr hlt => by
      rw [apply_of_notMem _ fun hmem => by
        have := c.lays_writes.mem_cells.mp hmem
        omega]
      exact hmem.unwritten r (show c.firstRow ≤ r by omega) hlt
  have hwalk := walk_attempt (c := c) (k := c.writes.length)
    ((walk_of_next hmem.next).trans (by rw [hmem.issues])) (by omega)
    (by rw [htake]; exact hinst) (by rw [htake]; exact hafter)
  rw [htake] at hwalk
  obtain ⟨hinstances, hissues, -, hcurrent⟩ := parsed_ended hwalk
  refine ⟨inst, hinstances, hissues, ?_, hshows.isComplete, hshows.isValid, hshows.firstRow,
    hshows.board, hshows.manufacturer, hshows.date, hshows.signer, hshows.signature,
    hshows.message chipId⟩
  refine hcurrent.trans ?_
  simp [lastComplete_snoc, hshows.isComplete, Option.filter, hshows.isValid]

lemma completeBefore_zero : CompleteBefore (fun _ => 0) 0x0c0 := by
  have hrec : Recorded [] (fun _ => 0) [] (some 0x0c0) := recorded_zero fun _ _ _ => rfl
  have hwalk := hrec.walk_eq
  obtain ⟨hinstances, hissues, hnext, -⟩ := parsed_ended hwalk
  exact ⟨hissues, by simp [hinstances], hnext, fun _ _ _ => rfl⟩

/-- The long commissioning, written to an unwritten area. -/
theorem parsed_writes_long :
    ∃ inst, (parsed (apply (fun _ => 0) (longAttempt.inst.writes longAttempt.signature))).instances =
        (parsed fun _ => 0).instances ++ [inst] ∧
      (parsed (apply (fun _ => 0) (longAttempt.inst.writes longAttempt.signature))).issues = [] ∧
      (parsed (apply (fun _ => 0) (longAttempt.inst.writes longAttempt.signature))).current =
        some inst ∧
      inst.isComplete = true ∧ inst.isValid = true ∧
      inst.firstRow = 0x0c0 ∧ inst.board = some fire24D.name ∧
      inst.manufacturer = some (letters 1700) ∧ inst.date = some "20260102" ∧
      inst.signer = some 1 ∧ inst.signature = some longAttempt.signature ∧
      inst.message (Vector.replicate 4 7) =
        some (longAttempt.values.message (Vector.replicate 4 7)) :=
  parsed_writes longAttempt.accepted longAttempt.signature _ longAttempt.placed completeBefore_zero

end OneRom.OtpRoundTrip
