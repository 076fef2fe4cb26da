import OneRom.CommissionCommit

/-!
What an execution that may be stopped leaves in the rows.

The rows still to write land in the plan's order, so at every moment a prefix of them has landed. An
execution whose reads and writes all go right lands all of them.
-/

namespace OneRom.CommissionExecute

open OneRom.OtpEntry OneRom.OtpStore OneRom.OtpWriter OneRom.Hw OneRom.Fallible OneRom.OtpAccess
open OneRom.Commission OneRom.OtpReads OneRom.CommissionPlan OneRom.CommissionPrepare
open OneRom.CommissionSafe OneRom.CommissionRuns OneRom.CommissionCommit

/-- The rows a plan leaves to write, in order. -/
def Plan.toWrites (plan : Plan) : List PlannedWrite := plan.steps.flatMap Step.toWrite

lemma toWrites_eq (plan : Plan) : Plan.toWrites plan = plan.writes.filter (!·.holds) := by
  simp only [Plan.toWrites, Plan.writes, List.filter_flatMap]
  rfl

lemma mem_toWrites {plan : Plan} {w : PlannedWrite} :
    w ∈ Plan.toWrites plan ↔ w ∈ plan.writes ∧ w.holds = false := by
  simp [toWrites_eq]

/-- The rows once these writes have landed, each leaving its row as it is in `after`. -/
def landed (before after : Rows) (ws : List PlannedWrite) : Rows := fun row =>
  if row ∈ ws.map (·.row) then after row else before row

variable {before after : Rows} {ws : List PlannedWrite} {w : PlannedWrite} {row : ℕ}

@[simp] lemma landed_nil : landed before after [] = before := by
  funext row
  simp [landed]

lemma landed_of_mem (h : w ∈ ws) : landed before after ws w.row = after w.row :=
  if_pos (List.mem_map_of_mem h)

lemma landed_of_notMem (h : ∀ w ∈ ws, w.row ≠ row) : landed before after ws row = before row :=
  if_neg fun hmem => by
    obtain ⟨w, hw, heq⟩ := List.mem_map.mp hmem
    exact h w hw heq

lemma landed_snoc : landed before after (ws ++ [w]) =
    Function.update (landed before after ws) w.row (after w.row) := by
  funext row
  by_cases hrow : row = w.row
  · subst hrow
    rw [Function.update_self]
    exact landed_of_mem (by simp)
  · rw [Function.update_of_ne hrow]
    simp [landed, hrow]

lemma landed_landed {more : List PlannedWrite} :
    landed (landed before after ws) after more = landed before after (ws ++ more) := by
  funext row
  by_cases hws : row ∈ ws.map (·.row) <;> by_cases hmore : row ∈ more.map (·.row) <;>
    simp only [landed, List.map_append, List.mem_append, hws, hmore, or_self, or_true, true_or,
      if_true, if_false]

variable [PicoOtp]

/-- Each write was made to a row not holding its value. -/
def WritesUnheld (log : List Moment) : Prop :=
  ∀ m ∈ log, ∀ row value, m.access = .write row value → holdsValue (m.rows row) value = false

/-- The steps a kind enables come before it. -/
def Ordered (plan : Plan) : Prop :=
  plan.steps.Pairwise fun s t =>
    (s.kind = .usbBootFlags →
      t.kind ∉ [StepKind.whiteLabelStrings, .whiteLabelTable, .whiteLabelAddr]) ∧
    (s.kind = .bootFlags0 → t.kind ≠ .flashDevinfo)

/-- A host whose writes of a plan's rows over `before` leave them as in `after`: where `failing`,
some reads and writes may fail, and a write that fails may have landed. -/
structure Lands (host : Host) (before after : Rows) (failing : Prop) (plan : Plan) : Prop where
  read : ∀ n row e, (∃ w ∈ plan.writes, w.row = row) ∨ row = OTP_FLASH_PARTITION_SLOT_SIZE_ROW →
    host.readFails n row 1 = some e → failing
  write : ∀ n, ∀ w ∈ Plan.toWrites plan, ∀ raw error,
    host.write n w.row w.value (before w.row) = (raw, error) →
      (error = none → raw = after w.row) ∧
        (error ≠ none → failing ∧ (raw = before w.row ∨ raw = after w.row))
  held : ∀ w ∈ Plan.toWrites plan, Held after w
  slotSize : (∃ s ∈ plan.steps, s.kind = .bootFlags0) →
    (codeword (before OTP_FLASH_PARTITION_SLOT_SIZE_ROW)).isSome

/-- These writes have landed, and each was of a row not holding its value. -/
structure Landed (before after : Rows) (ws : List PlannedWrite) (otp : Otp) : Prop where
  rows : otp.rows = landed before after ws
  unheld : WritesUnheld otp.log

lemma Landed.stable : Stable (Landed before after ws) := fun otp otp' hreads h => by
  refine ⟨hreads.rows.trans h.rows, fun m hm row value hw => ?_⟩
  obtain ⟨ms, hms, hread⟩ := hreads.log
  rw [hms] at hm
  rcases List.mem_append.mp hm with hm | hm
  · have := hread m hm
    rw [hw] at this
    exact this.elim
  · exact h.unheld m hm row value hw

/-- An execution that was stopped: a prefix of the rows to write has landed. -/
def Stopped (before after : Rows) (failing : Prop) (plan : Plan) (otp : Otp) : Prop :=
  failing ∧ ∃ pre post, Plan.toWrites plan = pre ++ post ∧ Landed before after pre otp

section Execute

variable {host : Host} {failing : Prop} {plan : Plan} {P : Otp → Prop}

omit [PicoOtp] in
lemma readRow_lands (hP : Stable P) (hfails : ∀ n e, host.readFails n row 1 = some e → failing) :
    Triple P (readRow host row) (fun raw otp => P otp ∧ raw = otp.rows row)
      fun otp => failing ∧ P otp := by
  intro otp hotp
  have hlog : ∀ access, Access.IsRead access → P (otp.logged access) := fun access h =>
    hP otp _ (.logged h) hotp
  simp only [readRow, Prog.bind_run, Prog.mapError, readRawRows]
  cases hread : host.readFails otp.log.length row 1 with
  | some e => exact ⟨hfails _ _ hread, hlog _ trivial⟩
  | none => exact ⟨hlog _ trivial, rfl⟩

lemma readBack_lands (hP : Stable P) (hfails : ∀ n e, host.readFails n w.row 1 = some e → failing)
    (hheld : ∀ otp, P otp → Held otp.rows w) :
    Triple P (Commission.readBack host w) (fun _ => P) fun otp => failing ∧ P otp := by
  unfold Commission.readBack
  refine (readRow_lands hP hfails).bind fun raw => ?_
  by_cases hraw : holdsValue raw w.value = true
  · rw [if_pos hraw]
    exact Triple.pure fun _ h => h.1
  · rw [if_neg hraw]
    refine Triple.throw fun otp ⟨hotp, heq⟩ => ?_
    have := hheld otp hotp
    rw [Held, ← heq] at this
    exact absurd this hraw

lemma readBackSteps_lands (hlands : Lands host before after failing plan) (hP : Stable P)
    {kinds : List StepKind} (hheld : ∀ w ∈ plan.writesOf kinds, ∀ otp, P otp → Held otp.rows w) :
    Triple P (plan.readBackSteps host kinds) (fun _ => P) fun otp => failing ∧ P otp := by
  refine Triple.each (fun _ => P) (plan.writesOf kinds) fun pre w post hws => ?_
  have hw : w ∈ plan.writesOf kinds := by simp [hws]
  have hmem : w ∈ plan.writes := by
    obtain ⟨s, hs, hws⟩ := List.mem_flatMap.mp hw
    exact mem_writes.mpr ⟨s, List.mem_of_mem_filter hs, hws⟩
  exact readBack_lands hP (fun n e => hlands.read n w.row e (.inl ⟨w, hmem, rfl⟩)) (hheld w hw)

variable {pre post : List Step} {s : Step}

/-- The writes of a plan's first steps. -/
abbrev writesOfSteps (steps : List Step) : List PlannedWrite := steps.flatMap Step.toWrite

/-- Where the steps a kind enables have landed, its rows are enabled. -/
lemma held_of_landed (hsound : Sound before plan) (hlands : Lands host before after failing plan)
    (hsteps : plan.steps = pre ++ s :: post) {kinds : List StepKind} (horder : ∀ t ∈ s :: post, t.kind ∉ kinds) {w : PlannedWrite}
    (hw : w ∈ plan.writesOf kinds) {otp : Otp}
    (hlanded : Landed before after (writesOfSteps pre) otp) : Held otp.rows w := by
  obtain ⟨t, ht, hwt⟩ := List.mem_flatMap.mp hw
  obtain ⟨ht, hkind⟩ := List.mem_filter.mp ht
  have hkind : t.kind ∈ kinds := by simpa using hkind
  have hmem : w ∈ plan.writes := mem_writes.mpr ⟨t, ht, hwt⟩
  have htpre : t ∈ pre := by
    rw [hsteps] at ht
    rcases List.mem_append.mp ht with ht | ht
    · exact ht
    · exact absurd hkind (horder t ht)
  rw [Held, hlanded.rows]
  cases hholds : w.holds with
  | false =>
    have hto : w ∈ writesOfSteps pre := List.mem_flatMap.mpr ⟨t, htpre, mem_toWrite.mpr ⟨hwt, hholds⟩⟩
    rw [landed_of_mem hto]
    exact hlands.held w (mem_toWrites.mpr ⟨hmem, hholds⟩)
  | true =>
    -- no write lands in a row that held its value
    have hne : ∀ v ∈ writesOfSteps pre, v.row ≠ w.row := fun v hv heq => by
      obtain ⟨u, hu, hvu⟩ := List.mem_flatMap.mp hv
      obtain ⟨hvu, hnot⟩ := mem_toWrite.mp hvu
      have hvmem : v ∈ plan.writes := mem_writes.mpr ⟨u, by simp [hsteps, hu], hvu⟩
      have := List.inj_on_of_nodup_map hsound.rows_nodup hvmem hmem heq
      rw [this, hholds] at hnot
      cases hnot
    rw [landed_of_notMem hne]
    exact ((hsound.step t (by simp [hsteps, htpre])).holds_eq w hwt).symm.trans hholds

omit [PicoOtp] in
lemma Ordered.later (h : Ordered plan) (hsteps : plan.steps = pre ++ s :: post) :
    ∀ t ∈ post, (s.kind = .usbBootFlags →
        t.kind ∉ [StepKind.whiteLabelStrings, .whiteLabelTable, .whiteLabelAddr]) ∧
      (s.kind = .bootFlags0 → t.kind ≠ .flashDevinfo) := by
  unfold Ordered at h
  rw [hsteps] at h
  exact (List.pairwise_cons.mp (List.pairwise_append.mp h).2.1).1

lemma checkEnabled_lands (hsound : Sound before plan) (horder : Ordered plan)
    (hlands : Lands host before after failing plan) (hsteps : plan.steps = pre ++ s :: post) :
    Triple (Landed before after (writesOfSteps pre)) (plan.checkEnabled host s.kind)
      (fun _ => Landed before after (writesOfSteps pre))
      fun otp => failing ∧ Landed before after (writesOfSteps pre) otp := by
  have hs : s ∈ plan.steps := by simp [hsteps]
  have hlater := horder.later hsteps
  cases hkind : s.kind with
  | usbBootFlags =>
    refine readBackSteps_lands hlands Landed.stable fun w hw otp hlanded =>
      held_of_landed hsound hlands hsteps (fun t ht => ?_) hw hlanded
    rcases List.mem_cons.mp ht with rfl | ht
    · simp [hkind]
    · exact (hlater t ht).1 hkind
  | bootFlags0 =>
    have hheld : ∀ w ∈ plan.writesOf [.flashDevinfo], ∀ otp,
        Landed before after (writesOfSteps pre) otp → Held otp.rows w := fun w hw otp hlanded =>
      held_of_landed hsound hlands hsteps (fun t ht => by
        rcases List.mem_cons.mp ht with rfl | ht
        · simp [hkind]
        · simpa using (hlater t ht).2 hkind) hw hlanded
    refine (readBackSteps_lands hlands Landed.stable hheld).bind fun _ => ?_
    refine (readRow_lands Landed.stable fun n e =>
      hlands.read n _ e (.inr rfl)).bind fun raw => ?_
    by_cases hcode : (codeword raw).isSome = true
    · rw [if_pos hcode]
      exact Triple.pure fun _ h => h.1
    · rw [if_neg hcode]
      refine Triple.throw fun otp ⟨hlanded, hraw⟩ => ?_
      have hslot : kindOf OTP_FLASH_PARTITION_SLOT_SIZE_ROW = none := by decide +kernel
      have hne : ∀ w ∈ writesOfSteps pre, w.row ≠ OTP_FLASH_PARTITION_SLOT_SIZE_ROW :=
        fun w hw heq => by
          obtain ⟨t, ht, hwt⟩ := List.mem_flatMap.mp hw
          have := (hsound.step t (by simp [hsteps, ht])).kindOf w (mem_toWrite.mp hwt).1
          rw [heq, hslot] at this
          cases this
      rw [hraw, hlanded.rows, landed_of_notMem hne] at hcode
      exact absurd (hlands.slotSize ⟨s, hs, hkind⟩) hcode
  | _ => exact Triple.pure fun _ h => h

lemma writeRow_lands (hsound : Sound before plan) (hlands : Lands host before after failing plan)
    {done rest : List PlannedWrite} (hws : Plan.toWrites plan = done ++ w :: rest) :
    Triple (Landed before after done) (writeRow host w) (fun _ => Landed before after (done ++ [w]))
      (Stopped before after failing plan) := by
  have hmem : w ∈ Plan.toWrites plan := by simp [hws]
  obtain ⟨hw, hnot⟩ := mem_toWrites.mp hmem
  obtain ⟨s, hs, hwss⟩ := mem_writes.mp hw
  have hunheld : holdsValue (before w.row) w.value = false :=
    ((hsound.step s hs).holds_eq w hwss).symm.trans hnot
  have hnodup : ((Plan.toWrites plan).map (·.row)).Nodup := by
    rw [toWrites_eq]
    exact hsound.rows_nodup.sublist (List.filter_sublist.map _)
  have hne : ∀ v ∈ done, v.row ≠ w.row := fun v hv => by
    rw [hws, List.map_append, List.nodup_append] at hnodup
    exact hnodup.2.2 _ (List.mem_map_of_mem hv) _ (by simp)
  have hstop : ∀ otp, failing → Landed before after done otp → Stopped before after failing plan otp :=
    fun otp hf h => ⟨hf, done, w :: rest, hws, h⟩
  have hstop' : ∀ otp, failing → Landed before after (done ++ [w]) otp →
      Stopped before after failing plan otp := fun otp hf h => ⟨hf, done ++ [w], rest, by simp [hws], h⟩
  have hwrite : Triple (Landed before after done)
      ((writeRowValue host w.row w.value).mapError (at_ w.row))
      (fun _ => Landed before after (done ++ [w])) (Stopped before after failing plan) := by
    refine Triple.mapError fun otp hlanded => ?_
    have hrow : otp.rows w.row = before w.row := by rw [hlanded.rows, landed_of_notMem hne]
    have hlog : WritesUnheld (⟨otp.rows, .write w.row w.value⟩ :: otp.log) := by
      intro m hm row value heq
      rcases List.mem_cons.mp hm with rfl | hm
      · obtain ⟨rfl, rfl⟩ := Access.write.inj heq
        simpa only [hrow] using hunheld
      · exact hlanded.unheld m hm row value heq
    unfold writeRowValue
    rcases hres : host.write otp.log.length w.row w.value (otp.rows w.row) with ⟨raw, error⟩
    obtain ⟨hok, hfail⟩ := hlands.write _ w hmem raw error (hrow ▸ hres)
    have hlands' : raw = after w.row → Landed before after (done ++ [w])
        ⟨Function.update otp.rows w.row raw, ⟨otp.rows, .write w.row w.value⟩ :: otp.log⟩ :=
      fun heq => ⟨by rw [landed_snoc, hlanded.rows, heq], hlog⟩
    cases error with
    | none => exact hlands' (hok rfl)
    | some e =>
      obtain ⟨hf, hraw | hraw⟩ := hfail (by simp)
      · refine hstop _ hf ⟨?_, hlog⟩
        rw [hraw, ← hrow]
        exact (Function.update_eq_self _ _).trans hlanded.rows
      · exact hstop' _ hf (hlands' hraw)
  refine hwrite.bind fun _ => ?_
  refine (readBack_lands Landed.stable (fun n e => hlands.read n w.row e (.inl ⟨w, hw, rfl⟩))
    fun otp hlanded => ?_).mono (fun _ h => h) (fun _ _ h => h) fun otp h => hstop' otp h.1 h.2
  rw [Held, hlanded.rows, landed_of_mem (by simp)]
  exact hlands.held w hmem

/-- **Execution**: all the rows still to write land, or it is stopped and a prefix of them has. -/
theorem execute_lands (hsound : Sound before plan) (horder : Ordered plan)
    (hlands : Lands host before after failing plan) :
    Triple (Landed before after []) (plan.execute host)
      (fun _ => Landed before after (Plan.toWrites plan)) (Stopped before after failing plan) := by
  refine Triple.each (fun pre => Landed before after (writesOfSteps pre)) plan.steps
    fun pre s post hsteps => ?_
  have hall : Plan.toWrites plan = writesOfSteps pre ++ (s.toWrite ++ writesOfSteps post) := by
    simp [Plan.toWrites, writesOfSteps, hsteps]
  have hdone : writesOfSteps (pre ++ [s]) = writesOfSteps pre ++ s.toWrite := by
    simp [writesOfSteps]
  rw [hdone]
  unfold Plan.executeStep
  by_cases hany : s.writes.any (!·.holds) = true
  · rw [if_pos hany]
    refine ((checkEnabled_lands hsound horder hlands hsteps).mono (fun _ h => h) (fun _ _ h => h)
      fun otp h => ⟨h.1, _, _, hall, h.2⟩).bind fun _ => ?_
    have heach := Triple.each (E := Stopped before after failing plan) (f := writeRow host)
      (fun done => Landed before after (writesOfSteps pre ++ done)) s.toWrite
      fun done w rest hws => by
        have hsplit : Plan.toWrites plan =
            (writesOfSteps pre ++ done) ++ w :: (rest ++ writesOfSteps post) := by
          rw [hall, hws]
          simp
        have := writeRow_lands hsound hlands hsplit
        rwa [List.append_assoc] at this
    exact heach.mono (fun _ h => by simpa using h) (fun _ _ h => h) fun _ h => h
  · rw [if_neg hany]
    have hnone : s.toWrite = [] := by
      simpa [Step.toWrite, List.filter_eq_nil_iff] using hany
    rw [hnone, List.append_nil]
    exact Triple.pure fun _ h => h

/-! ### What an execution that succeeded wrote -/

/-- These writes succeeded, and every other row is as it was. -/
structure Wrote (host : Host) (before : Rows) (ws : List PlannedWrite) (otp : Otp) : Prop where
  frame : ∀ row, (∀ w ∈ ws, w.row ≠ row) → otp.rows row = before row
  wrote : ∀ w ∈ ws, ∃ n, host.write n w.row w.value (before w.row) = (otp.rows w.row, none)

omit [PicoOtp] in
lemma Wrote.stable : Stable (Wrote host before ws) := fun otp otp' hreads h =>
  ⟨fun row hrow => by rw [hreads.rows]; exact h.frame row hrow,
    fun w hw => by rw [hreads.rows]; exact h.wrote w hw⟩

lemma writeRow_wrote (hne : ∀ v ∈ ws, v.row ≠ w.row) :
    Triple (Wrote host before ws) (writeRow host w) (fun _ => Wrote host before (ws ++ [w]))
      fun _ => True := by
  have hwrite : Triple (Wrote host before ws)
      ((writeRowValue host w.row w.value).mapError (at_ w.row))
      (fun _ => Wrote host before (ws ++ [w])) fun _ => True := by
    refine Triple.mapError fun otp h => ?_
    have hrow := h.frame w.row hne
    unfold writeRowValue
    rcases hres : host.write otp.log.length w.row w.value (otp.rows w.row) with ⟨raw, _ | e⟩
    · rw [hrow] at hres
      refine ⟨fun row hrows => ?_, fun v hv => ?_⟩
      · change Function.update otp.rows w.row raw row = before row
        rw [Function.update_of_ne (Ne.symm (hrows w (by simp)))]
        exact h.frame row fun v hv => hrows v (by simp [hv])
      · change ∃ n, host.write n v.row v.value (before v.row) =
          (Function.update otp.rows w.row raw v.row, none)
        rcases List.mem_append.mp hv with hv | hv
        · rw [Function.update_of_ne (hne v hv)]
          exact h.wrote v hv
        · cases List.mem_singleton.mp hv
          rw [Function.update_self]
          exact ⟨_, hres⟩
    · trivial
  exact hwrite.bind fun _ => (readBack_triple host Wrote.stable w).mono (fun _ h => h)
    (fun _ _ h => h.1) fun _ _ => trivial

/-- **Executed**: an execution that succeeded made every write the plan left. -/
theorem execute_wrote (hsound : Sound before plan) {otp otp' : Otp} (hrows : otp.rows = before)
    (hexecute : plan.execute host otp = (.ok (), otp')) :
    Wrote host before (Plan.toWrites plan) otp' := by
  have hnodup : ((Plan.toWrites plan).map (·.row)).Nodup := by
    rw [toWrites_eq]
    exact hsound.rows_nodup.sublist (List.filter_sublist.map _)
  have heach : Triple (Wrote host before []) (plan.execute host)
      (fun _ => Wrote host before (Plan.toWrites plan)) fun _ => True := by
    refine Triple.each (fun pre => Wrote host before (writesOfSteps pre)) plan.steps
      fun pre s post hsteps => ?_
    have hdone : writesOfSteps (pre ++ [s]) = writesOfSteps pre ++ s.toWrite := by
      simp [writesOfSteps]
    rw [hdone]
    unfold Plan.executeStep
    by_cases hany : s.writes.any (!·.holds) = true
    · rw [if_pos hany]
      have hcheck : Triple (Wrote host before (writesOfSteps pre)) (plan.checkEnabled host s.kind)
          (fun _ => Wrote host before (writesOfSteps pre)) fun _ => True :=
        (checkEnabled_stable Wrote.stable s.kind).mono (fun _ h => h) (fun _ _ h => h)
          fun _ _ => trivial
      refine hcheck.bind fun _ => ?_
      have hinner := Triple.each (E := fun _ => True) (f := writeRow host)
        (fun done => Wrote host before (writesOfSteps pre ++ done)) s.toWrite
        fun done w rest hws => by
          have hall : Plan.toWrites plan =
              (writesOfSteps pre ++ done) ++ w :: (rest ++ writesOfSteps post) := by
            simp [Plan.toWrites, writesOfSteps, hsteps, hws]
          have hne : ∀ v ∈ writesOfSteps pre ++ done, v.row ≠ w.row := fun v hv => by
            rw [hall, List.map_append, List.nodup_append] at hnodup
            exact hnodup.2.2 _ (List.mem_map_of_mem hv) _ (by simp)
          have := @writeRow_wrote before _ w _ host hne
          rwa [List.append_assoc] at this
      exact hinner.mono (fun _ h => by simpa using h) (fun _ _ h => h) fun _ h => h
    · rw [if_neg hany]
      have hnone : s.toWrite = [] := by
        simpa [Step.toWrite, List.filter_eq_nil_iff] using hany
      rw [hnone, List.append_nil]
      exact Triple.pure fun _ h => h
  exact heach.ok ⟨fun row _ => by rw [hrows], by simp⟩ hexecute

end Execute

end OneRom.CommissionExecute
