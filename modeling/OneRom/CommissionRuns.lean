import OneRom.CommissionSafe
import OneRom.OtpMemory

/-!
The plans of a commissioning and of a board's size are sound over the rows they were made from, so
executing one is safe.
-/

namespace OneRom.CommissionRuns

open OneRom.OtpEntry OneRom.OtpStore OneRom.OtpWriter OneRom.OtpAttempt OneRom.OtpHistory
open OneRom.Hw OneRom.WriteOnce OneRom.Fallible OneRom.OtpAccess OneRom.Commission OneRom.OtpReads
open OneRom.Checks OneRom.CommissionPlan OneRom.CommissionPrepare OneRom.CommissionSafe
open OneRom.OtpMemory

/-- The cells of an instance's writes differ. -/
lemma cells_nodup {values : CommissioningValues} {board : Board} {manufacturer date : String}
    {signer : UInt16} (signature : Vector UInt8 OTP_COMMISSIONING_SIG_LEN)
    (haccepted : CommissioningValues.new board manufacturer date signer = .ok values) {row : ℕ}
    {new : NewCommissioningInstance} (hnew : NewCommissioningInstance.new values row = .ok new) :
    ((new.writes signature).map (·.cell)).Nodup :=
  let c : Commissioning := ⟨board, manufacturer, date, signer, signature, values, haccepted, row,
    new, hnew⟩
  c.lays_writes.nodup

/-- The rows of a part of a white label differ. -/
lemma label_nodup {label all : List (UInt16 × ℕ)} {values : List UInt16}
    (hall : all = values.zipIdx) (hsub : label.Sublist all) :
    (label.map fun p => OTP_USB_WHITE_LABEL_ROW + p.2).Nodup := by
  have hidx : (all.map (·.2)).Nodup := by
    rw [hall, List.zipIdx_map_snd]
    exact List.nodup_range'
  have hlabel : (label.map (·.2)).Nodup := hidx.sublist (hsub.map _)
  have := hlabel.map (add_right_injective OTP_USB_WHITE_LABEL_ROW)
  rwa [List.map_map] at this

section Plans

variable [PicoOtp] {host : Host} {request : Request} {rows : Rows}

/-! ### Steps -/

/-- A step whose writes are fresh, each to a row of its own. -/
lemma stepOver_fresh {α : Type} {kind : StepKind} {l : List α} (row : α → ℕ) (value : α → RowValue)
    (hnodup : (l.map row).Nodup) (hkind : ∀ a ∈ l, kindOf (row a) = some kind)
    (hsets : ∀ a ∈ l, holdsValue (rows (row a)) (value a) = false →
      Sets (rows (row a)) (value a)) :
    StepOver rows ⟨kind, l.map fun a => fresh rows (row a) (value a)⟩ where
  nodup := by simpa [Function.comp_def, fresh] using hnodup
  kindOf := by simpa [fresh] using hkind
  holds_eq := by simp [fresh]
  sets := by simpa [fresh] using hsets

lemma stepOver_one {kind : StepKind} {row : ℕ} {value : RowValue} (hkind : kindOf row = some kind)
    (htakes : Takes (rows row) value) : StepOver rows ⟨kind, [fresh rows row value]⟩ :=
  stepOver_fresh (l := [()]) (fun _ => row) (fun _ => value) (by simp) (fun _ _ => hkind)
    fun _ _ => htakes.sets

lemma stepOver_instance {writes : List RowWrite} (hnodup : (writes.map (·.cell)).Nodup)
    (harea : ∀ w ∈ writes, InArea w.cell) (htakes : InstanceTakes rows writes) :
    StepOver rows ⟨.instance_, freshInstance rows writes⟩ :=
  stepOver_fresh _ _ hnodup (fun w hw => kindOf_area (harea w hw)) fun w hw => (htakes w hw).sets

lemma stepOver_strings {board : Board} (h : LabelTakes board rows) :
    StepOver rows ⟨.whiteLabelStrings, freshLabel rows (labelStrings board)⟩ := by
  refine stepOver_fresh _ _ (label_nodup rfl (List.drop_sublist _ _)) (fun p hp => ?_) fun p hp =>
    (h.strings p hp).sets
  rw [kindOf_whiteLabel (lt_of_mem_label (List.mem_of_mem_drop hp)), if_neg]
  obtain ⟨i, hi, rfl⟩ := List.mem_drop_iff_getElem.mp hp
  simp

lemma stepOver_table {board : Board} (h : LabelTakes board rows) :
    StepOver rows ⟨.whiteLabelTable, freshLabel rows (labelTable board)⟩ := by
  have hsub : (labelTable board).Sublist (whiteLabel board).rows.zipIdx :=
    List.filter_sublist.trans (List.take_sublist _ _)
  refine stepOver_fresh _ _ (label_nodup rfl hsub) (fun p hp => ?_) fun p hp => (h.table p hp).sets
  rw [kindOf_whiteLabel (lt_of_mem_label (hsub.subset hp)), if_pos]
  obtain ⟨i, hi, rfl⟩ := List.mem_take_iff_getElem.mp (List.mem_of_mem_filter hp)
  simpa using (lt_min_iff.mp hi).1

lemma stepOver_usbFlags {board : Board} (h : LabelTakes board rows) :
    StepOver rows ⟨.usbBootFlags, freshUsbFlags rows (whiteLabel board).usbBootFlags⟩ :=
  stepOver_fresh (fun row => row) _ (by decide)
    (fun _ hrow => kindOf_usbBootFlags (Vector.mem_toList_iff.mp hrow))
    fun row hrow => (h.flags row hrow).sets

lemma stepOver_bootFlags : StepOver rows ⟨.bootFlags0, freshBootFlags rows⟩ :=
  stepOver_fresh (fun row => row) _ (by decide)
    (fun _ hrow => kindOf_bootFlags0 (Vector.mem_toList_iff.mp hrow)) fun _ _ _ => sets_or _ _

/-! ### Plans -/

lemma stepOver_before {board : Board} {size : BoardSize} {devinfo : Option UInt16}
    (h : SizeChoice board rows size devinfo) :
    ∀ s ∈ beforeOf rows devinfo, StepOver rows s ∧ s.kind = .flashDevinfo := by
  intro s hs
  cases devinfo with
  | none => cases hs
  | some devinfo =>
    cases size with
    | m => exact h.elim
    | l =>
      cases List.mem_singleton.mp hs
      exact ⟨stepOver_one (by decide +kernel) h.devinfo, rfl⟩

lemma stepOver_lock {inst : List PlannedWrite} (harea : ∀ w ∈ inst, InArea w.row)
    (htakes : ∀ page ∈ pagesOf inst, LockTakes rows inst page) :
    ∀ s ∈ (pagesOf inst).map (freshLock rows), StepOver rows s ∧ ∃ page, s.kind = .lock page := by
  intro s hs
  obtain ⟨page, hpage, rfl⟩ := List.mem_map.mp hs
  obtain ⟨hfirst, hlast⟩ := mem_pagesOf harea hpage
  exact ⟨stepOver_one (kindOf_lock hfirst hlast) (htakes page hpage).takes, page, rfl⟩

lemma stepOver_label {board : Board} (h : LabelTakes board rows) :
    ∀ s ∈ freshLabelSteps board rows, StepOver rows s := by
  simp only [freshLabelSteps, List.forall_mem_cons]
  exact ⟨stepOver_strings h, stepOver_table h, stepOver_one (by decide +kernel) h.addr,
    stepOver_usbFlags h, by simp⟩

lemma stepOver_bootStep (devinfo : Option UInt16) :
    ∀ s ∈ (freshSizeSteps rows devinfo).bootFlags0.toList, StepOver rows s ∧ s.kind = .bootFlags0 := by
  intro s hs
  cases devinfo with
  | none => cases hs
  | some devinfo =>
    cases List.mem_singleton.mp hs
    exact ⟨stepOver_bootFlags, rfl⟩

omit [PicoOtp] in
lemma pagesOf_nodup (inst : List PlannedWrite) : (pagesOf inst).Nodup := by
  unfold pagesOf
  simp only
  split
  · exact List.nodup_range'
  · exact List.nodup_nil

/-- **A commissioning's plan** is sound over the rows it was made from. -/
theorem sound_planOf {devinfo : Option UInt16} {writes : List RowWrite}
    (hchoice : SizeChoice request.board rows request.size devinfo)
    (hlabel : LabelTakes request.board rows) (hnodup : (writes.map (·.cell)).Nodup)
    (harea : ∀ w ∈ writes, InArea w.cell) (htakes : InstanceTakes rows writes)
    (hlocks : ∀ page ∈ pagesOf (freshInstance rows writes),
      LockTakes rows (freshInstance rows writes) page) :
    Sound rows (planOf rows (beforeOf rows devinfo) (afterOf request rows devinfo) writes) where
  kinds := by
    have hpages : ((pagesOf (freshInstance rows writes)).map StepKind.lock).Nodup :=
      (pagesOf_nodup _).map fun _ _ h => StepKind.lock.inj h
    cases devinfo <;>
      simp [planOf, beforeOf, afterOf, freshSizeSteps, freshLabelSteps, freshLock,
        Function.comp_def, List.nodup_append, hpages]
  step := by
    have harea' : ∀ w ∈ freshInstance rows writes, InArea w.row := by
      simpa [freshInstance, fresh] using harea
    simp only [planOf, afterOf, List.forall_mem_append, List.forall_mem_singleton]
    exact ⟨⟨⟨fun s hs => (stepOver_before hchoice s hs).1,
      stepOver_instance hnodup harea htakes⟩, fun s hs => (stepOver_lock harea' hlocks s hs).1⟩,
      stepOver_label hlabel, fun s hs => (stepOver_bootStep devinfo s hs).1⟩
  order := by
    -- no lock comes before the instance's step, and no instance from the locks on
    have hpre : ∀ s ∈ beforeOf rows devinfo ++ [⟨.instance_, freshInstance rows writes⟩],
        ¬∃ page, s.kind = .lock page := by
      rintro s hs ⟨page, hlock⟩
      rcases List.mem_append.mp hs with hs | hs
      · cases (stepOver_before hchoice s hs).2.symm.trans hlock
      · cases List.mem_singleton.mp hs
        cases hlock
    have hpost : ∀ t ∈ (pagesOf (freshInstance rows writes)).map (freshLock rows) ++
        afterOf request rows devinfo, t.kind ≠ .instance_ := by
      simp only [afterOf, List.forall_mem_append, List.forall_mem_map]
      refine ⟨fun _ _ => (by cases ·), by simp [freshLabelSteps], fun s hs heq => ?_⟩
      cases (stepOver_bootStep devinfo s hs).2.symm.trans heq
    rw [planOf, List.append_assoc]
    exact List.pairwise_append.mpr
      ⟨List.pairwise_iff_forall_sublist.mpr fun h hlock =>
          absurd hlock (hpre _ (h.subset (by simp))),
        List.pairwise_iff_forall_sublist.mpr fun h _ => hpost _ (h.subset (by simp)),
        fun s hs _ _ hlock => absurd hlock (hpre s hs)⟩
  devinfo := by
    rintro ⟨s, hs, hkind⟩
    cases devinfo with
    | some devinfo =>
      refine ⟨fresh rows OTP_FLASH_DEVINFO_ROW (.ecc devinfo),
        mem_writes.mpr ⟨⟨.flashDevinfo, [_]⟩, ?_, List.mem_singleton_self _⟩, rfl⟩
      simp [planOf, beforeOf, freshSizeSteps]
    | none =>
      simp [planOf, beforeOf, afterOf, freshSizeSteps, freshLabelSteps] at hs
      rcases hs with rfl | ⟨page, _, rfl⟩ | rfl | rfl | rfl | rfl <;> cases hkind
  addr := fun _ => by
    refine ⟨fresh rows OTP_ROW_USB_WHITE_LABEL_DATA (.ecc (UInt16.ofNat OTP_USB_WHITE_LABEL_ROW)),
      mem_writes.mpr ⟨⟨.whiteLabelAddr, [_]⟩, ?_, List.mem_singleton_self _⟩, rfl⟩
    simp [planOf, afterOf, freshLabelSteps]

/-- A plan that sets a board's size. -/
def sizePlanOf (rows : Rows) (devinfo : Option UInt16) : Plan :=
  ⟨beforeOf rows devinfo ++ (freshSizeSteps rows devinfo).bootFlags0.toList⟩

/-- **A size's plan** is sound over the rows it was made from. -/
theorem sound_sizePlanOf {board : Board} {size : BoardSize} {devinfo : Option UInt16}
    (h : SizeChoice board rows size devinfo) : Sound rows (sizePlanOf rows devinfo) where
  kinds := by cases devinfo <;> simp [sizePlanOf, beforeOf, freshSizeSteps]
  step := by
    simp only [sizePlanOf, List.forall_mem_append]
    exact ⟨fun s hs => (stepOver_before h s hs).1, fun s hs => (stepOver_bootStep devinfo s hs).1⟩
  order := by cases devinfo <;> simp [sizePlanOf, beforeOf, freshSizeSteps]
  devinfo := by
    rintro ⟨s, hs, hkind⟩
    cases devinfo with
    | some devinfo =>
      refine ⟨fresh rows OTP_FLASH_DEVINFO_ROW (.ecc devinfo),
        mem_writes.mpr ⟨⟨.flashDevinfo, [_]⟩, ?_, List.mem_singleton_self _⟩, rfl⟩
      simp [sizePlanOf, beforeOf, freshSizeSteps]
    | none => cases hs
  addr := by
    rintro ⟨s, hs, hkind⟩
    cases devinfo with
    | some devinfo =>
      simp [sizePlanOf, beforeOf, freshSizeSteps] at hs
      rcases hs with rfl | rfl <;> cases hkind
    | none => cases hs

lemma sizePlan_ok {board : Board} {size : BoardSize} {area : CommissioningArea} {ecc : UInt16}
    {locks : List PageLock} {plan : Plan}
    (h : sizePlan board size area (bootOf rows) ecc locks = .ok plan) :
    ∃ devinfo, SizeChoice board rows size devinfo ∧ plan = sizePlanOf rows devinfo := by
  obtain ⟨-, h⟩ := seq_eq_ok.mp h
  obtain ⟨-, h⟩ := seq_eq_ok.mp h
  obtain ⟨steps, hsteps, h⟩ := bind_eq_ok.mp h
  obtain ⟨-, devinfo, hchoice, rfl⟩ := sizeSteps_eq_ok.mp hsteps
  obtain ⟨-, h⟩ := seq_eq_ok.mp h
  exact ⟨devinfo, hchoice, (pure_eq_ok.mp h).symm⟩

/-- **A size's plan** is made over the board's rows, and only reads were made. -/
theorem planSize_ok {board : Board} {size : BoardSize} {otp otp' : Otp} {plan : Plan}
    (h : planSize host board size otp = (.ok plan, otp')) :
    (∃ devinfo, SizeChoice board otp.rows size devinfo ∧ plan = sizePlanOf otp.rows devinfo) ∧
      Reads otp otp' := by
  unfold planSize at h
  cases hmodel : board.model with
  | ice =>
    rw [hmodel] at h
    cases h
  | fire =>
    rw [hmodel] at h
    obtain ⟨area, s1, h1, h⟩ := Prog.bind_ok.mp h
    obtain ⟨boot, s2, h2, h⟩ := Prog.bind_ok.mp h
    obtain ⟨ecc, s3, h3, h⟩ := Prog.bind_ok.mp h
    obtain ⟨locks, s4, h4, h⟩ := Prog.bind_ok.mp h
    obtain ⟨-, r1⟩ := readArea_ok (Prog.mapError_ok.mp h1)
    obtain ⟨rfl, r2⟩ := bootRows_ok (Prog.mapError_ok.mp h2)
    obtain ⟨-, r3⟩ := readEccRows_ok (Prog.mapError_ok.mp h3)
    obtain ⟨-, r4⟩ := readLocks_ok (Prog.mapError_ok.mp h4)
    obtain ⟨hplan, rfl⟩ := Prod.mk.inj h
    rw [r1.rows] at hplan
    exact ⟨sizePlan_ok hplan, r1.trans (r2.trans (r3.trans r4))⟩

/-! ### Runs -/

/-- A plan made for a board with these rows, and the accesses that made it. -/
inductive Planned (host : Host) (rows : Rows) (plan : Plan) (otp : Otp) : Prop
  | commission (request : Request) (p : Prepared)
      (signature : Vector UInt8 OTP_COMMISSIONING_SIG_LEN)
      (hprepare : prepare host request ⟨rows, []⟩ = (.ok p, otp))
      (hplan : p.plan signature = .ok plan)
  | size (board : Board) (size : BoardSize)
      (hplan : planSize host board size ⟨rows, []⟩ = (.ok plan, otp))

namespace Planned

variable {plan : Plan} {otp : Otp}

/-- An access among reads found a row holding its value. -/
lemma readBack_of_mem {log : List Moment} (hread : ∀ m ∈ log, Access.IsRead m.access) {m : Moment}
    (hm : m ∈ log) {w : PlannedWrite} (hfound : FoundHolding m.access w) : ReadBack w log := by
  induction log with
  | nil => cases hm
  | cons m' log ih =>
    rcases List.mem_cons.mp hm with rfl | hm
    · exact .inl hfound
    · refine .inr ⟨fun value heq => ?_, ih (fun m hm => hread m (by simp [hm])) hm⟩
      have := hread m' (by simp)
      rw [heq] at this
      exact this.elim

/-- A raw read of the area found each of its rows that holds its planned value. -/
lemma foundHolding_area {access : Access} (hm : access = .readRaw OTP_COMMISSIONING_AREA_FIRST_ROW
      (rawsOf rows OTP_COMMISSIONING_AREA_FIRST_ROW AREA_ROWS)) {w : PlannedWrite}
    (harea : InArea w.row) (hheld : Held rows w) : FoundHolding access w := by
  refine ⟨_, _, rows w.row, hm, harea.1, ?_, hheld⟩
  have hraw : (rawsOf rows OTP_COMMISSIONING_AREA_FIRST_ROW AREA_ROWS).getD
      (w.row - OTP_COMMISSIONING_AREA_FIRST_ROW) 0 = rows w.row := raw_of_area harea
  have hlt : w.row - OTP_COMMISSIONING_AREA_FIRST_ROW <
      (rawsOf rows OTP_COMMISSIONING_AREA_FIRST_ROW AREA_ROWS).length := by
    obtain ⟨hfirst, hend⟩ := harea
    simp only [rawsOf, List.length_map, List.length_range', AREA_ROWS, COMMISSIONING_AREA_END,
      OTP_COMMISSIONING_AREA_FIRST_ROW, OTP_COMMISSIONING_AREA_LAST_ROW] at hfirst hend ⊢
    omega
  rw [List.getElem?_eq_getElem hlt, Option.some_inj, ← hraw, List.getD_eq_getElem _ _ hlt]

/-- **Planned** plans are sound, and their area rows that need no write were read. -/
theorem sound (h : Planned host rows plan otp) :
    Sound rows plan ∧ otp.rows = rows ∧ Run plan (Done plan []) otp := by
  cases h with
  | commission request p signature hprepare hplan =>
    obtain ⟨⟨values, replaced, devinfo, hpasses, rfl⟩, hreads, m, hm, hraw⟩ := prepare_ok hprepare
    obtain ⟨row, new, -, hnew, htakes, hlocks, rfl⟩ := (plan_eq_ok hpasses).mp hplan
    have hsound := sound_planOf hpasses.choice hpasses.label
      (cells_nodup signature hpasses.accepted hnew)
      (writes_inArea hpasses.accepted hnew) htakes hlocks
    refine ⟨hsound, hreads.rows, Safe.reads hreads trivial, fun w hw => ?_⟩
    obtain ⟨hw, harea, hholds⟩ := hw.resolve_right (by simp)
    obtain ⟨s, hs, hws⟩ := mem_writes.mp hw
    have hheld : Held rows w := ((hsound.step s hs).holds_eq w hws).symm.trans hholds
    obtain ⟨ms, hms, hread⟩ := hreads.log
    rw [List.append_nil] at hms
    exact ⟨hreads.rows ▸ hheld,
      readBack_of_mem (hms ▸ hread) hm (foundHolding_area hraw harea hheld)⟩
  | size board size hplan =>
    obtain ⟨⟨devinfo, hchoice, rfl⟩, hreads⟩ := planSize_ok hplan
    have hsound := sound_sizePlanOf hchoice
    refine ⟨hsound, hreads.rows, Safe.reads hreads trivial, fun w hw => ?_⟩
    obtain ⟨hw, harea, -⟩ := hw.resolve_right (by simp)
    obtain ⟨s, hs, hkind, -⟩ := hsound.mem_step hw (kindOf_area harea)
    exfalso
    cases devinfo with
    | some devinfo =>
      simp [sizePlanOf, beforeOf, freshSizeSteps] at hs
      rcases hs with rfl | rfl <;> cases hkind
    | none => cases hs

end Planned

/-- **Enable bits** are only ever set over good rows: whatever becomes of each write, every write
of a planned run is safe when it is made. No row is planned twice, and a row still to write has no
bit its value clears. -/
theorem execute_safe {plan : Plan} {otp : Otp} (h : Planned host rows plan otp) :
    (plan.writes.map (·.row)).Nodup ∧
      (∀ w ∈ plan.writes, w.holds = false → Sets (rows w.row) w.value) ∧
        Safe plan (plan.execute host otp).2.log := by
  obtain ⟨hsound, -, hrun⟩ := h.sound
  refine ⟨hsound.rows_nodup, fun w hw hnot => ?_, ?_⟩
  · obtain ⟨s, hs, hws⟩ := mem_writes.mp hw
    exact (hsound.step s hs).sets w hws hnot
  · exact ((execute_triple host hsound).mono (fun _ h => h) (fun _ _ h => h.safe)
      fun _ h => h).final hrun

end Plans

/-! ### A blank chip -/

def blankRows : Rows := fun _ => 0

/-- A blank chip. -/
def blankHost : Host := @MemoryOtp.host fire24FOtp (.reset blankRows)

def fire24FRequest : Request := ⟨fire24F, .m, "piers.rocks", .today "20260926", 1, false⟩

lemma exists_ok {σ ε α : Type} {x : Prog σ ε α} {s : σ} (h : (x s).1.toOption.isSome = true) :
    ∃ a, x s = (.ok a, (x s).2) := by
  obtain ⟨a, ha⟩ := Option.isSome_iff_exists.mp h
  exact ⟨a, Prod.ext (toOption_eq_some.mp ha) rfl⟩

/-- On a blank chip a commissioning and a size are planned, and each run is safe. -/
theorem execute_safe_blank :
    (∃ plan otp, @Planned fire24FOtp blankHost blankRows plan otp ∧
        (∃ s ∈ plan.steps, s.kind = .usbBootFlags) ∧
          @Safe fire24FOtp plan (@Plan.execute fire24FOtp blankHost plan otp).2.log) ∧
      ∃ plan otp, @Planned fire24FOtp blankHost blankRows plan otp ∧
        (∃ s ∈ plan.steps, s.kind = .bootFlags0) ∧
          @Safe fire24FOtp plan (@Plan.execute fire24FOtp blankHost plan otp).2.log := by
  constructor
  · obtain ⟨p, hp⟩ := exists_ok (x := @prepare fire24FOtp blankHost fire24FRequest)
      (s := ⟨blankRows, []⟩) (by decide +kernel)
    have hplan : ∃ plan, @Prepared.plan fire24FOtp p (Vector.replicate _ 0xa5) = .ok plan := by
      have hsome : ((@prepare fire24FOtp blankHost fire24FRequest ⟨blankRows, []⟩).1.toOption.bind
          fun p => (@Prepared.plan fire24FOtp p (Vector.replicate _ 0xa5)).toOption).isSome = true := by
        decide +kernel
      rw [hp] at hsome
      obtain ⟨plan, hplan⟩ := Option.isSome_iff_exists.mp hsome
      exact ⟨plan, toOption_eq_some.mp hplan⟩
    obtain ⟨plan, hplan⟩ := hplan
    have hplanned := @Planned.commission fire24FOtp _ _ _ _ fire24FRequest p _ hp hplan
    refine ⟨plan, _, hplanned, ?_, (@execute_safe fire24FOtp _ _ _ _ hplanned).2.2⟩
    let _ := fire24FOtp
    obtain ⟨⟨values, replaced, devinfo, hpasses, rfl⟩, -⟩ := prepare_ok hp
    obtain ⟨row, new, -, -, -, -, rfl⟩ := (plan_eq_ok hpasses).mp hplan
    exact ⟨⟨.usbBootFlags, freshUsbFlags blankRows (whiteLabel fire24F).usbBootFlags⟩,
      by simp [planOf, afterOf, freshLabelSteps, fire24FRequest], rfl⟩
  · obtain ⟨plan, hplan⟩ := exists_ok (x := @planSize fire24FOtp blankHost fire40A .l)
      (s := ⟨blankRows, []⟩) (by decide +kernel)
    have hplanned := @Planned.size fire24FOtp _ _ _ _ fire40A .l hplan
    refine ⟨plan, _, hplanned, ?_, (@execute_safe fire24FOtp _ _ _ _ hplanned).2.2⟩
    have hkinds : ((@planSize fire24FOtp blankHost fire40A .l ⟨blankRows, []⟩).1.toOption.map
        fun plan => plan.steps.any (·.kind == .bootFlags0)) = some true := by
      decide +kernel
    rw [hplan] at hkinds
    simpa [Except.toOption] using hkinds

end OneRom.CommissionRuns
