import OneRom.CommissionRuns
import OneRom.OtpWalk

/-!
Where the instance a run commits is the current one.

Executing a plan leaves the instance's values in its rows and every other row of the area as it was,
so the parser finds it where the walk over the rows before comes to the row it was put at. What lies
after the instance then decides whether it is current.
-/

namespace OneRom.CommissionCommit

open OneRom.OtpEntry OneRom.OtpStore OneRom.OtpWriter OneRom.OtpArea OneRom.OtpAttempt
open OneRom.OtpHistory OneRom.OtpWalk OneRom.Hw OneRom.WriteOnce OneRom.Fallible OneRom.OtpAccess
open OneRom.Commission OneRom.OtpReads OneRom.Checks OneRom.CommissionPlan OneRom.CommissionPrepare
open OneRom.CommissionSafe OneRom.CommissionRuns OneRom.OtpMemory

/-! ### What an execution leaves -/

section Execute

variable [PicoOtp] {host : Host} {plan : Plan}

/-- What holds of every row's value but these is kept by writing these rows. -/
def Other (cells : List ℕ) (P : Rows → Prop) : Prop :=
  ∀ rows row raw, row ∈ cells → P rows → P (Function.update rows row raw)

lemma readBack_keeps (P : Rows → Prop) (w : PlannedWrite) :
    Keeps (fun otp => P otp.rows) (Commission.readBack host w) fun _ otp => P otp.rows :=
  (readBack_triple host (stable_rows P) w).mono (fun _ h => h) (fun _ _ h => h.1) fun _ h => h

lemma writeRow_keeps {P : Rows → Prop} {cells : List ℕ} (hP : Other cells P) {w : PlannedWrite}
    (hw : w.row ∈ cells) :
    Keeps (fun otp => P otp.rows) (writeRow host w) fun _ otp => P otp.rows := by
  have hwrite : Keeps (fun otp => P otp.rows) ((writeRowValue host w.row w.value).mapError
      (at_ w.row)) fun _ otp => P otp.rows := by
    refine Triple.mapError fun otp hotp => ?_
    unfold writeRowValue
    rcases host.write otp.log.length w.row w.value (otp.rows w.row) with ⟨raw, _ | e⟩ <;>
      exact hP _ _ _ hw hotp
  exact hwrite.bind fun _ => readBack_keeps P w

/-- What reads keep, checking the rows a step enables keeps. -/
lemma checkEnabled_stable {P : Otp → Prop} (hP : Stable P) (kind : StepKind) :
    Keeps P (plan.checkEnabled host kind) fun _ => P := by
  have hback : ∀ kinds, Keeps P (plan.readBackSteps host kinds) fun _ => P := fun kinds =>
    (readBackSteps_triple host hP kinds).mono (fun _ h => h) (fun _ _ h => h.1) fun _ h => h
  cases kind with
  | usbBootFlags => exact hback _
  | bootFlags0 =>
    refine (hback _).bind fun _ => ?_
    refine ((readRow_triple host hP OTP_FLASH_PARTITION_SLOT_SIZE_ROW).mono
      (fun _ h => h) (fun _ _ h => h.1) fun _ h => h).bind fun raw => ?_
    by_cases hcode : (codeword raw).isSome = true
    · rw [if_pos hcode]
      exact Triple.pure fun _ h => h
    · rw [if_neg hcode]
      exact Triple.throw fun _ h => h
  | _ => exact Triple.pure fun _ h => h

/-- **Frame**: what writes to a plan's rows keep, executing the plan keeps. -/
theorem execute_keeps {P : Rows → Prop} (hP : Other (plan.writes.map (·.row)) P) :
    Keeps (fun otp => P otp.rows) (plan.execute host) fun _ otp => P otp.rows := by
  refine Triple.each (fun _ (otp : Otp) => P otp.rows) plan.steps fun pre s post hsteps => ?_
  unfold Plan.executeStep
  split
  · refine (checkEnabled_stable (stable_rows P) s.kind).bind fun _ => ?_
    refine Triple.each (fun _ (otp : Otp) => P otp.rows) s.toWrite fun done w rest hws =>
      writeRow_keeps hP (List.mem_map_of_mem (mem_writes.mpr ⟨s, by simp [hsteps], ?_⟩))
    exact (mem_toWrite.mp (by rw [hws]; simp)).1
  · exact Triple.pure fun _ h => h

/-- A row a plan doesn't write stays as it was. -/
lemma execute_frame {row : ℕ} (hrow : ∀ w ∈ plan.writes, w.row ≠ row) (otp : Otp) :
    (plan.execute host otp).2.rows row = otp.rows row := by
  have hother : Other (plan.writes.map (·.row)) fun rows => rows row = otp.rows row := by
    rintro rows cell raw hcell hP
    obtain ⟨w, hw, rfl⟩ := List.mem_map.mp hcell
    rw [Function.update_of_ne (Ne.symm (hrow w hw)), hP]
  exact (execute_keeps hother).final rfl

/-- A plan that was executed left each of its area rows holding its value. -/
lemma held_of_executed {rows : Rows} {otp otp' : Otp} (h : Planned host rows plan otp)
    (hexecute : plan.execute host otp = (.ok (), otp')) :
    ∀ w ∈ plan.writes, InArea w.row → Held otp'.rows w := by
  obtain ⟨hsound, -, hrun⟩ := h.sound
  have hdone := (execute_triple host hsound).ok hrun hexecute
  intro w hw harea
  refine (hdone.verified w ?_).held
  cases hholds : w.holds with
  | true => exact .inl ⟨hw, harea, hholds⟩
  | false =>
    obtain ⟨s, hs, hws⟩ := mem_writes.mp hw
    exact .inr ⟨s, hs, mem_toWrite.mpr ⟨hws, hholds⟩⟩

end Execute

/-! ### Runs -/

/-- Where the parser lost its place for good, it did so before `row`. -/
def LostBefore (area : CommissioningArea) (row : ℕ) : Prop :=
  isAbandoned area = true → ∀ lost, area.issues.getLast? = some (.lostPlace lost) → lost < row

/-- A run that prepared a request, planned it and executed the plan. -/
structure CommissionRun [PicoOtp] (host : Host) (request : Request)
    (signature : Vector UInt8 OTP_COMMISSIONING_SIG_LEN) where
  rows : Rows
  prepared : Prepared
  read : Otp
  plan : Plan
  done : Otp
  prepares : prepare host request ⟨rows, []⟩ = (.ok prepared, read)
  plans : prepared.plan signature = .ok plan
  executes : plan.execute host read = (.ok (), done)

/-- Raw and ECC reads agree: an ECC read gives the value a row holds, and 0 for an unwritten row. -/
structure Consistent [PicoOtp] (host : Host) : Prop where
  held : ∀ raw value, OtpAccess.holds raw value = true → host.eccRead raw = value
  unwritten : ∀ raw, isUnwritten raw = true → host.eccRead raw = 0

section Runs

variable [PicoOtp] {host : Host} {request : Request}
  {signature : Vector UInt8 OTP_COMMISSIONING_SIG_LEN}

namespace CommissionRun

variable (run : CommissionRun host request signature)

/-- The rows of the instance, first row first. -/
def instanceRows : List ℕ := (run.plan.writesOf [.instance_]).map (·.row)

/-- The row the plan chose. -/
def firstRow : ℕ := run.instanceRows.headD 0

def rowCount : ℕ := run.instanceRows.length

/-- An instance that shows everything the run was given, at the row the plan chose. -/
structure Commits (inst : CommissioningInstance) : Prop where
  firstRow : inst.firstRow = run.firstRow
  board : inst.board = some request.board.name
  manufacturer : inst.manufacturer = some request.manufacturer
  date : inst.date = some run.prepared.date
  signer : inst.signer = some request.signer
  signature : inst.signature = some signature

/-- Where the parser lost its place for good, it did so before the row the plan chose, and from the
first boundary after the instance it finds no complete instance and keeps its place. -/
structure Findable : Prop where
  lostBefore : LostBefore run.prepared.area run.firstRow
  quiet : Quiet (eccRows host run.rows) (boundaryAfter run.firstRow run.rowCount)

end CommissionRun

/-- The commissioning a run makes, and the run's area and plan in its terms. -/
structure Makes (run : CommissionRun host request signature) (c : Commissioning) : Prop where
  board : c.board = request.board
  manufacturer : c.manufacturer = request.manufacturer
  date : c.date = run.prepared.date
  signer : c.signer = request.signer
  signed : c.signature = signature
  area : run.prepared.area = areaNow host run.rows
  areaRaw : run.prepared.areaRaw = rawsOf run.rows OTP_COMMISSIONING_AREA_FIRST_ROW AREA_ROWS
  checked : checkArea (areaNow host run.rows) = .ok ()
  placed : PlacedBy run.prepared signature c.firstRow
  writes : run.plan.writesOf [.instance_] = freshInstance run.rows c.writes

lemma Makes.instanceRows {run : CommissionRun host request signature} {c : Commissioning}
    (h : Makes run c) : run.instanceRows = c.writes.map (·.cell) := by
  rw [CommissionRun.instanceRows, h.writes, freshInstance, List.map_map]
  rfl

lemma Makes.firstRow {run : CommissionRun host request signature} {c : Commissioning}
    (h : Makes run c) : run.firstRow = c.firstRow := by
  rw [CommissionRun.firstRow, h.instanceRows, Commissioning.writes_eq]
  rfl

lemma Makes.rowCount {run : CommissionRun host request signature} {c : Commissioning}
    (h : Makes run c) : run.rowCount = c.values.rowCount := by
  rw [CommissionRun.rowCount, h.instanceRows, List.length_map, c.length_writes]

lemma writesOf_planOf {rows : Rows} {devinfo : Option UInt16} {writes : List RowWrite} :
    (planOf rows (beforeOf rows devinfo) (afterOf request rows devinfo) writes).writesOf
      [.instance_] = freshInstance rows writes := by
  have hlocks : ((pagesOf (freshInstance rows writes)).map (freshLock rows)).filter
      (·.kind ∈ [StepKind.instance_]) = [] := by
    simp [List.filter_eq_nil_iff, freshLock]
  simp only [Plan.writesOf, planOf, List.filter_append, hlocks]
  cases devinfo <;> simp [beforeOf, afterOf, freshSizeSteps, freshLabelSteps]

/-- **What a run makes**: every run is that of one commissioning. -/
theorem exists_makes (run : CommissionRun host request signature) : ∃ c, Makes run c := by
  obtain ⟨⟨values, replaced, devinfo, hpasses, hprepared⟩, -⟩ := prepare_ok run.prepares
  have hplans := run.plans
  rw [hprepared] at hplans
  obtain ⟨row, new, hplaced, hnew, htakes, hlocks, hplan⟩ := (plan_eq_ok hpasses).mp hplans
  exact ⟨⟨request.board, request.manufacturer, dateOf host request run.rows, request.signer,
      signature, values, hpasses.accepted, row, new, hnew⟩,
    { board := rfl
      manufacturer := rfl
      date := by rw [hprepared]; rfl
      signer := rfl
      signed := rfl
      area := by rw [hprepared]; rfl
      areaRaw := by rw [hprepared]; rfl
      checked := hpasses.area
      placed := by rw [hprepared]; exact hplaced
      writes := by rw [hplan]; exact writesOf_planOf }⟩

lemma Makes.commits {run : CommissionRun host request signature} {c : Commissioning}
    (h : Makes run c) {inst : CommissioningInstance} (hshows : Shows c inst) : run.Commits inst where
  firstRow := hshows.firstRow.trans h.firstRow.symm
  board := h.board ▸ hshows.board
  manufacturer := h.manufacturer ▸ hshows.manufacturer
  date := h.date ▸ hshows.date
  signer := h.signer ▸ hshows.signer
  signature := h.signed ▸ hshows.signature

/-! ### The area after a run -/

/-- After a run the area reads as the one before with the instance's writes applied. -/
lemma area_after (hcons : Consistent host) {run : CommissionRun host request signature}
    {c : Commissioning} (h : Makes run c) {row : ℕ} (hfirst : 0x0c0 ≤ row) (hend : row < 0x4c0) :
    eccRows host run.done.rows row = apply (eccRows host run.rows) c.writes row := by
  have hplanned : Planned host run.rows run.plan run.read :=
    .commission request run.prepared signature run.prepares run.plans
  obtain ⟨hsound, hread, -⟩ := hplanned.sound
  have hkind : ∀ {w}, w ∈ run.plan.writes → InArea w.row → w ∈ freshInstance run.rows c.writes :=
    fun hw harea => h.writes ▸ hsound.mem_writesOf hw (kindOf_area harea) (by simp)
  by_cases hmem : row ∈ c.writes.map (·.cell)
  · obtain ⟨w, hw, rfl⟩ := List.mem_map.mp hmem
    have hfresh : fresh run.rows w.cell (.ecc w.value) ∈ run.plan.writesOf [.instance_] := by
      rw [h.writes]
      exact List.mem_map_of_mem hw
    have hwrites : fresh run.rows w.cell (.ecc w.value) ∈ run.plan.writes := by
      obtain ⟨s, hs, hws⟩ := List.mem_flatMap.mp hfresh
      exact mem_writes.mpr ⟨s, List.mem_of_mem_filter hs, hws⟩
    have hheld := held_of_executed hplanned run.executes _ hwrites ⟨hfirst, hend⟩
    rw [apply_of_mem _ c.lays_writes.nodup hw]
    exact hcons.held _ _ hheld
  · rw [apply_of_notMem _ hmem]
    have hframe := @execute_frame _ host run.plan row
      (fun w hw heq => hmem ?_) run.read
    · rw [run.executes, hread] at hframe
      exact congrArg host.eccRead hframe
    · have hfresh := hkind hw (heq ▸ ⟨hfirst, hend⟩)
      obtain ⟨v, hv, rfl⟩ := List.mem_map.mp hfresh
      exact heq ▸ List.mem_map_of_mem hv

/-! ### The walk to the instance -/

omit [PicoOtp] in
lemma not_abandoned_of_ended {mem : ℕ → UInt16} {instances : List CommissioningInstance}
    {issues : List AreaIssue} {next : Option ℕ}
    (h : walk (areaOf mem) 0x0c0 = (instances, issues, .ended next)) :
    isAbandoned (parsed mem) = false := by
  obtain ⟨hinstances, hissues, -⟩ := parsed_ended h
  unfold isAbandoned
  rw [hinstances, hissues]
  rcases hlast : issues.getLast? with _ | ⟨row, version⟩ | ⟨lost⟩
  · rfl
  · rfl
  · obtain ⟨last, hmem, hlt⟩ := lost_lt_last h hlast
    simp [hmem, hlt]

lemma lostBefore_of_not_abandoned {run : CommissionRun host request signature}
    (h : isAbandoned run.prepared.area = false) : LostBefore run.prepared.area run.firstRow :=
  fun habandoned => absurd (h.symm.trans habandoned) (by decide)

omit [PicoOtp] in
/-- No area that passes its checks holds an unknown version. -/
lemma not_unknownVersion {area : CommissioningArea} (h : checkArea area = .ok ()) {row : ℕ}
    {version : UInt16} : .unknownVersion row version ∉ area.issues := fun hmem => by
  obtain ⟨hversion, -⟩ := seq_eq_ok.mp h
  have := forM_eq_ok.mp hversion _ hmem
  cases this

/-- The rows after the last written one read 0. -/
lemma zero_after_written (hcons : Consistent host) {run : CommissionRun host request signature}
    {c : Commissioning} (h : Makes run c) (hrow : c.firstRow = run.prepared.afterLastWrittenRow) :
    ZeroFrom (eccRows host run.rows) 0x0c0 ∨ ∃ written, c.firstRow = pageAfter written ∧
      ZeroFrom (eccRows host run.rows) (written + 1) := by
  have hraws : ∀ r, (hr : r - 0x0c0 < run.prepared.areaRaw.length) → 0x0c0 ≤ r →
      run.prepared.areaRaw[r - 0x0c0] = run.rows r := fun r hr hge => by
    have hadd : OTP_COMMISSIONING_AREA_FIRST_ROW + (r - 0x0c0) = r := Nat.add_sub_cancel' hge
    simp only [h.areaRaw, rawsOf, List.getElem_map, List.getElem_range', one_mul, hadd]
  have hlen : run.prepared.areaRaw.length = 1024 := by
    simp [h.areaRaw, rawsOf, AREA_ROWS, OTP_COMMISSIONING_AREA_FIRST_ROW,
      OTP_COMMISSIONING_AREA_LAST_ROW]
  unfold Prepared.afterLastWrittenRow at hrow
  rcases hpos : rposition (fun raw => !isUnwritten raw) run.prepared.areaRaw with _ | i
  · refine .inl fun r hge hlt => hcons.unwritten _ ?_
    have hnone : run.prepared.areaRaw.reverse.find? (fun raw => !isUnwritten raw) = none := by
      rw [← getElem?_rposition, hpos]
      rfl
    have hi : r - 0x0c0 < run.prepared.areaRaw.length := by omega
    have hall := List.find?_eq_none.mp hnone run.prepared.areaRaw[r - 0x0c0] (by simp)
    rw [hraws r hi hge] at hall
    simpa using hall
  · rw [hpos] at hrow
    refine .inr ⟨_, hrow, fun r hge hlt => hcons.unwritten _ ?_⟩
    simp only [OTP_COMMISSIONING_AREA_FIRST_ROW] at hge
    have hi : r - 0x0c0 < run.prepared.areaRaw.length := by omega
    have hall := rposition_after hpos (r - 0x0c0) hi (by omega)
    rw [hraws r hi (by omega)] at hall
    simpa using hall

/-- **Placement**: the walk comes to the instance, unless it was put before the row where the parser
lost its place for good; then the area has no current instance. -/
theorem reached_or_lost (hcons : Consistent host) {run : CommissionRun host request signature}
    {c : Commissioning} (h : Makes run c) :
    (LostBefore run.prepared.area run.firstRow ∧ ∃ instances issues,
      Leads (areaOf (apply (eccRows host run.rows) c.writes)) c.firstRow 0x0c0 instances issues) ∨
    (¬LostBefore run.prepared.area run.firstRow ∧
      (parsed (apply (eccRows host run.rows) c.writes)).current = none) := by
  have hfits := c.fits
  have hcount := c.two_le_rowCount
  have hpage := (NewCommissioningInstance.new_ok c.placed).boundary
  have harea : run.prepared.area = parsed (eccRows host run.rows) := h.area
  have hbefore : ∀ r, r < c.firstRow →
      apply (eccRows host run.rows) c.writes r = eccRows host run.rows r := fun r hr => by
    have := c.lays_writes.apply_take_of_notMem (eccRows host run.rows) c.writes.length (.inl hr)
    rwa [List.take_length] at this
  have hmagic : apply (eccRows host run.rows) c.writes c.firstRow = OTP_STORE_MAGIC := by
    have := magic_row c (eccRows host run.rows) (k := c.writes.length)
      (by rw [c.length_writes]; omega)
    rwa [List.take_length] at this
  cases h.placed with
  | resumed last hfound hlast hrow =>
    refine .inl ⟨lostBefore_of_not_abandoned hfound, ?_⟩
    rw [harea, (parsed_walk _).1] at hlast
    obtain ⟨⟨instances, issues, hleads⟩, -⟩ := leads_instance (List.mem_of_getLast? hlast)
    rw [← hrow] at hleads
    exact ⟨instances, issues, hleads.agree le_rfl (by omega) hbefore fun _ => hmagic⟩
  | next _ hnext =>
    rcases hwalk : walk (areaOf (eccRows host run.rows)) 0x0c0 with ⟨instances, issues, next | _⟩
    · have hfound := harea ▸ not_abandoned_of_ended hwalk
      refine .inl ⟨lostBefore_of_not_abandoned hfound, instances, issues, ?_⟩
      obtain ⟨-, -, hnextRow, -⟩ := parsed_ended hwalk
      rw [harea, hnextRow] at hnext
      subst hnext
      exact (leads_ended hwalk).1.agree le_rfl (by omega) hbefore fun _ => hmagic
    · rw [harea, (parsed_abandoned hwalk).1] at hnext
      cases hnext
  | after _ hnext hlost hrow =>
    rcases hwalk : walk (areaOf (eccRows host run.rows)) 0x0c0 with ⟨instances, issues, next | _⟩
    · have hfound := not_abandoned_of_ended hwalk
      rw [← harea, hlost] at hfound
      cases hfound
    · have hissues : (parsed (eccRows host run.rows)).issues = issues := by
        rw [(parsed_walk _).2, hwalk]
      rcases leads_abandoned hwalk with ⟨row, version, hmem⟩ | hloses
      · exact absurd (hissues ▸ hmem) (not_unknownVersion h.checked)
      obtain ⟨b, lost, before, last, issues', hleads, hend, hloses, hnone, -, rfl⟩ := hloses
      rw [areaOf_endRow] at hend
      have hfirst : 0x0c0 ≤ b := hleads.le
      have hlast : run.prepared.area.issues.getLast? = some (.lostPlace lost) := by
        rw [harea, hissues, List.getLast?_concat]
      have hne : eccRows host run.rows b ≠ 0 := by
        rw [← row_areaOf (eccRows host run.rows) hfirst hend]
        cases hloses with
        | instance_ hmagic _ => rw [hmagic]; decide
        | row hne _ _ => exact hne
      obtain ⟨written, hwritten, hzero⟩ : ∃ written, c.firstRow = pageAfter written ∧
          ZeroFrom (eccRows host run.rows) (written + 1) := by
        rcases zero_after_written hcons h hrow with hzero | hwritten
        · exact absurd (hzero b hfirst hend) hne
        · exact hwritten
      have hpageWritten := lt_pageAfter written
      rw [← hwritten] at hpageWritten
      by_cases hbefore' : lost < c.firstRow
      · refine .inl ⟨fun _ lost' hlost' => ?_, ?_⟩
        · cases hlast.symm.trans hlost'
          exact h.firstRow ▸ hbefore'
        · have hb := hloses.le
          have hto : Leads (areaOf (apply (eccRows host run.rows) c.writes)) b 0x0c0 before issues' :=
            hleads.agree le_rfl hend (fun r hr => hbefore r (by omega))
              fun heq => (hbefore b (by omega)).trans heq
          exact ⟨_, _, hto.trans (hloses.leads_next hfirst hbefore' hpage (by omega)
            (hzero _ hpageWritten (by omega)) hnone hbefore hmagic)⟩
      · refine .inr ⟨fun hall => hbefore' (h.firstRow ▸ hall hlost lost hlast), ?_⟩
        exact current_lostLast hzero hpageWritten (by omega) hbefore hleads hend hloses
          (not_lt.mp hbefore')

/-- **The current instance** after a run is the one committed exactly where the parser can find it
and finds no complete instance after it. -/
theorem committed_current (hcons : Consistent host) (run : CommissionRun host request signature)
    {area : CommissioningArea} {otp : Otp} (hread : readArea host run.done = (.ok area, otp)) :
    (∃ inst, area.current = some inst ∧ run.Commits inst) ↔ run.Findable := by
  obtain ⟨c, h⟩ := exists_makes run
  obtain ⟨rfl, -⟩ := readArea_ok hread
  have hsame : parsed (eccRows host run.done.rows) =
      parsed (apply (eccRows host run.rows) c.writes) :=
    parsed_congr fun r hfirst hend => area_after hcons h hfirst hend
  rw [hsame]
  rcases reached_or_lost hcons h with ⟨hbefore, instances, issues, hleads⟩ | ⟨hnot, hnone⟩
  · constructor
    · rintro ⟨inst, hcurrent, hcommits⟩
      have hquiet := quiet_of_current hleads hcurrent (hcommits.firstRow.trans h.firstRow)
      exact ⟨hbefore, by rw [h.firstRow, h.rowCount]; exact hquiet⟩
    · rintro ⟨-, hquiet⟩
      rw [h.firstRow, h.rowCount] at hquiet
      obtain ⟨inst, hcurrent, hshows⟩ := current_of_quiet hleads hquiet
      exact ⟨inst, hcurrent, h.commits hshows⟩
  · rw [hnone]
    constructor
    · rintro ⟨_, hcurrent, -⟩
      cases hcurrent
    · exact fun hfindable => absurd hfindable.lostBefore hnot

end Runs

/-! ### Runs on a chip -/

/-- The current instance after a run, where the run succeeds and the area can be read. -/
def currentAfter [PicoOtp] (host : Host) (request : Request)
    (signature : Vector UInt8 OTP_COMMISSIONING_SIG_LEN) (rows : Rows) :
    Option (Option CommissioningInstance) :=
  match commission host request (fun _ => signature) ⟨rows, []⟩ with
  | (.ok _, otp) => (readArea host otp).1.toOption.map (·.current)
  | (.error _, _) => none

lemma exists_run [PicoOtp] {host : Host} {request : Request}
    {signature : Vector UInt8 OTP_COMMISSIONING_SIG_LEN} {rows : Rows}
    {current : Option CommissioningInstance}
    (h : currentAfter host request signature rows = some current) :
    ∃ (run : CommissionRun host request signature) (area : CommissioningArea) (otp : Otp),
      run.rows = rows ∧ readArea host run.done = (.ok area, otp) ∧ area.current = current := by
  unfold currentAfter at h
  split at h
  · next otp hcommission =>
    obtain ⟨prepared, read, hprepare, hrest⟩ := Prog.bind_ok.mp hcommission
    obtain ⟨plan, read', hplan, hexecute⟩ := Prog.bind_ok.mp hrest
    obtain ⟨hplanned, rfl⟩ := Prod.mk.inj hplan
    obtain ⟨area, harea, hcurrent⟩ := Option.map_eq_some_iff.mp h
    exact ⟨⟨rows, prepared, read, plan, otp, hprepare, hplanned, hexecute⟩, area, _, rfl,
      Prod.ext (toOption_eq_some.mp harea) rfl, hcurrent⟩
  · cases h

section Chip

local instance chipOtp : PicoOtp := fire24FOtp

lemma consistent_memory (otp : MemoryOtp) : Consistent otp.host :=
  ⟨fun _ _ h => eccRead_of_held h, fun _ h => eccRead_of_unwritten h⟩

/-- A signature. -/
def someSignature : Vector UInt8 OTP_COMMISSIONING_SIG_LEN := Vector.replicate _ 0xa5

/-- On a blank chip the parser finds the instance. -/
theorem committed_current_blank :
    ∃ (run : CommissionRun blankHost fire24FRequest someSignature) (area : CommissioningArea)
      (otp : Otp), run.rows = blankRows ∧ readArea blankHost run.done = (.ok area, otp) ∧
        ((∃ inst, area.current = some inst ∧ run.Commits inst) ↔ run.Findable) := by
  have hsome : (currentAfter blankHost fire24FRequest someSignature blankRows).isSome = true := by
    decide +kernel
  obtain ⟨current, hcurrent⟩ := Option.isSome_iff_exists.mp hsome
  obtain ⟨run, area, otp, hrows, hread, -⟩ := exists_run hcurrent
  exact ⟨run, area, otp, hrows, hread, committed_current (consistent_memory _) run hread⟩

/-- A blank chip but for one row, at the first page boundary after the one it starts at. -/
def strayRows : Rows := Function.update blankRows 0x100 (hammingEncode 0xffff)

def strayHost : Host := (MemoryOtp.reset strayRows).host

/-- **Never found**: with a row written at the boundary after the instance, a run succeeds and
leaves no current instance. -/
theorem committed_lost :
    ∃ (run : CommissionRun strayHost fire24FRequest someSignature) (area : CommissioningArea)
      (otp : Otp), Consistent strayHost ∧ run.rows = strayRows ∧
        readArea strayHost run.done = (.ok area, otp) ∧
          ¬∃ inst, area.current = some inst ∧ run.Commits inst := by
  have hnone : currentAfter strayHost fire24FRequest someSignature strayRows = some none := by
    decide +kernel
  obtain ⟨run, area, otp, hrows, hread, hcurrent⟩ := exists_run hnone
  refine ⟨run, area, otp, consistent_memory _, hrows, hread, ?_⟩
  rintro ⟨inst, hsome, -⟩
  rw [hcurrent] at hsome
  cases hsome

end Chip

end OneRom.CommissionCommit
