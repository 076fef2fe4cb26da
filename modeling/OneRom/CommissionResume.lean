import OneRom.CommissionReplan
import OneRom.OtpPermitted

/-!
Finishing a run that was interrupted by running it again.

Between runs a chip may be reset, which loads the page locks. However the runs before were stopped,
part of the first run's rows have landed; a run that finds its way back to the row the first run put
the instance at makes the first run's plan with those rows held, and completes it.
-/

namespace OneRom.CommissionResume

open OneRom.OtpEntry OneRom.OtpStore OneRom.OtpWriter OneRom.OtpArea OneRom.OtpAttempt
open OneRom.OtpHistory OneRom.OtpWalk OneRom.Hw OneRom.WriteOnce OneRom.Fallible OneRom.OtpAccess
open OneRom.Commission OneRom.OtpReads OneRom.Checks OneRom.CommissionPlan OneRom.CommissionPrepare
open OneRom.CommissionSafe OneRom.CommissionRuns OneRom.OtpMemory OneRom.CommissionCommit
open OneRom.CommissionExecute OneRom.CommissionReplan OneRom.OtpPermitted

/-! ### Chips -/

/-- A chip between runs: its rows, and each page's lock as the last reset loaded it. -/
structure Chip where
  rows : Rows
  locks : ℕ → UInt8

section Runs

variable [PicoOtp] {request : Request} {signature : Vector UInt8 OTP_COMMISSIONING_SIG_LEN}

/-- A chip as a host reaches it, where a write may be interrupted. -/
def Chip.host (chip : Chip) (interruption : Option (ℕ × Interruption)) : Host :=
  (⟨chip.locks, interruption, none⟩ : MemoryOtp).host

/-- What a run on a chip returns, and the OTP it leaves. -/
def Chip.run (chip : Chip) (request : Request) (signature : Vector UInt8 OTP_COMMISSIONING_SIG_LEN)
    (interruption : Option (ℕ × Interruption)) : Except CommissionError Unit × Otp :=
  commission (chip.host interruption) request (fun _ => signature) ⟨chip.rows, []⟩

/-- The chips that a series of runs of a request leaves, each stopped at a write that landed or not,
with resets between them. -/
inductive Series (request : Request) (signature : Vector UInt8 OTP_COMMISSIONING_SIG_LEN)
    (resets runs : Rows → Prop) (start : Chip) : Chip → Prop
  | start : Series request signature resets runs start start
  | reset {chip : Chip} (h : Series request signature resets runs start chip)
      (hrows : resets chip.rows) :
      Series request signature resets runs start ⟨chip.rows, locksAt chip.rows⟩
  | stopped {chip : Chip} (h : Series request signature resets runs start chip)
      (hrows : runs chip.rows) (n : ℕ) (how : Interruption) :
      Series request signature resets runs start
        ⟨(chip.run request signature (some (n, how))).2.rows, chip.locks⟩

/-- A reset leaves every page that a run reads accessible. -/
def ResetReadable (rows : Rows) : Prop := ∀ page ∈ PAGES_READ, locksAt rows page < INACCESSIBLE

variable {start chip : Chip}

/-- A run over these rows finds its way back to the first run's instance and date. -/
structure Continues (first : CommissionRun (start.host none) request signature) (rows : Rows) :
    Prop where
  checked : checkArea (areaNow (start.host none) rows) = .ok ()
  found : isAbandoned (areaNow (start.host none) rows) = false
  last : ∃ last, (areaNow (start.host none) rows).instances.getLast? = some last ∧
    last.firstRow = first.firstRow
  date : (chooseDate request (areaNow (start.host none) rows).current).1 = first.prepared.date
  allowed : ∃ replaced, replaces request first.prepared.date
    (areaNow (start.host none) rows).current = .ok replaced

/-- The area is as the first run found it, or shows the way back to its instance. -/
def Resumable (first : CommissionRun (start.host none) request signature) (rows : Rows) : Prop :=
  (∀ row, InArea row → rows row = first.rows row) ∨ Continues first rows

/-! ### The first run -/

variable {first : CommissionRun (start.host none) request signature} {values : CommissioningValues}
  {replaced : Bool} {devinfo : Option UInt16} {new : NewCommissioningInstance}

/-- What the first run checked, and the plan it made. -/
structure Made (first : CommissionRun (start.host none) request signature)
    (values : CommissioningValues) (replaced : Bool) (devinfo : Option UInt16)
    (new : NewCommissioningInstance) : Prop where
  passes : Passes (start.host none) request first.rows values replaced devinfo
  date : first.prepared.date = dateOf (start.host none) request first.rows
  placed : PlacedBy (preparedOf (start.host none) request first.rows values replaced devinfo)
    signature first.firstRow
  new_ok : NewCommissioningInstance.new values first.firstRow = .ok new
  takes : InstanceTakes first.rows (new.writes signature)
  locks : ∀ page ∈ pagesOf (freshInstance first.rows (new.writes signature)),
    LockTakes first.rows (freshInstance first.rows (new.writes signature)) page
  plan : first.plan = planOf first.rows (beforeOf first.rows devinfo)
    (afterOf request first.rows devinfo) (new.writes signature)

lemma exists_made (first : CommissionRun (start.host none) request signature) :
    ∃ values replaced devinfo new, Made first values replaced devinfo new := by
  obtain ⟨⟨values, replaced, devinfo, hpasses, hprepared⟩, -⟩ := prepare_ok first.prepares
  have hplans := first.plans
  rw [hprepared] at hplans
  obtain ⟨row, new, hplaced, hnew, htakes, hlocks, hplan⟩ := (plan_eq_ok hpasses).mp hplans
  have hrow : first.firstRow = row := by
    let c : Commissioning := ⟨request.board, request.manufacturer, _, request.signer, signature,
      values, hpasses.accepted, row, new, hnew⟩
    have hwrites : first.plan.writesOf [.instance_] = freshInstance first.rows c.writes := by
      rw [hplan]
      exact writesOf_planOf
    rw [CommissionRun.firstRow, CommissionRun.instanceRows, hwrites, freshInstance, List.map_map,
      c.writes_eq]
    rfl
  subst hrow
  exact ⟨values, replaced, devinfo, new, hpasses, by rw [hprepared]; rfl, hplaced, hnew, htakes,
    hlocks, hplan⟩

/-- The first run's plan is sound, and each row it left to write was written and holds its value. -/
lemma first_wrote (first : CommissionRun (start.host none) request signature) :
    Sound first.rows first.plan ∧ ∀ w ∈ Plan.toWrites first.plan, Held first.done.rows w ∧
      Stores start.locks w.row w.value (first.rows w.row) (first.done.rows w.row) := by
  have hplanned : Planned (start.host none) first.rows first.plan first.read :=
    .commission request first.prepared signature first.prepares first.plans
  obtain ⟨hsound, hread, hrun⟩ := hplanned.sound
  refine ⟨hsound, fun w hw => ⟨?_, ?_⟩⟩
  · obtain ⟨hmem, hnot⟩ := mem_toWrites.mp hw
    obtain ⟨s, hs, hws⟩ := mem_writes.mp hmem
    exact (((execute_triple (start.host none) hsound).ok hrun first.executes).verified w
      (.inr ⟨s, hs, mem_toWrite.mpr ⟨hws, hnot⟩⟩)).held
  · obtain ⟨n, hwrite⟩ := (execute_wrote hsound hread first.executes).wrote w hw
    exact stores_of_write hwrite

/-- The first run leaves its rows as they are once they have all landed. -/
lemma first_done (first : CommissionRun (start.host none) request signature) :
    landed first.rows first.done.rows (Plan.toWrites first.plan) = first.done.rows := by
  obtain ⟨hsound, hread, -⟩ : Sound first.rows first.plan ∧ first.read.rows = first.rows ∧ _ :=
    (Planned.commission request first.prepared signature first.prepares first.plans).sound
  have hwrote := execute_wrote hsound hread first.executes
  funext row
  by_cases hrow : ∃ w ∈ Plan.toWrites first.plan, w.row = row
  · obtain ⟨w, hw, rfl⟩ := hrow
    exact landed_of_mem hw
  · have hnot : ∀ w ∈ Plan.toWrites first.plan, w.row ≠ row := fun w hw heq => hrow ⟨w, hw, heq⟩
    rw [landed_of_notMem hnot, hwrote.frame row hnot]

/-! ### The pages of a run's rows -/

omit [PicoOtp] in
/-- The rows a run writes: on page 1, in the area, on the white label's pages, or locks. -/
lemma page_of_kindOf {row : ℕ} {kind : StepKind} (h : kindOf row = some kind) :
    (row < LOCK_WORDS_ROW ∧ (page row = 1 ∨ page row = 59 ∨ page row = 60)) ∨
      (kind = .instance_ ∧ InArea row) ∨
        ∃ page, kind = .lock page ∧ 3 ≤ page ∧ page ≤ 18 ∧ row = lock1Row page := by
  unfold kindOf at h
  split_ifs at h with h1 h2 h3 h4 h5 h6 h7 h8 <;> cases h
  · have : row = 0x048 ∨ row = 0x049 ∨ row = 0x04a := by
      simpa [BOOT_FLAGS0_ROWS, OTP_BOOT_FLAGS0_ROW, OTP_BOOT_FLAGS0_R1_ROW,
        OTP_BOOT_FLAGS0_R2_ROW] using h1
    rcases this with rfl | rfl | rfl <;> exact .inl (by decide)
  · exact .inl (by rw [h2]; decide)
  · have : row = 0x059 ∨ row = 0x05a ∨ row = 0x05b := by simpa [USB_BOOT_FLAGS_ROWS] using h3
    rcases this with rfl | rfl | rfl <;> exact .inl (by decide)
  · exact .inl (by rw [h4]; decide)
  · exact .inr (.inl ⟨rfl, h5⟩)
  · simp only [OTP_USB_WHITE_LABEL_ROW, WHITE_LABEL_TABLE_ROWS] at h6
    refine .inl ⟨by simp only [LOCK_WORDS_ROW]; omega, .inr ?_⟩
    simp only [page, OTP_PAGE_ROWS]
    omega
  · simp only [OTP_USB_WHITE_LABEL_ROW, WHITE_LABEL_TABLE_ROWS, OTP_ROW_UNRESERVED_END] at h7
    refine .inl ⟨by simp only [LOCK_WORDS_ROW]; omega, .inr ?_⟩
    simp only [page, OTP_PAGE_ROWS]
    omega
  · have hfirst : lock1Row AREA_FIRST_PAGE = 0xf87 := by decide
    have hlast : lock1Row AREA_LAST_PAGE = 0xfa5 := by decide
    rw [hfirst, hlast] at h8
    refine .inr (.inr ⟨_, rfl, ?_⟩)
    simp only [PAGE0_LOCK1_ROW, lock1Row]
    omega

omit [PicoOtp] in
/-- A row a run writes can be read. -/
lemma readable_of_kindOf {row : ℕ} {kind : StepKind} (h : kindOf row = some kind) :
    Readable row 1 := by
  rcases page_of_kindOf h with ⟨hlt, hpage⟩ | ⟨-, hfirst, hend⟩ | ⟨p, -, h3, h18, rfl⟩
  · refine ⟨by simp only [LOCK_WORDS_ROW] at hlt; simp only [ROWS]; omega, fun r hr _ => ?_⟩
    have := List.mem_range'_1.mp hr
    have heq : r = row := by omega
    rw [heq, mem_pagesRead]
    omega
  · simp only [OTP_COMMISSIONING_AREA_FIRST_ROW, COMMISSIONING_AREA_END,
      OTP_COMMISSIONING_AREA_LAST_ROW] at hfirst hend
    exact @readable_pages 3 18 (by decide) (fun page h h' => mem_pagesRead.mpr (.inr (.inl ⟨h, h'⟩)))
      _ _ (by omega) (by omega)
  · refine readable_locks ?_ ?_ <;>
      simp only [LOCK_WORDS_ROW, ROWS, lock1Row, PAGE0_LOCK1_ROW] <;> omega

/-! ### The invariant of a series -/

variable {pre post : List PlannedWrite} {w : PlannedWrite}

/-- Part of the first run's rows have landed, and the locks let the rest be read and written. -/
structure Reached (first : CommissionRun (start.host none) request signature) (chip : Chip)
    (pre post : List PlannedWrite) : Prop where
  part : Partway first.rows first.done.rows first.plan pre post
  rows : chip.rows = landed first.rows first.done.rows pre
  readable : ∀ page ∈ PAGES_READ, chip.locks page < INACCESSIBLE
  writable : ∀ w ∈ post, chip.locks (lockPage w.row) < LOCK_BL_READ_ONLY

lemma reached_start (hrows : first.rows = start.rows) :
    Reached first start [] (Plan.toWrites first.plan) where
  part := ⟨(first_wrote first).1, rfl, fun w hw => ((first_wrote first).2 w hw).1⟩
  rows := by rw [landed_nil, hrows]
  readable := by
    have hprepares := first.prepares
    unfold prepare at hprepares
    cases hmodel : request.board.model with
    | ice =>
      rw [hmodel] at hprepares
      cases hprepares
    | fire =>
      rw [hmodel] at hprepares
      obtain ⟨readings, read, hread, -⟩ := Prog.bind_ok.mp hprepares
      exact locks_of_readBoard hread
  writable := fun w hw => ((first_wrote first).2 w hw).2.unlocked

/-- A row left to write that isn't the instance's or a lock isn't on a page that was locked. -/
lemma unlocked_other (made : Made first values replaced devinfo new)
    (h : Partway first.rows first.done.rows (planOf first.rows (beforeOf first.rows devinfo)
      (afterOf request first.rows devinfo) (new.writes signature)) pre post) {s : Step}
    (hs : s ∈ beforeOf first.rows devinfo ++ afterOf request first.rows devinfo)
    (hw : w ∈ s.writes) (hnot : w.holds = false) :
    locksAt (landed first.rows first.done.rows pre) (lockPage w.row) < LOCK_BL_READ_ONLY := by
  have hmem : s ∈ (planOf first.rows (beforeOf first.rows devinfo)
      (afterOf request first.rows devinfo) (new.writes signature)).steps := by
    rcases List.mem_append.mp hs with hs | hs <;> simp [planOf, hs]
  have hother : s.kind ≠ .instance_ ∧ ∀ p, s.kind ≠ .lock p := by
    cases devinfo <;>
      simp [beforeOf, afterOf, freshSizeSteps, freshLabelSteps] at hs <;>
      rcases hs with rfl | rfl | rfl | rfl | rfl | rfl <;> simp
  have hpage : w.row < LOCK_WORDS_ROW ∧ (page w.row = 1 ∨ page w.row = 59 ∨ page w.row = 60) := by
    rcases page_of_kindOf ((h.sound.step s hmem).kindOf w hw) with hpage | ⟨heq, -⟩ | ⟨p, heq, -⟩
    · exact hpage
    · exact absurd heq hother.1
    · exact absurd heq (hother.2 p)
  have hlockPage : lockPage w.row = page w.row := if_neg (not_le.mpr hpage.1)
  have hrow : landed first.rows first.done.rows pre (lock1Row (page w.row)) =
      first.rows (lock1Row (page w.row)) := by
    refine h.landed_none ?_
    rcases hpage.2 with heq | heq | heq <;> rw [heq] <;> decide +kernel
  have hlocks := made.passes.locks
  unfold Commission.checkLocks at hlocks
  rw [forM_eq_ok] at hlocks
  have hunlocked := hlocks w (List.mem_filter.mpr
    ⟨List.mem_flatMap.mpr ⟨s, hs, hw⟩, by rw [hnot]; rfl⟩)
  simp only at hunlocked
  split at hunlocked
  · cases hunlocked
  · next hany =>
    have hlock : (⟨page w.row, first.rows (lock1Row (page w.row))⟩ : PageLock) ∈
        (readingsOf (start.host none) first.rows).otherLocks := by
      change _ ∈ [⟨1, first.rows (lock1Row 1)⟩, ⟨59, first.rows (lock1Row 59)⟩,
        (⟨60, first.rows (lock1Row 60)⟩ : PageLock)]
      rcases hpage.2 with heq | heq | heq <;> rw [heq] <;> simp
    rw [hlockPage, locksAt, hrow]
    refine UInt8.not_le.mp fun hle => hany (List.any_eq_true.mpr ⟨_, hlock, ?_⟩)
    simp only [page, beq_self_eq_true, Bool.true_and] at hle ⊢
    exact decide_eq_true hle

/-- A row left to write isn't locked at the next reset. -/
lemma unlocked_of_post (made : Made first values replaced devinfo new)
    (h : Partway first.rows first.done.rows first.plan pre post) (hw : w ∈ post) :
    locksAt (landed first.rows first.done.rows pre) (lockPage w.row) < LOCK_BL_READ_ONLY := by
  obtain ⟨hmem, hnot⟩ := h.mem_post hw
  have hnotPre : w ∉ pre := fun hpre => by
    have hnodup := h.rows_nodup
    rw [List.map_append, List.nodup_append] at hnodup
    exact hnodup.2.2 _ (List.mem_map_of_mem hpre) _ (List.mem_map_of_mem hw) rfl
  rw [made.plan] at h hmem
  rcases mem_writes_planOf.mp hmem with ⟨s, hs, hws⟩ | hinst | ⟨page, hpage, rfl⟩ | ⟨s, hs, hws⟩
  · exact unlocked_other made h (List.mem_append_left _ hs) hws hnot
  · obtain ⟨v, hv, rfl⟩ := List.mem_map.mp hinst
    have harea := writes_inArea made.passes.accepted made.new_ok v hv
    have hpage := page_mem_pagesOf hinst
    have hlockPage : lockPage v.cell = v.cell / OTP_PAGE_ROWS := by
      obtain ⟨-, hend⟩ := harea
      simp only [COMMISSIONING_AREA_END, OTP_COMMISSIONING_AREA_LAST_ROW] at hend
      exact if_neg (by simp only [LOCK_WORDS_ROW]; omega)
    have hlock : fresh first.rows (lock1Row (v.cell / OTP_PAGE_ROWS)) (.raw LOCK1_READ_ONLY) ∈
        (planOf first.rows (beforeOf first.rows devinfo) (afterOf request first.rows devinfo)
          (new.writes signature)).writes := mem_writes_planOf.mpr (.inr (.inr (.inl ⟨_, hpage, rfl⟩)))
    obtain ⟨hfirst, hlast⟩ := page_of_area harea
    -- the lock of a page of the instance lands after the page's rows
    have hrow : landed first.rows first.done.rows pre (lock1Row (v.cell / OTP_PAGE_ROWS)) =
        first.rows (lock1Row (v.cell / OTP_PAGE_ROWS)) := by
      rcases h.landed_cases hlock with ⟨hpre, -⟩ | ⟨-, hrow⟩
      · exact absurd (h.instance_of_lock hpre (kindOf_lock hfirst hlast) hmem hnot harea) hnotPre
      · exact hrow
    obtain ⟨htakes, hunlocked⟩ := made.locks _ hpage
    have hzero : first.rows (lock1Row (v.cell / OTP_PAGE_ROWS)) = 0 :=
      htakes.resolve_right fun heq => by
        have := hunlocked heq _ hinst rfl
        rw [hnot] at this
        cases this
    change locksAt _ (lockPage v.cell) < _
    rw [locksAt, hlockPage, hrow, hzero]
    decide
  · have hzero : first.rows (lock1Row page) = 0 :=
      ((made.locks page hpage).takes).resolve_right fun heq => by
        have : holdsValue (first.rows (lock1Row page)) (.raw LOCK1_READ_ONLY) = true := by
          simp [holdsValue, heq]
        exact absurd (this.symm.trans hnot) (by decide)
    have hlockPage : lockPage (lock1Row page) = page := by
      have hle : LOCK_WORDS_ROW ≤ lock1Row page := by
        simp only [LOCK_WORDS_ROW, lock1Row, PAGE0_LOCK1_ROW]
        omega
      rw [lockPage, if_pos hle]
      simp only [LOCK_WORDS_ROW, lock1Row, PAGE0_LOCK1_ROW]
      omega
    have hrow := h.landed_post hw
    change locksAt _ (lockPage (lock1Row page)) < _
    change landed _ _ _ (lock1Row page) = first.rows (lock1Row page) at hrow
    rw [locksAt, hlockPage, hrow, hzero]
    decide
  · exact unlocked_other made h (List.mem_append_right _ hs) hws hnot

lemma reached_reset (made : Made first values replaced devinfo new)
    (h : Reached first chip pre post) (hrows : ResetReadable chip.rows) :
    Reached first ⟨chip.rows, locksAt chip.rows⟩ pre post where
  part := h.part
  rows := h.rows
  readable := hrows
  writable := fun w hw => by
    change locksAt chip.rows _ < _
    rw [h.rows]
    exact unlocked_of_post made h.part hw

/-! ### Running again -/

omit [PicoOtp] in
/-- The area a run makes its plan from, where only the rows outside the area have changed. -/
lemma areaNow_congr {host : Host} {rows rows' : Rows} (h : ∀ row, InArea row → rows' row = rows row) :
    areaNow host rows' = areaNow host rows :=
  parsed_congr fun row hfirst hend => congrArg host.eccRead (h row ⟨hfirst, hend⟩)

/-- An instance's place depends on the area alone. -/
lemma placedBy_congr {p q : Prepared} (harea : q.area = p.area) (hraw : q.areaRaw = p.areaRaw)
    (hvalues : q.values = p.values) {row : ℕ} (h : PlacedBy p signature row) :
    PlacedBy q signature row := by
  have hresumed : q.resumed signature = p.resumed signature := by
    simp only [Prepared.resumed, Prepared.instanceWrites, Prepared.checkInstance, harea, hraw,
      hvalues]
  cases h with
  | resumed last hfound hlast hrow =>
    exact .resumed last (harea ▸ hfound) (harea ▸ hlast) hrow
  | next hnone hnext => exact .next (hresumed.trans hnone) (harea ▸ hnext)
  | after hnone hnext hlost hrow =>
    refine .after (hresumed.trans hnone) (harea ▸ hnext) (harea ▸ hlost) ?_
    rw [hrow, Prepared.afterLastWrittenRow, Prepared.afterLastWrittenRow, hraw]

/-- **Replanning**: over resumable rows the checks pass, and the instance goes where it went. -/
lemma replans (hecc : ∀ raw value, OtpAccess.holds raw value = true → eccRead raw = value)
    (made : Made first values replaced devinfo new) (h : Reached first chip pre post)
    (hresumable : Resumable first chip.rows) :
    ∃ replaced', Passes (start.host none) request chip.rows values replaced' devinfo ∧
      PlacedBy (preparedOf (start.host none) request chip.rows values replaced' devinfo) signature
        first.firstRow := by
  have hpart := h.part
  rw [made.plan] at hpart
  rw [h.rows] at hresumable ⊢
  rcases hresumable with hsame | ⟨hchecked, hfound, ⟨last, hlast, hrow⟩, hdate, replaced', hallowed⟩
  · have harea : areaNow (start.host none) (landed first.rows first.done.rows pre) =
        areaNow (start.host none) first.rows := areaNow_congr hsame
    refine ⟨replaced, hpart.passes hecc made.passes ?_ ?_ ?_, ?_⟩
    · rw [harea]
      exact made.passes.area
    · rw [dateOf, harea, dateOf]
    · rw [dateOf, harea]
      exact made.passes.replacing
    · have hplaced := @placedBy_congr _ signature
        (preparedOf (start.host none) request first.rows values replaced devinfo)
        (preparedOf (start.host none) request (landed first.rows first.done.rows pre) values replaced
          devinfo) harea
      refine hplaced ?_ rfl made.placed
      refine List.map_congr_left fun row hrow => hsame row ?_
      obtain ⟨hfirst, hend⟩ := List.mem_range'_1.mp hrow
      refine ⟨hfirst, ?_⟩
      simp only [OTP_COMMISSIONING_AREA_FIRST_ROW, AREA_ROWS, COMMISSIONING_AREA_END,
        OTP_COMMISSIONING_AREA_LAST_ROW] at hend ⊢
      omega
  · rw [made.date] at hdate hallowed
    have hdate' : dateOf (start.host none) request (landed first.rows first.done.rows pre) =
        dateOf (start.host none) request first.rows := hdate
    exact ⟨replaced', hpart.passes hecc made.passes hchecked hdate' (hdate' ▸ hallowed),
      .resumed last hfound hlast hrow.symm⟩

/-- **Running again** over resumable rows makes the first run's plan with its rows read again. -/
theorem prepares_again
    (hecc : ∀ raw value, OtpAccess.holds raw value = true → eccRead raw = value)
    (made : Made first values replaced devinfo new) (h : Reached first chip pre post)
    (hresumable : Resumable first chip.rows) (interruption : Option (ℕ × Interruption)) :
    ∃ read, Reads ⟨chip.rows, []⟩ read ∧ chip.run request signature interruption =
      (refreshPlan chip.rows first.plan).execute (chip.host interruption) read := by
  obtain ⟨replaced', hpasses, hplaced⟩ := replans hecc made h hresumable
  have hpart := h.part
  rw [made.plan] at hpart
  -- the runs' hosts read the same values
  have hpasses : Passes (chip.host interruption) request chip.rows values replaced' devinfo :=
    ⟨hpasses.area, hpasses.accepted, hpasses.first, hpasses.replacing, hpasses.configured,
      hpasses.choice, hpasses.second, hpasses.label, hpasses.locks⟩
  have hplan : (preparedOf (chip.host interruption) request chip.rows values replaced'
      devinfo).plan signature = .ok (refreshPlan chip.rows first.plan) := by
    refine (plan_eq_ok hpasses).mpr ⟨first.firstRow, new, hplaced, made.new_ok, ?_, ?_, ?_⟩
    · rw [h.rows]
      exact hpart.instanceTakes made.takes
    · rw [h.rows]
      exact hpart.lockTakes (writes_inArea made.passes.accepted made.new_ok) made.locks
    · rw [h.rows, hpart.refresh_planOf, made.plan]
  have hfire : request.board.model = .fire := by
    have hprepares := first.prepares
    unfold prepare at hprepares
    cases hmodel : request.board.model with
    | ice =>
      rw [hmodel] at hprepares
      cases hprepares
    | fire => rfl
  have hreading : Reading (chip.host interruption) := reading_of_locks h.readable
  obtain ⟨readings, read, hread⟩ := (readBoard_always hreading).exists_ok ⟨chip.rows, []⟩
  obtain ⟨rfl, hreads, -⟩ := readBoard_ok hread
  have hprepare : prepare (chip.host interruption) request ⟨chip.rows, []⟩ = (.ok
      (preparedOf (chip.host interruption) request chip.rows values replaced' devinfo), read) := by
    unfold prepare
    rw [hfire]
    exact Prog.bind_ok.mpr ⟨_, read, hread,
      Prod.ext (checkRequest_eq_ok.mpr ⟨values, replaced', devinfo, hpasses, rfl⟩) rfl⟩
  refine ⟨read, hreads, ?_⟩
  unfold Chip.run commission
  have hplanned : (Prog.ofExcept ((preparedOf (chip.host interruption) request chip.rows values
      replaced' devinfo).plan signature) : OtpM CommissionError Plan) read =
        (.ok (refreshPlan chip.rows first.plan), read) := Prod.ext hplan rfl
  rw [Prog.bind_of_ok hprepare]
  exact Prog.bind_of_ok hplanned

/-- The plan over half-written rows is sound over them, in the order of its steps. -/
lemma sound_again (made : Made first values replaced devinfo new)
    (h : Reached first chip pre post) :
    Sound chip.rows (refreshPlan chip.rows first.plan) ∧
      Ordered (refreshPlan chip.rows first.plan) := by
  have hpart := h.part
  rw [made.plan] at hpart
  have harea : ∀ w ∈ new.writes signature, InArea w.cell :=
    writes_inArea made.passes.accepted made.new_ok
  rw [h.rows, made.plan, ← hpart.refresh_planOf]
  exact ⟨sound_planOf (hpart.sizeChoice made.passes.choice) (hpart.takesLabel made.passes.label)
    (cells_nodup signature made.passes.accepted made.new_ok) harea
    (hpart.instanceTakes made.takes) (hpart.lockTakes harea made.locks), ordered_planOf⟩

lemma toWrites_again (h : Reached first chip pre post) :
    Plan.toWrites (refreshPlan chip.rows first.plan) = post := by
  rw [h.rows]
  exact h.part.toWrites_refresh

/-- A chip's writes of the rows left leave them as the first run did, where they aren't
interrupted. -/
lemma lands_again (made : Made first values replaced devinfo new) (h : Reached first chip pre post)
    (interruption : Option (ℕ × Interruption)) :
    Lands (chip.host interruption) chip.rows first.done.rows (interruption ≠ none)
      (refreshPlan chip.rows first.plan) where
  read := fun n row e hrow hfails => by
    have hreadable : Readable row 1 := by
      rcases hrow with ⟨w, hw, rfl⟩ | rfl
      · rw [writes_refreshPlan] at hw
        obtain ⟨v, hv, rfl⟩ := List.mem_map.mp hw
        obtain ⟨s, hs, hvs⟩ := mem_writes.mp hv
        exact readable_of_kindOf ((h.part.sound.step s hs).kindOf v hvs)
      · exact @readable_pages 1 1 (by decide)
          (fun page _ h => mem_pagesRead.mpr (.inl h)) _ _ (by decide) (by decide)
    have hreading : Reading (chip.host interruption) := reading_of_locks h.readable
    cases hfails.symm.trans (hreading n row 1 hreadable)
  write := fun n w hw raw error hwrite => by
    rw [toWrites_again h] at hw
    have hto : w ∈ Plan.toWrites first.plan := h.part.split ▸ List.mem_append_right _ hw
    obtain ⟨hinside, -, hvalue⟩ := ((first_wrote first).2 w hto).2
    have hrow : chip.rows w.row = first.rows w.row := by
      rw [h.rows]
      exact h.part.landed_post hw
    rw [hrow] at hwrite ⊢
    exact write_of_stores ⟨hinside, h.writable w hw, hvalue⟩ hwrite
  held := fun w hw => by
    rw [toWrites_again h] at hw
    exact ((first_wrote first).2 w (h.part.split ▸ List.mem_append_right _ hw)).1
  slotSize := by
    rintro ⟨s', hs', hkind⟩
    have hpart := h.part
    rw [made.plan] at hs' hpart
    obtain ⟨s, hs, rfl⟩ := List.mem_map.mp hs'
    have hkind : s.kind = .bootFlags0 := hkind
    have hslot : kindOf OTP_FLASH_PARTITION_SLOT_SIZE_ROW = none := by decide +kernel
    rw [h.rows, hpart.landed_none hslot]
    have hchoice := made.passes.choice
    cases hdevinfo : devinfo with
    | none =>
      subst hdevinfo
      simp [planOf, beforeOf, afterOf, freshSizeSteps, freshLabelSteps] at hs
      rcases hs with rfl | ⟨page, _, rfl⟩ | rfl | rfl | rfl | rfl <;> cases hkind
    | some value =>
      subst hdevinfo
      cases hsize : request.size with
      | m =>
        rw [hsize] at hchoice
        exact hchoice.elim
      | l =>
        rw [hsize] at hchoice
        exact hchoice.slotSize

/-- **A run** of the request over resumable rows lands the rest of the first run's rows, or is
stopped and lands a prefix of them. -/
theorem run_again (hcons : Consistent (start.host none))
    (made : Made first values replaced devinfo new) (h : Reached first chip pre post)
    (hresumable : Resumable first chip.rows) (interruption : Option (ℕ × Interruption)) :
    match chip.run request signature interruption with
    | (.ok (), otp) => Landed chip.rows first.done.rows post otp
    | (.error _, otp) => interruption ≠ none ∧ ∃ more rest, post = more ++ rest ∧
        Landed chip.rows first.done.rows more otp := by
  obtain ⟨read, hreads, hrun⟩ := prepares_again hcons.held made h hresumable interruption
  obtain ⟨hsound, horder⟩ := sound_again made h
  have hread : Landed chip.rows first.done.rows [] read :=
    Landed.stable _ _ hreads ⟨landed_nil.symm, by simp [WritesUnheld]⟩
  have hexecute := execute_lands hsound horder (lands_again made h interruption) read hread
  rw [hrun]
  split at hexecute
  · next heq =>
    rw [heq]
    rwa [toWrites_again h] at hexecute
  · next heq =>
    rw [heq]
    obtain ⟨hfailing, more, rest, hsplit, hlanded⟩ := hexecute
    exact ⟨hfailing, more, rest, (toWrites_again h).symm.trans hsplit, hlanded⟩

/-- A run keeps the invariant. -/
lemma reached_run (hcons : Consistent (start.host none))
    (made : Made first values replaced devinfo new) (h : Reached first chip pre post)
    (hresumable : Resumable first chip.rows) (interruption : Option (ℕ × Interruption)) :
    ∃ pre' post', Reached first ⟨(chip.run request signature interruption).2.rows, chip.locks⟩
      pre' post' := by
  have hmore : ∃ more rest, post = more ++ rest ∧
      Landed chip.rows first.done.rows more (chip.run request signature interruption).2 := by
    have hrun := run_again hcons made h hresumable interruption
    split at hrun
    · next heq =>
      rw [heq]
      exact ⟨post, [], by simp, hrun⟩
    · next heq =>
      rw [heq]
      exact hrun.2
  obtain ⟨more, rest, rfl, hlanded⟩ := hmore
  refine ⟨pre ++ more, rest, ⟨h.part.sound, ?_, h.part.held⟩, ?_, h.readable, fun w hw =>
    h.writable w (List.mem_append_right _ hw)⟩
  · rw [h.part.split, List.append_assoc]
  · change (chip.run request signature interruption).2.rows = _
    rw [hlanded.rows, h.rows, landed_landed]

/-- The invariant holds of every chip that a series whose runs are all resumable leaves. -/
theorem Series.reached (hcons : Consistent (start.host none))
    (made : Made first values replaced devinfo new) (hrows : first.rows = start.rows)
    (h : Series request signature ResetReadable (Resumable first) start chip) :
    ∃ pre post, Reached first chip pre post := by
  induction h with
  | start => exact ⟨_, _, reached_start hrows⟩
  | reset _ hreset ih =>
    obtain ⟨pre, post, hreached⟩ := ih
    exact ⟨pre, post, reached_reset made hreached hreset⟩
  | stopped _ hresumable n how ih =>
    obtain ⟨pre, post, hreached⟩ := ih
    exact reached_run hcons made hreached hresumable _

/-- **Running it again completes an interrupted run**: after any series of stopped runs and resets,
where each run finds its way back to the first run's instance and each reset leaves the pages it
reads accessible, a run succeeds, writes only rows not holding their values, and leaves the rows
that an uninterrupted first run leaves. -/
theorem completes_again (hcons : Consistent (start.host none))
    (first : CommissionRun (start.host none) request signature) (hrows : first.rows = start.rows)
    (h : Series request signature ResetReadable (Resumable first) start chip)
    (hresumable : Resumable first chip.rows) :
    ∃ otp, chip.run request signature none = (.ok (), otp) ∧ WritesUnheld otp.log ∧
      otp.rows = first.done.rows := by
  obtain ⟨values, replaced, devinfo, new, made⟩ := exists_made first
  obtain ⟨pre, post, hreached⟩ := h.reached hcons made hrows
  have hrun := run_again hcons made hreached hresumable none
  split at hrun
  · next otp heq =>
    refine ⟨otp, heq, hrun.unheld, ?_⟩
    rw [hrun.rows, hreached.rows, landed_landed, ← hreached.part.split, first_done]
  · exact absurd rfl hrun.1

/-- A run that succeeds. -/
lemma exists_first (h : (chip.run request signature none).1.toOption.isSome = true) :
    ∃ first : CommissionRun (chip.host none) request signature,
      first.rows = chip.rows ∧ first.done = (chip.run request signature none).2 := by
  obtain ⟨_, hrun⟩ := exists_ok (x := commission (chip.host none) request fun _ => signature) h
  obtain ⟨prepared, read, hprepare, hrest⟩ := Prog.bind_ok.mp hrun
  obtain ⟨plan, read', hplan, hexecute⟩ := Prog.bind_ok.mp hrest
  obtain ⟨hplanned, rfl⟩ := Prod.mk.inj hplan
  exact ⟨⟨chip.rows, prepared, read, plan, _, hprepare, hplanned, hexecute⟩, rfl, rfl⟩

end Runs

/-! ### A stopped chip -/

section FireOtp

local instance chipOtp : PicoOtp := fire24FOtp

def blankChip : Chip := ⟨blankRows, locksAt blankRows⟩

/-- A blank chip whose first run was stopped at its ninth row. -/
def stoppedChip : Chip :=
  ⟨(blankChip.run fire24FRequest someSignature (some (25, .landed))).2.rows, locksAt blankRows⟩

/-- A run stopped on a blank chip is completed after a reset. -/
theorem completes_again_stopped :
    ∃ (first : CommissionRun (blankChip.host none) fire24FRequest someSignature) (otp : Otp),
      first.rows = blankRows ∧
        Chip.run ⟨stoppedChip.rows, locksAt stoppedChip.rows⟩ fire24FRequest someSignature none =
          (.ok (), otp) ∧ WritesUnheld otp.log ∧ otp.rows = first.done.rows := by
  have hsome : (blankChip.run fire24FRequest someSignature none).1.toOption.isSome = true := by
    decide +kernel
  obtain ⟨first, hrows, -⟩ := exists_first hsome
  have hplan : ((prepare (blankChip.host none) fire24FRequest ⟨blankRows, []⟩).1.toOption.bind
      fun p => (p.plan someSignature).toOption.map fun plan =>
        (p.date, ((plan.writesOf [.instance_]).map (·.row)).headD 0)) =
      some ("20260926", 0x0c0) := by decide +kernel
  have hprepares := first.prepares
  rw [hrows] at hprepares
  change prepare (blankChip.host none) fire24FRequest ⟨blankRows, []⟩ = _ at hprepares
  rw [hprepares] at hplan
  simp only [Except.toOption, Option.bind_some, first.plans, Option.map_some, Option.some.injEq,
    Prod.mk.injEq] at hplan
  obtain ⟨hdate, hrow⟩ := hplan
  have hback : (checkArea (areaNow (blankChip.host none) stoppedChip.rows)).toOption.isSome = true ∧
      isAbandoned (areaNow (blankChip.host none) stoppedChip.rows) = false ∧
      (areaNow (blankChip.host none) stoppedChip.rows).instances.getLast?.map (·.firstRow) =
        some 0x0c0 ∧
      (chooseDate fire24FRequest (areaNow (blankChip.host none) stoppedChip.rows).current).1 =
        "20260926" ∧
      (replaces fire24FRequest "20260926"
        (areaNow (blankChip.host none) stoppedChip.rows).current).toOption.isSome = true := by
    decide +kernel
  obtain ⟨hchecked, hfound, hlast, hchosen, hreplaces⟩ := hback
  have hreset : ∀ page ∈ PAGES_READ, locksAt stoppedChip.rows page < INACCESSIBLE := by
    decide +kernel
  have hcontinues : Continues first stoppedChip.rows := by
    obtain ⟨last, hlast, hlastRow⟩ := Option.map_eq_some_iff.mp hlast
    obtain ⟨⟨⟩, hchecked⟩ := Option.isSome_iff_exists.mp hchecked
    obtain ⟨replaced, hreplaces⟩ := Option.isSome_iff_exists.mp hreplaces
    refine ⟨toOption_eq_some.mp hchecked, hfound, ⟨last, hlast, hlastRow.trans hrow.symm⟩,
      hchosen.trans hdate.symm, replaced, ?_⟩
    rw [hdate]
    exact toOption_eq_some.mp hreplaces
  have hblank : Resumable first blankChip.rows := .inl fun row _ => congrFun hrows.symm row
  have hstopped : Series fire24FRequest someSignature ResetReadable (Resumable first) blankChip
      stoppedChip := .stopped .start hblank 25 .landed
  have hseries : Series fire24FRequest someSignature ResetReadable (Resumable first) blankChip
      ⟨stoppedChip.rows, locksAt stoppedChip.rows⟩ := .reset hstopped hreset
  obtain ⟨otp, hrun, hunheld, hdone⟩ :=
    completes_again (consistent_memory _) first hrows hseries (.inr hcontinues)
  exact ⟨first, otp, hrows, hrun, hunheld, hdone⟩

/-- A blank chip but for one row, at the boundary after where the instance goes. -/
def strayChip : Chip := ⟨strayRows, locksAt strayRows⟩

/-- A run on it, stopped at its second row. -/
def strayStopped : Chip :=
  ⟨(strayChip.run fire24FRequest someSignature (some (11, .notLanded))).2.rows, locksAt strayRows⟩

/-- **Not completed**: with a row written at the boundary after the instance, the parser loses its
place there once the run is stopped, and running it again puts a second instance after that row. -/
theorem completes_again_stray :
    ∃ (start chip : Chip) (first : CommissionRun (start.host none) fire24FRequest someSignature),
      Consistent (start.host none) ∧ first.rows = start.rows ∧
        Series fire24FRequest someSignature (fun _ => True) (fun _ => True) start chip ∧
          ¬∃ otp, chip.run fire24FRequest someSignature none = (.ok (), otp) ∧
            WritesUnheld otp.log ∧ otp.rows = first.done.rows := by
  have hsome : (strayChip.run fire24FRequest someSignature none).1.toOption.isSome = true := by
    decide +kernel
  obtain ⟨first, hrows, hdone⟩ := exists_first hsome
  refine ⟨strayChip, strayStopped, first, consistent_memory _, hrows,
    .stopped .start trivial 11 .notLanded, ?_⟩
  rintro ⟨otp, hrun, -, heq⟩
  have hrow : (strayStopped.run fire24FRequest someSignature none).2.rows 0x0c2 ≠
      (strayChip.run fire24FRequest someSignature none).2.rows 0x0c2 := by decide +kernel
  rw [hrun, heq, hdone] at hrow
  exact hrow rfl

end FireOtp

end OneRom.CommissionResume
