import OneRom.CommissionPlan

/-!
What a request that is prepared and planned has passed, and the plan it gives.

`Passes` lists the checks. The instance goes at one row as the writes of one commissioning, and a
lock step follows for each of its pages.
-/

namespace OneRom.CommissionPrepare

open OneRom.OtpEntry OneRom.OtpStore OneRom.OtpWriter OneRom.OtpArea OneRom.OtpAttempt
open OneRom.OtpHistory OneRom.Hw OneRom.WriteOnce OneRom.Fallible OneRom.OtpAccess
open OneRom.Commission OneRom.OtpReads OneRom.Checks OneRom.CommissionPlan

variable {host : Host} {request : Request} {rows : Rows} {p : Prepared}
  {signature : Vector UInt8 OTP_COMMISSIONING_SIG_LEN}

/-! ### Rows of the area -/

lemma raw_of_area {row : ℕ} (h : InArea row) :
    (rawsOf rows OTP_COMMISSIONING_AREA_FIRST_ROW AREA_ROWS).getD
      (row - OTP_COMMISSIONING_AREA_FIRST_ROW) 0 = rows row := by
  obtain ⟨hfirst, hend⟩ := h
  have hlt : row - OTP_COMMISSIONING_AREA_FIRST_ROW < AREA_ROWS := by
    simp only [AREA_ROWS, COMMISSIONING_AREA_END, OTP_COMMISSIONING_AREA_FIRST_ROW,
      OTP_COMMISSIONING_AREA_LAST_ROW] at hfirst hend ⊢
    omega
  rw [rawsOf, getD_map_range' _ _ _ hlt, Nat.add_sub_cancel' hfirst]

lemma instanceWrites_eq_some {row : ℕ} {writes : List RowWrite} :
    p.instanceWrites signature row = some writes ↔
      ∃ new, NewCommissioningInstance.new p.values row = .ok new ∧
        writes = new.writes signature := by
  unfold Prepared.instanceWrites
  rcases NewCommissioningInstance.new p.values row with e | new
  · simp [Except.toOption]
  · simp [Except.toOption, eq_comm]

lemma toOption_eq_some {ε α : Type} {x : Except ε α} {a : α} : x.toOption = some a ↔ x = .ok a := by
  cases x <;> simp [Except.toOption]

lemma nextRow_eq_ok {row : ℕ} : p.nextRow = .ok row ↔ p.area.nextInstanceRow = some row ∨
    (p.area.nextInstanceRow = none ∧ isAbandoned p.area = true ∧ row = p.afterLastWrittenRow) := by
  unfold Prepared.nextRow
  rcases p.area.nextInstanceRow with _ | next
  · cases isAbandoned p.area <;> simp [eq_comm]
  · simp

variable [PicoOtp]

/-! ### Preparing -/

/-- The area a board with these rows has. -/
def areaNow (host : Host) (rows : Rows) : CommissioningArea := parsed (eccRows host rows)

/-- The date the instance is given. -/
def dateOf (host : Host) (request : Request) (rows : Rows) : String :=
  (chooseDate request (areaNow host rows).current).1

def beforeOf (rows : Rows) (devinfo : Option UInt16) : List Step :=
  (freshSizeSteps rows devinfo).flashDevinfo.toList

def afterOf (request : Request) (rows : Rows) (devinfo : Option UInt16) : List Step :=
  freshLabelSteps request.board rows ++ (freshSizeSteps rows devinfo).bootFlags0.toList

/-- The checks a prepared request has passed. -/
structure Passes (host : Host) (request : Request) (rows : Rows) (values : CommissioningValues)
    (replaced : Bool) (devinfo : Option UInt16) : Prop where
  area : checkArea (areaNow host rows) = .ok ()
  accepted : CommissioningValues.new request.board request.manufacturer (dateOf host request rows)
    request.signer = .ok values
  first : ∃ inst, NewCommissioningInstance.new values OTP_COMMISSIONING_AREA_FIRST_ROW = .ok inst
  replacing : replaces request (dateOf host request rows) (areaNow host rows).current = .ok replaced
  configured : checkConfigured (boardSize (BOOT_FLAGS0_ROWS.map rows)
    (eccRows host rows OTP_FLASH_DEVINFO_ROW)) request.size = .ok ()
  choice : SizeChoice request.board rows request.size devinfo
  second : request.size = .m ∧ request.force = false →
    checkSecondChip request.board (bootOf rows) = .ok ()
  label : LabelTakes request.board rows
  locks : checkLocks (beforeOf rows devinfo ++ afterOf request rows devinfo)
    (readingsOf host rows).otherLocks = .ok ()

def preparedOf (host : Host) (request : Request) (rows : Rows) (values : CommissioningValues)
    (replaced : Bool) (devinfo : Option UInt16) : Prepared where
  chipId := (readingsOf host rows).chipId
  message := values.message (readingsOf host rows).chipId
  date := dateOf host request rows
  dateFromCurrentInstance := (chooseDate request (areaNow host rows).current).2
  replacesCurrent := replaced
  values := values
  area := areaNow host rows
  areaRaw := rawsOf rows OTP_COMMISSIONING_AREA_FIRST_ROW AREA_ROWS
  locks := locksOf rows AREA_FIRST_PAGE AREA_LAST_PAGE
  before := beforeOf rows devinfo
  after := afterOf request rows devinfo

/-- **The checks** a request passes, and what they leave. -/
theorem checkRequest_eq_ok :
    checkRequest request (readingsOf host rows) = .ok p ↔ ∃ values replaced devinfo,
      Passes host request rows values replaced devinfo ∧
        p = preparedOf host request rows values replaced devinfo := by
  unfold checkRequest
  constructor
  · intro h
    obtain ⟨harea, h⟩ := seq_eq_ok.mp h
    obtain ⟨values, hvalues, h⟩ := bind_eq_ok.mp h
    obtain ⟨inst, hinst, h⟩ := bind_eq_ok.mp h
    obtain ⟨replaced, hreplaces, h⟩ := bind_eq_ok.mp h
    obtain ⟨size, hsize, h⟩ := bind_eq_ok.mp h
    obtain ⟨hconfigured, devinfo, hchoice, rfl⟩ := sizeSteps_eq_ok.mp hsize
    obtain ⟨hsecond, h⟩ := seq_eq_ok.mp h
    obtain ⟨label, hlabel, h⟩ := bind_eq_ok.mp h
    obtain ⟨htakes, rfl⟩ := whiteLabelSteps_eq_ok.mp hlabel
    obtain ⟨hlocks, h⟩ := seq_eq_ok.mp h
    exact ⟨values, replaced, devinfo,
      ⟨harea, mapError_eq_ok.mp hvalues, ⟨inst, mapError_eq_ok.mp hinst⟩, hreplaces, hconfigured,
        hchoice, only_eq_ok.mp hsecond, htakes, hlocks⟩, (pure_eq_ok.mp h).symm⟩
  · rintro ⟨values, replaced, devinfo, h, rfl⟩
    obtain ⟨inst, hinst⟩ := h.first
    refine seq_eq_ok.mpr ⟨h.area, ?_⟩
    refine bind_eq_ok.mpr ⟨values, mapError_eq_ok.mpr h.accepted, ?_⟩
    refine bind_eq_ok.mpr ⟨inst, mapError_eq_ok.mpr hinst, ?_⟩
    refine bind_eq_ok.mpr ⟨replaced, h.replacing, ?_⟩
    refine bind_eq_ok.mpr ⟨_, sizeSteps_eq_ok.mpr ⟨h.configured, devinfo, h.choice, rfl⟩, ?_⟩
    refine seq_eq_ok.mpr ⟨only_eq_ok.mpr h.second, ?_⟩
    refine bind_eq_ok.mpr ⟨_, whiteLabelSteps_eq_ok.mpr ⟨h.label, rfl⟩, ?_⟩
    exact seq_eq_ok.mpr ⟨h.locks, rfl⟩

/-- **A prepared request** has passed the checks over the board's rows, and only reads were made. -/
theorem prepare_ok {otp otp' : Otp}
    (h : prepare host request otp = (.ok p, otp')) :
    (∃ values replaced devinfo, Passes host request otp.rows values replaced devinfo ∧
        p = preparedOf host request otp.rows values replaced devinfo) ∧
      Reads otp otp' ∧
      ∃ m ∈ otp'.log, m.access = .readRaw OTP_COMMISSIONING_AREA_FIRST_ROW
        (rawsOf otp.rows OTP_COMMISSIONING_AREA_FIRST_ROW AREA_ROWS) := by
  unfold prepare at h
  cases hmodel : request.board.model with
  | ice =>
    rw [hmodel] at h
    cases h
  | fire =>
    rw [hmodel] at h
    obtain ⟨readings, otp₁, hread, h⟩ := Prog.bind_ok.mp h
    obtain ⟨rfl, hreads, hmem⟩ := readBoard_ok hread
    obtain ⟨hcheck, rfl⟩ := Prod.mk.inj h
    exact ⟨checkRequest_eq_ok.mp hcheck, hreads, hmem⟩

/-! ### Placing -/

/-- How the row of the instance was chosen. -/
inductive PlacedBy (p : Prepared) (signature : Vector UInt8 OTP_COMMISSIONING_SIG_LEN) (row : ℕ) :
    Prop
  | resumed (last : CommissioningInstance) (hfound : isAbandoned p.area = false)
    (hlast : p.area.instances.getLast? = some last) (hrow : row = last.firstRow)
  | next (hnone : p.resumed signature = none) (hnext : p.area.nextInstanceRow = some row)
  | after (hnone : p.resumed signature = none) (hnext : p.area.nextInstanceRow = none)
    (hlost : isAbandoned p.area = true) (hrow : row = p.afterLastWrittenRow)

/-- The planned writes of an instance. -/
def freshInstance (rows : Rows) (writes : List RowWrite) : List PlannedWrite :=
  writes.map fun w => fresh rows w.cell (.ecc w.value)

/-- Every row an instance needs takes its value. -/
def InstanceTakes (rows : Rows) (writes : List RowWrite) : Prop :=
  ∀ w ∈ writes, Takes (rows w.cell) (.ecc w.value)

lemma checkInstance_eq_ok (hraw : p.areaRaw = rawsOf rows OTP_COMMISSIONING_AREA_FIRST_ROW AREA_ROWS)
    {writes : List RowWrite} (harea : ∀ w ∈ writes, InArea w.cell) {ws : List PlannedWrite} :
    p.checkInstance writes = .ok ws ↔
      InstanceTakes rows writes ∧ ws = freshInstance rows writes := by
  refine mapM_eq_ok_iff fun w hw planned => ?_
  rw [hraw, raw_of_area (harea w hw), eccWrite_eq_ok]

lemma resumed_eq_some {ws : List PlannedWrite} :
    p.resumed signature = some ws ↔ isAbandoned p.area = false ∧
      ∃ last writes, p.area.instances.getLast? = some last ∧
        p.instanceWrites signature last.firstRow = some writes ∧
          p.checkInstance writes = .ok ws := by
  unfold Prepared.resumed
  cases isAbandoned p.area with
  | true => simp [guard]
  | false => simp [guard, Option.bind_eq_some_iff, toOption_eq_some]

/-- **The instance's rows** are the writes of the instance at the chosen row. -/
theorem place_eq_ok (hraw : p.areaRaw = rawsOf rows OTP_COMMISSIONING_AREA_FIRST_ROW AREA_ROWS)
    (harea : ∀ row new, NewCommissioningInstance.new p.values row = .ok new →
      ∀ w ∈ new.writes signature, InArea w.cell) (ws : List PlannedWrite) :
    p.place signature = .ok ws ↔ ∃ row new, PlacedBy p signature row ∧
      NewCommissioningInstance.new p.values row = .ok new ∧
        InstanceTakes rows (new.writes signature) ∧
          ws = freshInstance rows (new.writes signature) := by
  unfold Prepared.place
  rcases hresumed : p.resumed signature with _ | ws'
  · simp only
    constructor
    · intro h
      obtain ⟨row, hrow, h⟩ := bind_eq_ok.mp h
      have hplaced : PlacedBy p signature row := by
        rcases nextRow_eq_ok.mp hrow with hnext | ⟨hnext, hlost, hafter⟩
        · exact .next hresumed hnext
        · exact .after hresumed hnext hlost hafter
      rcases hwrites : p.instanceWrites signature row with _ | writes
      · rw [hwrites] at h
        cases h
      · rw [hwrites] at h
        obtain ⟨new, hnew, rfl⟩ := instanceWrites_eq_some.mp hwrites
        obtain ⟨htakes, rfl⟩ := (checkInstance_eq_ok hraw (harea row new hnew)).mp h
        exact ⟨row, new, hplaced, hnew, htakes, rfl⟩
    · rintro ⟨row, new, hplaced, hnew, htakes, rfl⟩
      have hwrites : p.instanceWrites signature row = some (new.writes signature) :=
        instanceWrites_eq_some.mpr ⟨new, hnew, rfl⟩
      have hcheck := (checkInstance_eq_ok hraw (harea row new hnew)).mpr ⟨htakes, rfl⟩
      have hrow : p.nextRow = .ok row := by
        cases hplaced with
        | resumed last hfound hlast hrow =>
          have hsome := resumed_eq_some.mpr ⟨hfound, last, _, hlast, hrow ▸ hwrites, hcheck⟩
          rw [hresumed] at hsome
          cases hsome
        | next _ hnext => exact nextRow_eq_ok.mpr (.inl hnext)
        | after _ hnext hlost hafter => exact nextRow_eq_ok.mpr (.inr ⟨hnext, hlost, hafter⟩)
      refine bind_eq_ok.mpr ⟨row, hrow, ?_⟩
      rw [hwrites]
      exact hcheck
  · simp only [Except.ok.injEq]
    obtain ⟨hfound, last, writes, hlast, hwrites, hcheck⟩ := resumed_eq_some.mp hresumed
    obtain ⟨new, hnew, rfl⟩ := instanceWrites_eq_some.mp hwrites
    obtain ⟨htakes, rfl⟩ := (checkInstance_eq_ok hraw (harea _ new hnew)).mp hcheck
    constructor
    · rintro rfl
      exact ⟨last.firstRow, new, .resumed last hfound hlast rfl, hnew, htakes, rfl⟩
    · rintro ⟨row, new', hplaced, hnew', -, rfl⟩
      cases hplaced with
      | resumed last' _ hlast' hrow =>
        cases hlast.symm.trans hlast'
        subst hrow
        cases hnew.symm.trans hnew'
        rfl
      | next hnone => cases hresumed.symm.trans hnone
      | after hnone => cases hresumed.symm.trans hnone

/-! ### Locks and the plan -/

/-- A page's lock can be written, and is not there yet where the page has a row to write. -/
structure LockTakes (rows : Rows) (inst : List PlannedWrite) (page : ℕ) : Prop where
  takes : Takes (rows (lock1Row page)) (.raw LOCK1_READ_ONLY)
  unlocked : rows (lock1Row page) = LOCK1_READ_ONLY →
    ∀ w ∈ inst, w.row / OTP_PAGE_ROWS = page → w.holds = true

def freshLock (rows : Rows) (page : ℕ) : Step :=
  ⟨.lock page, [fresh rows (lock1Row page) (.raw LOCK1_READ_ONLY)]⟩

omit [PicoOtp] in
lemma page_of_area {row : ℕ} (h : InArea row) :
    AREA_FIRST_PAGE ≤ row / OTP_PAGE_ROWS ∧ row / OTP_PAGE_ROWS ≤ AREA_LAST_PAGE := by
  obtain ⟨hfirst, hend⟩ := h
  simp only [AREA_FIRST_PAGE, AREA_LAST_PAGE, COMMISSIONING_AREA_END,
    OTP_COMMISSIONING_AREA_FIRST_ROW, OTP_COMMISSIONING_AREA_LAST_ROW, OTP_PAGE_ROWS]
    at hfirst hend ⊢
  omega

omit [PicoOtp] in
lemma mem_pagesOf {inst : List PlannedWrite} (harea : ∀ w ∈ inst, InArea w.row) {page : ℕ}
    (h : page ∈ pagesOf inst) : AREA_FIRST_PAGE ≤ page ∧ page ≤ AREA_LAST_PAGE := by
  unfold pagesOf at h
  simp only at h
  split at h
  · next first last hmin hmax =>
    obtain ⟨w, hw, rfl⟩ := List.mem_map.mp (List.min?_eq_some_iff.mp hmin).1
    obtain ⟨v, hv, rfl⟩ := List.mem_map.mp (List.max?_eq_some_iff.mp hmax).1
    have hlo := (page_of_area (harea w hw)).1
    have hhi := (page_of_area (harea v hv)).2
    have := List.mem_range'_1.mp h
    omega
  · cases h

omit [PicoOtp] in
/-- Each row of an instance is on one of its pages. -/
lemma page_mem_pagesOf {inst : List PlannedWrite} {w : PlannedWrite} (hw : w ∈ inst) :
    w.row / OTP_PAGE_ROWS ∈ pagesOf inst := by
  have hmem : w.row / OTP_PAGE_ROWS ∈ inst.map (·.row / OTP_PAGE_ROWS) :=
    List.mem_map.mpr ⟨w, hw, rfl⟩
  unfold pagesOf
  simp only
  split
  · next first last hmin hmax =>
    have hlo := (List.min?_eq_some_iff.mp hmin).2 _ hmem
    have hhi := (List.max?_eq_some_iff.mp hmax).2 _ hmem
    exact List.mem_range'_1.mpr (by omega)
  · next hnone =>
    exfalso
    have hne := List.ne_nil_of_mem hmem
    rcases hmin : (inst.map (·.row / OTP_PAGE_ROWS)).min? with _ | first
    · exact hne (List.min?_eq_none_iff.mp hmin)
    rcases hmax : (inst.map (·.row / OTP_PAGE_ROWS)).max? with _ | last
    · exact hne (List.max?_eq_none_iff.mp hmax)
    exact hnone first last hmin hmax

lemma lockStep_eq_ok (hlocks : p.locks = locksOf rows AREA_FIRST_PAGE AREA_LAST_PAGE)
    {inst : List PlannedWrite} {page : ℕ}
    (hpage : AREA_FIRST_PAGE ≤ page ∧ page ≤ AREA_LAST_PAGE) {step : Step} :
    p.lockStep inst page = .ok step ↔ LockTakes rows inst page ∧ step = freshLock rows page := by
  have hraw : (p.locks.getD (page - AREA_FIRST_PAGE) ⟨page, 0⟩).raw = rows (lock1Row page) := by
    have hlt : page - AREA_FIRST_PAGE < AREA_LAST_PAGE + 1 - AREA_FIRST_PAGE := by omega
    rw [hlocks, locksOf, getD_map_range' _ _ _ hlt, Nat.add_sub_cancel' hpage.1]
  have hany : (inst.any fun w => w.row / OTP_PAGE_ROWS == page && !w.holds) = true ↔
      ¬∀ w ∈ inst, w.row / OTP_PAGE_ROWS = page → w.holds = true := by
    simp
  unfold Prepared.lockStep
  simp only [hraw, hany]
  split_ifs with htakes hlocked
  · exact ⟨(by cases ·), fun ⟨h, _⟩ => absurd (h.unlocked hlocked.1) hlocked.2⟩
  · have hunlocked : LockTakes rows inst page :=
      ⟨htakes, fun heq => by_contra fun hnot => hlocked ⟨heq, hnot⟩⟩
    exact ⟨fun h => ⟨hunlocked, (Except.ok.inj h).symm⟩, fun ⟨_, h⟩ => congrArg Except.ok h.symm⟩
  · exact ⟨(by cases ·), fun ⟨h, _⟩ => absurd h.takes htakes⟩

lemma lockSteps_eq_ok (hlocks : p.locks = locksOf rows AREA_FIRST_PAGE AREA_LAST_PAGE)
    {inst : List PlannedWrite} (harea : ∀ w ∈ inst, InArea w.row) {steps : List Step} :
    p.lockSteps inst = .ok steps ↔ (∀ page ∈ pagesOf inst, LockTakes rows inst page) ∧
      steps = (pagesOf inst).map (freshLock rows) := by
  exact mapM_eq_ok_iff fun page hpage step => lockStep_eq_ok hlocks (mem_pagesOf harea hpage)

/-- The plan of an instance between the steps before and after it. -/
def planOf (rows : Rows) (before after : List Step) (writes : List RowWrite) : Plan :=
  ⟨before ++ [⟨.instance_, freshInstance rows writes⟩] ++
    (pagesOf (freshInstance rows writes)).map (freshLock rows) ++ after⟩

omit [PicoOtp] in
lemma writes_inArea {board : Board} {manufacturer date : String} {signer : UInt16}
    {values : CommissioningValues}
    (haccepted : CommissioningValues.new board manufacturer date signer = .ok values) {row : ℕ}
    {new : NewCommissioningInstance} (hnew : NewCommissioningInstance.new values row = .ok new) :
    ∀ w ∈ new.writes signature, InArea w.cell := by
  intro w hw
  let c : Commissioning := ⟨board, manufacturer, date, signer, signature, values, haccepted, row,
    new, hnew⟩
  have hcells := c.lays_writes.mem_cells.mp (List.mem_map_of_mem hw)
  have hfirst := c.first_le
  have hfits := c.fits
  rw [c.length_image] at hcells
  exact ⟨hfirst.trans hcells.1, hcells.2.trans_le hfits⟩

/-- **A plan** puts the instance at the chosen row, where its rows and its pages' locks take their
values. -/
theorem plan_eq_ok {values : CommissioningValues} {replaced : Bool} {devinfo : Option UInt16}
    (h : Passes host request rows values replaced devinfo) {plan : Plan} :
    (preparedOf host request rows values replaced devinfo).plan signature = .ok plan ↔
      ∃ row new, PlacedBy (preparedOf host request rows values replaced devinfo) signature row ∧
        NewCommissioningInstance.new values row = .ok new ∧
        InstanceTakes rows (new.writes signature) ∧
        (∀ page ∈ pagesOf (freshInstance rows (new.writes signature)),
          LockTakes rows (freshInstance rows (new.writes signature)) page) ∧
        plan = planOf rows (beforeOf rows devinfo) (afterOf request rows devinfo)
          (new.writes signature) := by
  have hcells : ∀ row new, NewCommissioningInstance.new values row = .ok new →
      ∀ w ∈ new.writes signature, InArea w.cell := fun _ _ hnew => writes_inArea h.accepted hnew
  have hplace := place_eq_ok (p := preparedOf host request rows values replaced devinfo) rfl hcells
  have harea : ∀ {row new}, NewCommissioningInstance.new values row = .ok new →
      ∀ w ∈ freshInstance rows (new.writes signature), InArea w.row := fun hnew w hw => by
    obtain ⟨v, hv, rfl⟩ := List.mem_map.mp hw
    exact hcells _ _ hnew v hv
  unfold Prepared.plan
  constructor
  · intro hplan
    obtain ⟨inst, hinst, hplan⟩ := bind_eq_ok.mp hplan
    obtain ⟨locks, hlocks, hplan⟩ := bind_eq_ok.mp hplan
    obtain ⟨row, new, hplaced, hnew, htakes, rfl⟩ := (hplace _).mp hinst
    obtain ⟨hpages, rfl⟩ := (lockSteps_eq_ok rfl (harea hnew)).mp hlocks
    exact ⟨row, new, hplaced, hnew, htakes, hpages, (pure_eq_ok.mp hplan).symm⟩
  · rintro ⟨row, new, hplaced, hnew, htakes, hpages, rfl⟩
    refine bind_eq_ok.mpr ⟨_, (hplace _).mpr ⟨row, new, hplaced, hnew, htakes, rfl⟩, ?_⟩
    exact bind_eq_ok.mpr ⟨_, (lockSteps_eq_ok rfl (harea hnew)).mpr ⟨hpages, rfl⟩, rfl⟩

end OneRom.CommissionPrepare
