import OneRom.CommissionPrepare

/-!
What holds at every moment a plan is executed, whatever becomes of each write.

A write that enables rows comes after those rows were read back, and a page's lock after the
page's rows: the log of the accesses made is `Safe`. The invariant of a run is the log's safety
and the rows verified so far; a write leaves every other row as it was.
-/

namespace OneRom.CommissionSafe

open OneRom.OtpEntry OneRom.OtpStore OneRom.OtpWriter OneRom.Hw OneRom.Fallible OneRom.OtpAccess
open OneRom.Commission OneRom.OtpReads OneRom.CommissionPlan OneRom.CommissionPrepare

lemma mem_writes {plan : Plan} {w : PlannedWrite} :
    w ∈ plan.writes ↔ ∃ s ∈ plan.steps, w ∈ s.writes :=
  List.mem_flatMap

variable [PicoOtp]

/-! ### Safety -/

/-- A row holds its planned value. -/
def Held (rows : Rows) (w : PlannedWrite) : Prop := holdsValue (rows w.row) w.value = true

lemma held_update {rows : Rows} {w : PlannedWrite} {row : ℕ} (h : w.row ≠ row) (raw : UInt32) :
    Held (Function.update rows row raw) w ↔ Held rows w := by
  rw [Held, Function.update_of_ne h, Held]

/-- An access read a row raw and found its planned value. -/
def FoundHolding (access : Access) (w : PlannedWrite) : Prop :=
  ∃ first raws raw, access = .readRaw first raws ∧ first ≤ w.row ∧
    raws[w.row - first]? = some raw ∧ holdsValue raw w.value = true

/-- A row was read and held its planned value, and was not written since. -/
def ReadBack (w : PlannedWrite) : List Moment → Prop
  | [] => False
  | m :: earlier => FoundHolding m.access w ∨
    ((∀ value, m.access ≠ .write w.row value) ∧ ReadBack w earlier)

/-- A row of the white label's pages. -/
def InWhiteLabel (row : ℕ) : Prop := OTP_USB_WHITE_LABEL_ROW ≤ row ∧ row < OTP_ROW_UNRESERVED_END

/-- A write to `row` over these rows, after these accesses, enables or locks good rows only. -/
structure WriteSafe (plan : Plan) (rows : Rows) (earlier : List Moment) (row : ℕ) : Prop where
  bootFlags0 : row ∈ BOOT_FLAGS0_ROWS →
    (∃ w ∈ plan.writes, w.row = OTP_FLASH_DEVINFO_ROW) ∧
      (∀ w ∈ plan.writes, w.row = OTP_FLASH_DEVINFO_ROW → Held rows w) ∧
        (codeword (rows OTP_FLASH_PARTITION_SLOT_SIZE_ROW)).isSome
  usbBootFlags : row ∈ USB_BOOT_FLAGS_ROWS →
    (∃ w ∈ plan.writes, w.row = OTP_ROW_USB_WHITE_LABEL_DATA) ∧
      ∀ w ∈ plan.writes, InWhiteLabel w.row ∨ w.row = OTP_ROW_USB_WHITE_LABEL_DATA → Held rows w
  lock : ∀ page, row = lock1Row page → ∀ w ∈ plan.writes, InArea w.row →
    w.row / OTP_PAGE_ROWS = page → Held rows w ∧ ReadBack w earlier

/-- Every write was safe when it was made. -/
def Safe (plan : Plan) : List Moment → Prop
  | [] => True
  | m :: earlier =>
    (∀ row value, m.access = .write row value → WriteSafe plan m.rows earlier row) ∧
      Safe plan earlier

lemma Safe.reads {plan : Plan} {otp otp' : Otp} (h : Reads otp otp') (hsafe : Safe plan otp.log) :
    Safe plan otp'.log := by
  obtain ⟨ms, hms, hread⟩ := h.log
  rw [hms]
  clear hms h
  induction ms with
  | nil => exact hsafe
  | cons m ms ih =>
    refine ⟨fun row value hw => ?_, ih fun m hm => hread m (by simp [hm])⟩
    have := hread m (by simp)
    rw [hw] at this
    exact this.elim

lemma ReadBack.reads {w : PlannedWrite} {otp otp' : Otp} (h : Reads otp otp')
    (hback : ReadBack w otp.log) : ReadBack w otp'.log := by
  obtain ⟨ms, hms, hread⟩ := h.log
  rw [hms]
  clear hms h
  induction ms with
  | nil => exact hback
  | cons m ms ih =>
    refine .inr ⟨fun value hw => ?_, ih fun m hm => hread m (by simp [hm])⟩
    have := hread m (by simp)
    rw [hw] at this
    exact this.elim

/-! ### What a plan keeps to -/

/-- A step whose rows are its kind's, each once, and planned over the rows. -/
structure StepOver (rows : Rows) (s : Step) : Prop where
  nodup : (s.writes.map (·.row)).Nodup
  kindOf : ∀ w ∈ s.writes, kindOf w.row = some s.kind
  holds_eq : ∀ w ∈ s.writes, w.holds = holdsValue (rows w.row) w.value
  sets : ∀ w ∈ s.writes, w.holds = false → Sets (rows w.row) w.value

/-- A plan made over rows. -/
structure Sound (rows : Rows) (plan : Plan) : Prop where
  kinds : (plan.steps.map (·.kind)).Nodup
  step : ∀ s ∈ plan.steps, StepOver rows s
  /-- No instance is written after a page is locked. -/
  order : plan.steps.Pairwise fun s t => (∃ page, s.kind = .lock page) → t.kind ≠ .instance_
  devinfo : (∃ s ∈ plan.steps, s.kind = .bootFlags0) →
    ∃ w ∈ plan.writes, w.row = OTP_FLASH_DEVINFO_ROW
  addr : (∃ s ∈ plan.steps, s.kind = .usbBootFlags) →
    ∃ w ∈ plan.writes, w.row = OTP_ROW_USB_WHITE_LABEL_DATA

namespace Sound

variable {rows : Rows} {plan : Plan}

/-- The rows of different steps differ, as their kinds do. -/
lemma eq_step (h : Sound rows plan) {s t : Step} (hs : s ∈ plan.steps) (ht : t ∈ plan.steps)
    {w v : PlannedWrite} (hw : w ∈ s.writes) (hv : v ∈ t.writes) (heq : w.row = v.row) : s = t := by
  have hkind : some s.kind = some t.kind := by
    rw [← (h.step s hs).kindOf w hw, heq, (h.step t ht).kindOf v hv]
  exact List.inj_on_of_nodup_map h.kinds hs ht (Option.some.inj hkind)

/-- **Once each**: no row is planned twice. -/
theorem rows_nodup (h : Sound rows plan) : (plan.writes.map (·.row)).Nodup := by
  have hsteps : plan.steps.Nodup := List.Nodup.of_map _ h.kinds
  rw [Plan.writes, List.map_flatMap, List.nodup_flatMap]
  refine ⟨fun s hs => (h.step s hs).nodup, ?_⟩
  refine hsteps.imp_of_mem fun {s t} hs ht hne => ?_
  intro row hrow hrow'
  obtain ⟨w, hw, rfl⟩ := List.mem_map.mp hrow
  obtain ⟨v, hv, heq⟩ := List.mem_map.mp hrow'
  exact hne (h.eq_step hs ht hw hv heq.symm)

/-- The step of a row's kind writes it. -/
lemma mem_step (h : Sound rows plan) {w : PlannedWrite} (hw : w ∈ plan.writes) {kind : StepKind}
    (hkind : CommissionPlan.kindOf w.row = some kind) :
    ∃ s ∈ plan.steps, s.kind = kind ∧ w ∈ s.writes := by
  obtain ⟨s, hs, hws⟩ := mem_writes.mp hw
  exact ⟨s, hs, Option.some.inj (((h.step s hs).kindOf w hws).symm.trans hkind), hws⟩

lemma mem_writesOf (h : Sound rows plan) {w : PlannedWrite} (hw : w ∈ plan.writes)
    {kind : StepKind} (hkind : CommissionPlan.kindOf w.row = some kind) {kinds : List StepKind}
    (hmem : kind ∈ kinds) : w ∈ plan.writesOf kinds := by
  obtain ⟨s, hs, rfl, hws⟩ := h.mem_step hw hkind
  exact List.mem_flatMap.mpr ⟨s, List.mem_filter.mpr ⟨hs, by simpa using hmem⟩, hws⟩

end Sound

/-! ### The invariant of a run -/

/-- A row holds its planned value, which was read back. -/
structure Verified (otp : Otp) (w : PlannedWrite) : Prop where
  held : Held otp.rows w
  back : ReadBack w otp.log

lemma Verified.reads {otp otp' : Otp} {w : PlannedWrite} (h : Reads otp otp')
    (hw : Verified otp w) : Verified otp' w :=
  ⟨by rw [Held, h.rows]; exact hw.held, hw.back.reads h⟩

/-- Every write so far was safe, and these rows are verified. -/
structure Run (plan : Plan) (V : PlannedWrite → Prop) (otp : Otp) : Prop where
  safe : Safe plan otp.log
  verified : ∀ w, V w → Verified otp w

variable {plan : Plan} {V : PlannedWrite → Prop}

lemma Run.reads {otp otp' : Otp} (h : Reads otp otp') (hrun : Run plan V otp) :
    Run plan V otp' :=
  ⟨hrun.safe.reads h, fun w hw => (hrun.verified w hw).reads h⟩

lemma Run.mono {V' : PlannedWrite → Prop} {otp : Otp} (hrun : Run plan V otp)
    (h : ∀ w, V' w → V w) : Run plan V' otp :=
  ⟨hrun.safe, fun w hw => hrun.verified w (h w hw)⟩

/-- What a read keeps. -/
def Stable (P : Otp → Prop) : Prop := ∀ otp otp', Reads otp otp' → P otp → P otp'

lemma stable_run : Stable (Run plan V) := fun _ _ h => Run.reads h

variable (host : Host)

omit [PicoOtp] in
/-- What the rows alone decide, a read keeps. -/
lemma stable_rows (P : Rows → Prop) : Stable fun otp => P otp.rows := fun otp otp' h hP => by
  change P otp'.rows
  rw [h.rows]
  exact hP

omit [PicoOtp] in
lemma Stable.and {P Q : Otp → Prop} (hP : Stable P) (hQ : Stable Q) :
    Stable fun otp => P otp ∧ Q otp := fun otp otp' h hPQ =>
  ⟨hP otp otp' h hPQ.1, hQ otp otp' h hPQ.2⟩

omit [PicoOtp] in
lemma readRow_triple {P : Otp → Prop} (hP : Stable P) (row : ℕ) :
    Keeps P (readRow host row) fun raw otp => P otp ∧ raw = otp.rows row ∧
      ∃ m earlier, otp.log = m :: earlier ∧ m.access = .readRaw row [raw] := by
  intro otp hotp
  have hlog : ∀ access, Access.IsRead access → P (otp.logged access) := fun access h =>
    hP otp _ (.logged h) hotp
  simp only [readRow, Prog.bind_run, Prog.mapError, readRawRows]
  cases host.readFails otp.log.length row 1 with
  | some e => exact hlog _ trivial
  | none => exact ⟨hlog _ trivial, rfl, _, _, rfl, rfl⟩

lemma readBack_triple {P : Otp → Prop} (hP : Stable P) (w : PlannedWrite) :
    Keeps P (Commission.readBack host w) fun _ otp => P otp ∧ Verified otp w := by
  unfold Commission.readBack
  refine (readRow_triple host hP w.row).bind fun raw => ?_
  by_cases hheld : holdsValue raw w.value = true
  · rw [if_pos hheld]
    refine Triple.pure fun otp ⟨hotp, hraw, m, earlier, hlog, hm⟩ => ⟨hotp, ?_, ?_⟩
    · rw [Held, ← hraw]
      exact hheld
    · rw [hlog]
      exact .inl ⟨w.row, [raw], raw, hm, le_rfl, by simp, hheld⟩
  · rw [if_neg hheld]
    exact Triple.throw fun otp h => h.1

lemma readBackSteps_triple {P : Otp → Prop} (hP : Stable P) (kinds : List StepKind) :
    Keeps P (plan.readBackSteps host kinds) fun _ otp =>
      P otp ∧ ∀ w ∈ plan.writesOf kinds, Held otp.rows w := by
  have heach := Triple.each (E := P) (f := Commission.readBack host)
    (fun pre otp => P otp ∧ ∀ w ∈ pre, Held otp.rows w) (plan.writesOf kinds)
    fun pre w post _ => by
      have hstable : Stable fun otp => P otp ∧ ∀ v ∈ pre, Held otp.rows v :=
        hP.and (stable_rows fun rows => ∀ v ∈ pre, Held rows v)
      refine (readBack_triple host hstable w).mono (fun _ h => h) (fun _ otp h => ?_) fun _ h => h.1
      refine ⟨h.1.1, fun v hv => ?_⟩
      rcases List.mem_append.mp hv with hv | hv
      · exact h.1.2 v hv
      · rw [List.mem_singleton.mp hv]
        exact h.2.held
  exact heach.mono (fun _ h => ⟨h, by simp⟩) (fun _ _ h => h) fun _ h => h

/-! ### A step -/

/-- The rows a step of a kind enables hold their values. -/
def Enabled (plan : Plan) (rows : Rows) : StepKind → Prop
  | .usbBootFlags =>
    ∀ w ∈ plan.writesOf [.whiteLabelStrings, .whiteLabelTable, .whiteLabelAddr], Held rows w
  | .bootFlags0 => (∀ w ∈ plan.writesOf [.flashDevinfo], Held rows w) ∧
      (codeword (rows OTP_FLASH_PARTITION_SLOT_SIZE_ROW)).isSome
  | _ => True

lemma checkEnabled_triple (kind : StepKind) :
    Keeps (Run plan V) (plan.checkEnabled host kind) fun _ otp =>
      Run plan V otp ∧ Enabled plan otp.rows kind := by
  cases kind with
  | usbBootFlags => exact readBackSteps_triple host stable_run _
  | bootFlags0 =>
    refine (readBackSteps_triple host stable_run _).bind fun _ => ?_
    have hstable : Stable fun otp => Run plan V otp ∧
        ∀ w ∈ plan.writesOf [.flashDevinfo], Held otp.rows w :=
      stable_run.and (stable_rows fun rows => ∀ w ∈ plan.writesOf [.flashDevinfo], Held rows w)
    have hrow := readRow_triple host hstable OTP_FLASH_PARTITION_SLOT_SIZE_ROW
    refine (hrow.mono (fun _ h => h) (fun _ _ h => h) fun _ h => h.1).bind fun raw => ?_
    by_cases hcode : (codeword raw).isSome = true
    · rw [if_pos hcode]
      exact Triple.pure fun otp ⟨⟨hrun, hheld⟩, hraw, _⟩ => ⟨hrun, hheld, hraw ▸ hcode⟩
    · rw [if_neg hcode]
      exact Triple.throw fun otp h => h.1.1
  | _ => exact Triple.pure fun otp h => ⟨h, trivial⟩

namespace Sound

variable {rows : Rows}

lemma kind_of_mem_writesOf (h : Sound rows plan) {kinds : List StepKind} {w : PlannedWrite}
    (hw : w ∈ plan.writesOf kinds) : ∃ kind ∈ kinds, CommissionPlan.kindOf w.row = some kind := by
  obtain ⟨s, hs, hws⟩ := List.mem_flatMap.mp hw
  obtain ⟨hs, hkind⟩ := List.mem_filter.mp hs
  exact ⟨s.kind, by simpa using hkind, (h.step s hs).kindOf w hws⟩

/-- A write to one of a step's rows leaves the rows it enables as they are. -/
lemma enabled_update (h : Sound rows plan) {kind : StepKind} {now : Rows} {row : ℕ}
    (hrow : CommissionPlan.kindOf row = some kind) (raw : UInt32) (hen : Enabled plan now kind) :
    Enabled plan (Function.update now row raw) kind := by
  have hother : ∀ kinds, kind ∉ kinds → ∀ w ∈ plan.writesOf kinds, Held now w →
      Held (Function.update now row raw) w := fun kinds hnot w hw hheld => by
    obtain ⟨kind', hmem, hkind⟩ := h.kind_of_mem_writesOf hw
    have hne : w.row ≠ row := fun heq => by
      rw [heq, hrow] at hkind
      exact hnot (Option.some.inj hkind ▸ hmem)
    exact (held_update hne raw).mpr hheld
  cases kind with
  | usbBootFlags => exact fun w hw => hother _ (by simp) w hw (hen w hw)
  | bootFlags0 =>
    refine ⟨fun w hw => hother _ (by simp) w hw (hen.1 w hw), ?_⟩
    have hslot : CommissionPlan.kindOf OTP_FLASH_PARTITION_SLOT_SIZE_ROW = none := by decide +kernel
    have hne : OTP_FLASH_PARTITION_SLOT_SIZE_ROW ≠ row := fun heq => by
      rw [heq, hrow] at hslot
      cases hslot
    rw [Function.update_of_ne hne]
    exact hen.2
  | _ => trivial

/-- A step's rows are written safely where the rows it enables hold their values and the pages'
instance rows were read back. -/
lemma writeSafe (h : Sound rows plan) {s : Step} (hs : s ∈ plan.steps) {c : PlannedWrite}
    (hc : c ∈ s.writes) {otp : Otp} (hen : Enabled plan otp.rows s.kind)
    (hback : (∃ page, s.kind = .lock page) →
      ∀ w ∈ plan.writes, InArea w.row → Verified otp w) :
    WriteSafe plan otp.rows otp.log c.row where
  bootFlags0 := fun hrow => by
    have hkind : s.kind = .bootFlags0 :=
      Option.some.inj (((h.step s hs).kindOf c hc).symm.trans (kindOf_bootFlags0 hrow))
    rw [hkind] at hen
    refine ⟨h.devinfo ⟨s, hs, hkind⟩, fun w hw hrow => hen.1 w ?_, hen.2⟩
    have hdevinfo : CommissionPlan.kindOf w.row = some .flashDevinfo := by
      rw [hrow]
      decide +kernel
    exact h.mem_writesOf hw hdevinfo (by simp)
  usbBootFlags := fun hrow => by
    have hkind : s.kind = .usbBootFlags :=
      Option.some.inj (((h.step s hs).kindOf c hc).symm.trans (kindOf_usbBootFlags hrow))
    rw [hkind] at hen
    refine ⟨h.addr ⟨s, hs, hkind⟩, fun w hw hrow => hen w ?_⟩
    rcases hrow with ⟨hfirst, hend⟩ | hrow
    · have hlt : w.row - OTP_USB_WHITE_LABEL_ROW < WHITE_LABEL_PAGES_ROWS := by
        simp only [WHITE_LABEL_PAGES_ROWS, OTP_ROW_UNRESERVED_END,
          OTP_USB_WHITE_LABEL_ROW] at hfirst hend ⊢
        omega
      have hlabel := kindOf_whiteLabel hlt
      rw [Nat.add_sub_cancel' hfirst] at hlabel
      refine h.mem_writesOf hw hlabel ?_
      split <;> simp
    · have haddr : CommissionPlan.kindOf w.row = some .whiteLabelAddr := by
        rw [hrow]
        decide +kernel
      exact h.mem_writesOf hw haddr (by simp)
  lock := fun page hrow w hw harea hpage => by
    obtain ⟨hfirst, hlast⟩ := page_of_area harea
    rw [hpage] at hfirst hlast
    have hkind : s.kind = .lock page :=
      Option.some.inj (((h.step s hs).kindOf c hc).symm.trans (hrow ▸ kindOf_lock hfirst hlast))
    have := hback ⟨page, hkind⟩ w hw harea
    exact ⟨this.held, this.back⟩

end Sound

/-! ### A run -/

/-- OTP after a write that left `raw` in the row. -/
def Otp.written (otp : Otp) (c : PlannedWrite) (raw : UInt32) : Otp :=
  ⟨Function.update otp.rows c.row raw, ⟨otp.rows, .write c.row c.value⟩ :: otp.log⟩

/-- A safe write to a row that isn't verified. -/
lemma Run.written {otp : Otp} {c : PlannedWrite} (hrun : Run plan V otp)
    (hsafe : WriteSafe plan otp.rows otp.log c.row) (hV : ∀ w, V w → w.row ≠ c.row)
    (raw : UInt32) : Run plan V (Otp.written otp c raw) where
  safe := by
    refine ⟨fun row value hw => ?_, hrun.safe⟩
    obtain ⟨rfl, -⟩ := Access.write.inj hw
    exact hsafe
  verified := fun w hw => by
    obtain ⟨hheld, hback⟩ := hrun.verified w hw
    refine ⟨?_, .inr ⟨fun value heq => ?_, hback⟩⟩
    · exact (held_update (hV w hw) raw).mpr hheld
    · exact hV w hw (Access.write.inj heq).1.symm

variable {rows : Rows} {s : Step} {c : PlannedWrite}

lemma writeRow_triple (h : Sound rows plan) (hs : s ∈ plan.steps) (hc : c ∈ s.writes)
    (hV : ∀ w, V w → w.row ≠ c.row)
    (hback : (∃ page, s.kind = .lock page) → ∀ w ∈ plan.writes, InArea w.row → V w) :
    Triple (fun otp => Run plan V otp ∧ Enabled plan otp.rows s.kind) (writeRow host c)
      (fun _ otp => Run plan (fun w => V w ∨ w = c) otp ∧ Enabled plan otp.rows s.kind)
      fun otp => Safe plan otp.log := by
  have hwrite : Triple (fun otp => Run plan V otp ∧ Enabled plan otp.rows s.kind)
      ((writeRowValue host c.row c.value).mapError (at_ c.row))
      (fun _ otp => Run plan V otp ∧ Enabled plan otp.rows s.kind) fun otp => Safe plan otp.log := by
    refine Triple.mapError fun otp ⟨hrun, hen⟩ => ?_
    have hsafe := h.writeSafe hs hc hen fun hlock w hw harea => hrun.verified w (hback hlock w hw harea)
    unfold writeRowValue
    rcases host.write otp.log.length c.row c.value (otp.rows c.row) with ⟨raw, error⟩
    have hrun' : Run plan V (Otp.written otp c raw) := hrun.written hsafe hV raw
    cases error with
    | none => exact ⟨hrun', h.enabled_update ((h.step s hs).kindOf c hc) raw hen⟩
    | some e => exact hrun'.safe
  have hstable : Stable fun otp => Run plan V otp ∧ Enabled plan otp.rows s.kind :=
    stable_run.and (stable_rows fun rows => Enabled plan rows s.kind)
  refine hwrite.bind fun _ => ?_
  refine (readBack_triple host hstable c).mono (fun _ h => h) ?_ fun _ h => h.1.safe
  rintro _ otp ⟨⟨hrun, hen⟩, hc⟩
  refine ⟨⟨hrun.safe, fun w hw => ?_⟩, hen⟩
  rcases hw with hw | rfl
  · exact hrun.verified w hw
  · exact hc

/-- The rows verified once some steps are done: the instance's rows that held their values when
they were planned, and the rows the steps wrote. -/
def Done (plan : Plan) (pre : List Step) (w : PlannedWrite) : Prop :=
  (w ∈ plan.writes ∧ InArea w.row ∧ w.holds = true) ∨ ∃ t ∈ pre, w ∈ t.toWrite

omit [PicoOtp] in
lemma mem_toWrite {w : PlannedWrite} : w ∈ s.toWrite ↔ w ∈ s.writes ∧ w.holds = false := by
  simp [Step.toWrite]

namespace Sound

variable {pre post : List Step}

/-- A step writes none of the rows verified before it. -/
lemma row_ne_of_done (h : Sound rows plan) (hsteps : plan.steps = pre ++ s :: post)
    (hc : c ∈ s.toWrite) {w : PlannedWrite} (hw : Done plan pre w) : w.row ≠ c.row := by
  obtain ⟨hcw, hnot⟩ := mem_toWrite.mp hc
  have hs : s ∈ plan.steps := by simp [hsteps]
  intro heq
  rcases hw with ⟨hw, -, hholds⟩ | ⟨t, ht, hw⟩
  · have := List.inj_on_of_nodup_map h.rows_nodup hw (mem_writes.mpr ⟨s, hs, hcw⟩) heq
    rw [this, hnot] at hholds
    cases hholds
  · have htmem : t ∈ plan.steps := by simp [hsteps, ht]
    have hts := h.eq_step htmem hs (mem_toWrite.mp hw).1 hcw heq
    have hnodup : (pre ++ s :: post).Nodup := hsteps ▸ List.Nodup.of_map _ h.kinds
    exact (List.nodup_append.mp hnodup).2.2 t ht s (by simp) hts

/-- Before a lock the instance's rows are all verified. -/
lemma done_of_lock (h : Sound rows plan) (hsteps : plan.steps = pre ++ s :: post)
    (hlock : ∃ page, s.kind = .lock page) {w : PlannedWrite} (hw : w ∈ plan.writes)
    (harea : InArea w.row) : Done plan pre w := by
  cases hholds : w.holds with
  | true => exact .inl ⟨hw, harea, hholds⟩
  | false =>
    obtain ⟨t, ht, hkind, hwt⟩ := h.mem_step hw (kindOf_area harea)
    refine .inr ⟨t, ?_, mem_toWrite.mpr ⟨hwt, hholds⟩⟩
    rw [hsteps] at ht
    rcases List.mem_append.mp ht with ht | ht
    · exact ht
    obtain ⟨page, hpage⟩ := hlock
    rcases List.mem_cons.mp ht with rfl | ht
    · cases hkind.symm.trans hpage
    · have horder := (List.pairwise_append.mp (hsteps ▸ h.order)).2.1
      exact absurd hkind ((List.pairwise_cons.mp horder).1 t ht ⟨page, hpage⟩)

end Sound

/-- **A step** of a run: it writes safely, and verifies the rows it writes. -/
theorem executeStep_triple (h : Sound rows plan) {pre post : List Step}
    (hsteps : plan.steps = pre ++ s :: post) :
    Triple (Run plan (Done plan pre)) (plan.executeStep host s)
      (fun _ => Run plan (Done plan (pre ++ [s]))) fun otp => Safe plan otp.log := by
  have hs : s ∈ plan.steps := by simp [hsteps]
  have hdone : ∀ {otp}, Run plan (fun w => Done plan pre w ∨ w ∈ s.toWrite) otp →
      Run plan (Done plan (pre ++ [s])) otp := fun hrun => hrun.mono fun w hw => by
    rcases hw with hw | ⟨t, ht, hw⟩
    · exact .inl (.inl hw)
    · rcases List.mem_append.mp ht with ht | ht
      · exact .inl (.inr ⟨t, ht, hw⟩)
      · exact .inr (List.mem_singleton.mp ht ▸ hw)
  unfold Plan.executeStep
  by_cases hany : s.writes.any (!·.holds) = true
  · rw [if_pos hany]
    refine ((checkEnabled_triple host s.kind).mono (fun _ h => h) (fun _ _ h => h)
      fun _ h => h.safe).bind fun _ => ?_
    have heach := Triple.each (E := fun otp => Safe plan otp.log) (f := writeRow host)
      (fun done otp => Run plan (fun w => Done plan pre w ∨ w ∈ done) otp ∧
        Enabled plan otp.rows s.kind) s.toWrite fun done c rest hcs => by
      have hc : c ∈ s.toWrite := by simp [hcs]
      have hV : ∀ w, Done plan pre w ∨ w ∈ done → w.row ≠ c.row := by
        rintro w (hw | hw)
        · exact h.row_ne_of_done hsteps hc hw
        · have hnodup : (s.toWrite.map (·.row)).Nodup :=
            (h.step s hs).nodup.sublist (List.filter_sublist.map _)
          rw [hcs, List.map_append, List.nodup_append] at hnodup
          exact hnodup.2.2 _ (List.mem_map_of_mem hw) _ (by simp)
      refine (writeRow_triple host h hs (mem_toWrite.mp hc).1 hV fun hlock w hw harea =>
        .inl (h.done_of_lock hsteps hlock hw harea)).mono (fun _ h => h) ?_ fun _ h => h
      rintro _ otp ⟨hrun, hen⟩
      refine ⟨hrun.mono fun w hw => ?_, hen⟩
      rcases hw with hw | hw
      · exact .inl (.inl hw)
      · rcases List.mem_append.mp hw with hw | hw
        · exact .inl (.inr hw)
        · exact .inr (List.mem_singleton.mp hw)
    refine heach.mono (fun otp ⟨hrun, hen⟩ => ⟨hrun.mono fun w hw => ?_, hen⟩)
      (fun _ otp h => hdone h.1) fun _ h => h
    exact hw.resolve_right (by simp)
  · rw [if_neg hany]
    refine Triple.pure fun otp hrun => hdone (hrun.mono fun w hw => hw.resolve_right fun hw => ?_)
    obtain ⟨hmem, hnot⟩ := mem_toWrite.mp hw
    exact hany (List.any_eq_true.mpr ⟨w, hmem, by simp [hnot]⟩)

/-- **Executing** a plan writes safely, whatever becomes of each write. -/
theorem execute_triple (h : Sound rows plan) :
    Triple (Run plan (Done plan [])) (plan.execute host)
      (fun _ => Run plan (Done plan plan.steps)) fun otp => Safe plan otp.log :=
  Triple.each _ _ fun _ _ _ hsteps => executeStep_triple host h hsteps

end OneRom.CommissionSafe
