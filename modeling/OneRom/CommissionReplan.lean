import OneRom.CommissionExecute

/-!
The plan a run makes over rows where part of another's has landed.

Its steps are the first's with each write's `holds` read again, so the rows it leaves to write are
those the first had still to write.
-/

namespace OneRom.CommissionReplan

open OneRom.OtpEntry OneRom.OtpStore OneRom.OtpWriter OneRom.OtpArea OneRom.OtpAttempt
open OneRom.OtpHistory OneRom.OtpWalk OneRom.Hw OneRom.WriteOnce OneRom.Fallible OneRom.OtpAccess
open OneRom.Commission OneRom.OtpReads OneRom.Checks OneRom.CommissionPlan OneRom.CommissionPrepare
open OneRom.CommissionSafe OneRom.CommissionRuns OneRom.CommissionCommit OneRom.CommissionExecute

variable [PicoOtp] {host : Host} {request : Request} {before after rows : Rows} {plan : Plan}
  {pre post : List PlannedWrite} {w : PlannedWrite}

/-! ### Reading a plan's rows again -/

/-- A planned write over other rows. -/
def refresh (rows : Rows) (w : PlannedWrite) : PlannedWrite := fresh rows w.row w.value

def refreshStep (rows : Rows) (s : Step) : Step := ⟨s.kind, s.writes.map (refresh rows)⟩

def refreshPlan (rows : Rows) (plan : Plan) : Plan := ⟨plan.steps.map (refreshStep rows)⟩

@[simp] lemma refresh_row : (refresh rows w).row = w.row := rfl
@[simp] lemma refresh_value : (refresh rows w).value = w.value := rfl
@[simp] lemma refresh_fresh {row : ℕ} {value : RowValue} :
    refresh rows (fresh before row value) = fresh rows row value := rfl

lemma writes_refreshPlan : (refreshPlan rows plan).writes = plan.writes.map (refresh rows) := by
  simp only [refreshPlan, Plan.writes, List.flatMap_map, List.map_flatMap]
  rfl

/-- Part of a plan's rows have landed as they are in `after`, where all of them hold their value. -/
structure Partway (before after : Rows) (plan : Plan) (pre post : List PlannedWrite) : Prop where
  sound : Sound before plan
  split : Plan.toWrites plan = pre ++ post
  held : ∀ w ∈ Plan.toWrites plan, Held after w

namespace Partway

lemma rows_nodup (h : Partway before after plan pre post) :
    ((pre ++ post).map (·.row)).Nodup := by
  rw [← h.split, toWrites_eq]
  exact h.sound.rows_nodup.sublist (List.filter_sublist.map _)

lemma mem_pre (h : Partway before after plan pre post) (hw : w ∈ pre) :
    w ∈ plan.writes ∧ w.holds = false := mem_toWrites.mp (h.split ▸ List.mem_append_left _ hw)

lemma mem_post (h : Partway before after plan pre post) (hw : w ∈ post) :
    w ∈ plan.writes ∧ w.holds = false := mem_toWrites.mp (h.split ▸ List.mem_append_right _ hw)

lemma holds_eq (h : Partway before after plan pre post) (hw : w ∈ plan.writes) :
    w.holds = holdsValue (before w.row) w.value := by
  obtain ⟨s, hs, hws⟩ := mem_writes.mp hw
  exact (h.sound.step s hs).holds_eq w hws

/-- A row still to write is as it was. -/
lemma landed_post (h : Partway before after plan pre post) (hw : w ∈ post) :
    landed before after pre w.row = before w.row := by
  refine landed_of_notMem fun v hv heq => ?_
  have hnodup := h.rows_nodup
  rw [List.map_append, List.nodup_append] at hnodup
  exact hnodup.2.2 _ (List.mem_map_of_mem hv) _ (List.mem_map_of_mem hw) heq

/-- A planned row has landed and holds its value, or is as it was. -/
lemma landed_cases (h : Partway before after plan pre post) (hw : w ∈ plan.writes) :
    (w ∈ pre ∧ Held (landed before after pre) w) ∨
      (w ∉ pre ∧ landed before after pre w.row = before w.row) := by
  by_cases hpre : w ∈ pre
  · refine .inl ⟨hpre, ?_⟩
    rw [Held, landed_of_mem hpre]
    exact h.held w (h.split ▸ List.mem_append_left _ hpre)
  · refine .inr ⟨hpre, landed_of_notMem fun v hv heq => hpre ?_⟩
    rwa [← List.inj_on_of_nodup_map h.sound.rows_nodup (h.mem_pre hv).1 hw heq]

/-- A row no step of the plan writes is as it was. -/
lemma landed_frame (h : Partway before after plan pre post) {row : ℕ}
    (hrow : ∀ s ∈ plan.steps, kindOf row ≠ some s.kind) : landed before after pre row = before row :=
  landed_of_notMem fun v hv heq => by
    obtain ⟨s, hs, hvs⟩ := mem_writes.mp (h.mem_pre hv).1
    exact hrow s hs (heq ▸ (h.sound.step s hs).kindOf v hvs)

/-- A row that took its value takes it still. -/
lemma takes (h : Partway before after plan pre post) (hw : w ∈ plan.writes)
    (htakes : Takes (before w.row) w.value) : Takes (landed before after pre w.row) w.value := by
  rcases h.landed_cases hw with ⟨-, hheld⟩ | ⟨-, hrow⟩
  · rw [Held] at hheld
    cases hvalue : w.value with
    | ecc value =>
      rw [hvalue] at hheld
      exact .inl hheld
    | raw value =>
      rw [hvalue] at hheld
      exact .inr (by simpa [holdsValue] using hheld)
  · rwa [hrow]

lemma holds_refresh (h : Partway before after plan pre post) (hw : w ∈ plan.writes) :
    (refresh (landed before after pre) w).holds = true ↔ w.holds = true ∨ w ∈ pre := by
  rcases h.landed_cases hw with ⟨hpre, hheld⟩ | ⟨hpre, hrow⟩
  · exact ⟨fun _ => .inr hpre, fun _ => hheld⟩
  · have heq : (refresh (landed before after pre) w).holds = w.holds := by
      rw [h.holds_eq hw, ← hrow]
      rfl
    rw [heq]
    exact ⟨.inl, fun h => h.resolve_right hpre⟩

/-- **Resuming**: the rows left to write are those that had not landed. -/
theorem toWrites_refresh (h : Partway before after plan pre post) :
    Plan.toWrites (refreshPlan (landed before after pre) plan) = post := by
  have hpost : ∀ w ∈ post, w ∉ pre := fun w hw hpre => by
    have hnodup := h.rows_nodup
    rw [List.map_append, List.nodup_append] at hnodup
    exact hnodup.2.2 _ (List.mem_map_of_mem hpre) _ (List.mem_map_of_mem hw) rfl
  have hrefresh : ∀ w ∈ post, refresh (landed before after pre) w = w := fun w hw => by
    obtain ⟨hmem, hnot⟩ := h.mem_post hw
    have heq := h.holds_eq hmem
    rw [← h.landed_post hw] at heq
    rcases w with ⟨row, value, holds⟩
    exact congrArg (PlannedWrite.mk row value) heq.symm
  calc Plan.toWrites (refreshPlan (landed before after pre) plan)
      = (plan.writes.filter fun w => !(refresh (landed before after pre) w).holds).map
          (refresh (landed before after pre)) := by
        rw [toWrites_eq, writes_refreshPlan, List.filter_map]
        rfl
    _ = ((plan.writes.filter (!·.holds)).filter (decide <| · ∉ pre)).map
          (refresh (landed before after pre)) := by
        rw [List.filter_filter]
        congr 1
        refine List.filter_congr fun w hw => ?_
        have := h.holds_refresh hw
        rw [Bool.eq_iff_iff]
        simp only [Bool.not_eq_true', Bool.and_eq_true, decide_eq_true_eq]
        rw [← Bool.not_eq_true, this]
        simp [and_comm]
    _ = post.map (refresh (landed before after pre)) := by
        rw [← toWrites_eq, h.split, List.filter_append]
        have hnone : pre.filter (decide <| · ∉ pre) = [] := by
          simp [List.filter_eq_nil_iff]
        have hall : post.filter (decide <| · ∉ pre) = post := by
          simpa [List.filter_eq_self] using hpost
        rw [hnone, hall, List.nil_append]
    _ = post := by rw [List.map_congr_left hrefresh, List.map_id']

end Partway

/-! ### The order of a plan's rows -/

section Order

variable {devinfo : Option UInt16} {writes : List RowWrite}

lemma ordered_planOf : Ordered (planOf rows (beforeOf rows devinfo) (afterOf request rows devinfo)
    writes) := by
  have hlocks : (pagesOf (freshInstance rows writes)).Pairwise fun _ _ => True :=
    List.pairwise_of_forall fun _ _ => trivial
  cases devinfo <;>
    simp [Ordered, planOf, beforeOf, afterOf, freshSizeSteps, freshLabelSteps, freshLock,
      List.pairwise_append, List.pairwise_map, hlocks]

namespace Partway

/-- Where a page's lock has landed, so has the instance. -/
lemma instance_of_lock (h : Partway before after plan pre post) {page : ℕ} (hw : w ∈ pre)
    (hlock : kindOf w.row = some (.lock page)) {v : PlannedWrite} (hv : v ∈ plan.writes)
    (hnot : v.holds = false) (harea : InArea v.row) : v ∈ pre := by
  have hpairwise : (Plan.toWrites plan).Pairwise fun x y =>
      (∃ page, kindOf x.row = some (.lock page)) → kindOf y.row ≠ some .instance_ := by
    have hkind : ∀ s ∈ plan.steps, ∀ x ∈ s.toWrite, kindOf x.row = some s.kind := fun s hs x hx =>
      (h.sound.step s hs).kindOf x (mem_toWrite.mp hx).1
    refine List.pairwise_flatMap.mpr ⟨fun s hs => ?_, h.sound.order.imp_of_mem ?_⟩
    · refine List.pairwise_of_forall_mem_list fun x hx y hy ⟨page, hpage⟩ heq => ?_
      cases hpage.symm.trans ((hkind s hs x hx).trans ((hkind s hs y hy).symm.trans heq))
    · intro s t hs ht hst x hx y hy ⟨page, hpage⟩ heq
      exact hst ⟨page, Option.some.inj ((hkind s hs x hx).symm.trans hpage)⟩
        (Option.some.inj ((hkind t ht y hy).symm.trans heq))
  have hmem : v ∈ pre ++ post := h.split ▸ mem_toWrites.mpr ⟨hv, hnot⟩
  rw [h.split, List.pairwise_append] at hpairwise
  rcases List.mem_append.mp hmem with hmem | hmem
  · exact hmem
  · exact absurd (kindOf_area harea) (hpairwise.2.2 w hw v hmem ⟨page, hlock⟩)

/-- Nothing lands before `FLASH_DEVINFO`. -/
lemma pre_nil {devinfo : UInt16} {steps : List Step}
    (h : Partway before after (planOf before (beforeOf before (some devinfo)) steps writes) pre post)
    (hpost : fresh before OTP_FLASH_DEVINFO_ROW (.ecc devinfo) ∈ post) : pre = [] := by
  obtain ⟨rest, hrest⟩ : ∃ rest, Plan.toWrites (planOf before (beforeOf before (some devinfo)) steps
      writes) = fresh before OTP_FLASH_DEVINFO_ROW (.ecc devinfo) :: rest := by
    have hnot := (h.mem_post hpost).2
    simp only [Plan.toWrites, planOf, beforeOf, freshSizeSteps, Option.toList_some,
      List.cons_append, List.nil_append, List.flatMap_cons, Step.toWrite, List.filter_cons, hnot,
      Bool.not_false, if_true, List.filter_nil]
    exact ⟨_, rfl⟩
  rw [h.split] at hrest
  cases hpre : pre with
  | nil => rfl
  | cons w pre' =>
    have hnodup := h.rows_nodup
    rw [hpre, List.cons_append, List.cons.injEq] at hrest
    rw [hpre, hrest.1, List.map_append, List.nodup_append] at hnodup
    exact absurd rfl (hnodup.2.2 _ (List.mem_map_of_mem (List.mem_cons_self ..)) _
      (List.mem_map_of_mem hpost))

end Partway

end Order

/-! ### The checks over half-written rows -/

section Checks

variable {values : CommissioningValues} {replaced : Bool} {devinfo : Option UInt16}
  {writes : List RowWrite}

lemma mem_writes_planOf {steps steps' : List Step} : w ∈ (planOf rows steps steps' writes).writes ↔
    (∃ s ∈ steps, w ∈ s.writes) ∨ w ∈ freshInstance rows writes ∨
      (∃ page ∈ pagesOf (freshInstance rows writes),
        w = fresh rows (lock1Row page) (.raw LOCK1_READ_ONLY)) ∨ ∃ s ∈ steps', w ∈ s.writes := by
  simp only [mem_writes, planOf, List.mem_append, List.mem_singleton, List.mem_map]
  constructor
  · rintro ⟨s, ((hs | rfl) | ⟨page, hpage, rfl⟩) | hs, hw⟩
    · exact .inl ⟨s, hs, hw⟩
    · exact .inr (.inl hw)
    · exact .inr (.inr (.inl ⟨page, hpage, List.mem_singleton.mp hw⟩))
    · exact .inr (.inr (.inr ⟨s, hs, hw⟩))
  · rintro (⟨s, hs, hw⟩ | hw | ⟨page, hpage, rfl⟩ | ⟨s, hs, hw⟩)
    · exact ⟨s, .inl (.inl (.inl hs)), hw⟩
    · exact ⟨_, .inl (.inl (.inr rfl)), hw⟩
    · exact ⟨_, .inl (.inr ⟨page, hpage, rfl⟩), List.mem_singleton_self _⟩
    · exact ⟨s, .inr hs, hw⟩

omit [PicoOtp] in
/-- The value of `FLASH_DEVINFO` that the tools write is that of an L board. -/
lemma boardSize_devinfo {pin : UInt8} {devinfo : UInt16} (h : flashDevinfo .l pin = some devinfo)
    (flags : Vector UInt32 3) : boardSize flags devinfo = .m ∨ boardSize flags devinfo = .l := by
  have hall : ∀ pin : Fin 256, (flashDevinfo .l (UInt8.ofNat pin)).map (fun devinfo =>
      (devinfoFlashSize devinfo OTP_FLASH_DEVINFO_CS0_SIZE_SHIFT,
        devinfoFlashSize devinfo OTP_FLASH_DEVINFO_CS1_SIZE_SHIFT)) =
      some (.size2mb, .size2mb) := by decide +kernel
  have hpin := hall ⟨pin.toNat, pin.toNat_lt⟩
  rw [UInt8.ofNat_toNat, h] at hpin
  obtain ⟨h0, h1⟩ := Prod.mk.inj (Option.some.inj hpin)
  have hsize : (FlashLayout.mk .size2mb .size2mb).boardSize = some .l := by decide
  unfold boardSize
  simp only [h0, h1, hsize]
  split_ifs
  · exact .inl rfl
  · exact .inr rfl

omit [PicoOtp] in
lemma checkSecondChip_congr {board : Board} {boot boot' : BootRows}
    (hflags : boot.bootFlags0 = boot'.bootFlags0) (hdevinfo : boot.flashDevinfo = boot'.flashDevinfo) :
    checkSecondChip board boot = checkSecondChip board boot' := by
  unfold checkSecondChip
  rw [hflags, hdevinfo]

namespace Partway

variable (h : Partway before after
  (planOf before (beforeOf before devinfo) (afterOf request before devinfo) writes) pre post)

include h

/-- A row that has no place in a commissioning is as it was. -/
lemma landed_none {row : ℕ} (hrow : kindOf row = none) : landed before after pre row = before row :=
  h.landed_frame fun s _ heq => by cases hrow.symm.trans heq

lemma takesLabel (htakes : LabelTakes request.board before) :
    LabelTakes request.board (landed before after pre) := by
  have hmem : ∀ {s w}, s ∈ freshLabelSteps request.board before → w ∈ s.writes →
      w ∈ (planOf before (beforeOf before devinfo) (afterOf request before devinfo)
        writes).writes := fun hs hw =>
    mem_writes_planOf.mpr (.inr (.inr (.inr ⟨_, List.mem_append_left _ hs, hw⟩)))
  refine ⟨fun p hp => ?_, fun p hp => ?_, ?_, fun row hrow => ?_⟩
  · have hp' := List.mem_map_of_mem (f := fun p => fresh before (OTP_USB_WHITE_LABEL_ROW + p.2)
      (.ecc p.1)) hp
    exact h.takes (hmem (s := ⟨.whiteLabelStrings, freshLabel before _⟩) (.head _) hp')
      (htakes.strings p hp)
  · have hp' := List.mem_map_of_mem (f := fun p => fresh before (OTP_USB_WHITE_LABEL_ROW + p.2)
      (.ecc p.1)) hp
    exact h.takes (hmem (s := ⟨.whiteLabelTable, freshLabel before _⟩) (.tail _ (.head _)) hp')
      (htakes.table p hp)
  · exact h.takes (hmem (.tail _ (.tail _ (.head _))) (List.mem_singleton_self _)) htakes.addr
  · have hrow' := List.mem_map_of_mem (f := fun row => fresh before row
      (.raw (whiteLabel request.board).usbBootFlags)) hrow
    exact h.takes (hmem (s := ⟨.usbBootFlags, freshUsbFlags before _⟩)
      (.tail _ (.tail _ (.tail _ (.head _)))) hrow') (htakes.flags row hrow)

/-- Without a size to set, its rows are as they were. -/
lemma landed_size (hnone : devinfo = none) {row : ℕ}
    (hrow : kindOf row = some .flashDevinfo ∨ kindOf row = some .bootFlags0) :
    landed before after pre row = before row := by
  subst hnone
  refine h.landed_frame fun s hs heq => ?_
  simp only [planOf, beforeOf, afterOf, freshSizeSteps, freshLabelSteps, Option.toList_none,
    List.nil_append, List.append_nil, List.mem_append, List.mem_map, List.mem_cons,
    List.not_mem_nil, or_false] at hs
  rcases hs with (rfl | ⟨page, -, rfl⟩) | rfl | rfl | rfl | rfl <;>
    rcases hrow with hrow | hrow <;> cases hrow.symm.trans heq

lemma sizeChoice (hchoice : SizeChoice request.board before request.size devinfo) :
    SizeChoice request.board (landed before after pre) request.size devinfo := by
  cases hdevinfo : devinfo with
  | none =>
    rw [hdevinfo] at hchoice
    cases hsize : request.size with
    | m => trivial
    | l =>
      rw [hsize] at hchoice
      exact hchoice.elim
  | some value =>
    subst hdevinfo
    cases hsize : request.size with
    | m =>
      rw [hsize] at hchoice
      exact hchoice.elim
    | l =>
      rw [hsize] at hchoice
      have hslot : kindOf OTP_FLASH_PARTITION_SLOT_SIZE_ROW = none := by decide +kernel
      refine ⟨hchoice.pin, ?_, ?_⟩
      · rw [h.landed_none hslot]
        exact hchoice.slotSize
      · exact h.takes (mem_writes_planOf.mpr (.inl ⟨_, List.mem_singleton_self _,
          List.mem_singleton_self _⟩)) hchoice.devinfo

/-- **The size** the rows configure still allows the request's. -/
lemma configured (hecc : ∀ raw value, OtpAccess.holds raw value = true → host.eccRead raw = value)
    (hchoice : SizeChoice request.board before request.size devinfo)
    (hsize : checkConfigured (boardSize (BOOT_FLAGS0_ROWS.map before)
      (eccRows host before OTP_FLASH_DEVINFO_ROW)) request.size = .ok ()) :
    checkConfigured (boardSize (BOOT_FLAGS0_ROWS.map (landed before after pre))
      (eccRows host (landed before after pre) OTP_FLASH_DEVINFO_ROW)) request.size = .ok () := by
  have hdevinfoKind : kindOf OTP_FLASH_DEVINFO_ROW = some .flashDevinfo := by decide +kernel
  cases hdevinfo : devinfo with
  | none =>
    have hflags : BOOT_FLAGS0_ROWS.map (landed before after pre) = BOOT_FLAGS0_ROWS.map before :=
      Vector.map_congr_left fun row hrow =>
        h.landed_size hdevinfo (.inr (kindOf_bootFlags0 hrow))
    rw [hflags, eccRows, h.landed_size hdevinfo (.inl hdevinfoKind)]
    exact hsize
  | some value =>
    subst hdevinfo
    cases hreq : request.size with
    | m =>
      rw [hreq] at hchoice
      exact hchoice.elim
    | l =>
      rw [hreq] at hchoice hsize
      obtain ⟨pin, -, hpin⟩ := hchoice.pin
      have hmem : fresh before OTP_FLASH_DEVINFO_ROW (.ecc value) ∈ (planOf before
          (beforeOf before (some value)) (afterOf request before (some value)) writes).writes :=
        mem_writes_planOf.mpr (.inl ⟨_, List.mem_singleton_self _, List.mem_singleton_self _⟩)
      -- `FLASH_DEVINFO` is the first row to land, so it holds its value or nothing landed
      have hcases : holds (landed before after pre OTP_FLASH_DEVINFO_ROW) value = true ∨ pre = [] := by
        rcases h.landed_cases hmem with ⟨-, hheld⟩ | ⟨hpre, hrow⟩
        · exact .inl hheld
        · cases hholds : (fresh before OTP_FLASH_DEVINFO_ROW (.ecc value)).holds with
          | true => exact .inl (by rw [show landed before after pre OTP_FLASH_DEVINFO_ROW =
              before OTP_FLASH_DEVINFO_ROW from hrow]; exact hholds)
          | false =>
            have hto := mem_toWrites.mpr ⟨hmem, hholds⟩
            rw [h.split] at hto
            exact .inr (h.pre_nil ((List.mem_append.mp hto).resolve_left hpre))
      rcases hcases with hheld | rfl
      · rw [eccRows, hecc _ _ hheld]
        rcases boardSize_devinfo hpin (BOOT_FLAGS0_ROWS.map (landed before after pre)) with
          hm | hl
        · rw [hm]
          rfl
        · rw [hl]
          rfl
      · rw [landed_nil]
        exact hsize

lemma secondChip (hchoice : SizeChoice request.board before request.size devinfo)
    (hsecond : request.size = .m ∧ request.force = false →
      checkSecondChip request.board (bootOf before) = .ok ()) :
    request.size = .m ∧ request.force = false →
      checkSecondChip request.board (bootOf (landed before after pre)) = .ok () := by
  intro hm
  have hnone : devinfo = none := by
    cases devinfo with
    | none => rfl
    | some value =>
      rw [hm.1] at hchoice
      exact hchoice.elim
  have hflags : BOOT_FLAGS0_ROWS.map (landed before after pre) = BOOT_FLAGS0_ROWS.map before :=
    Vector.map_congr_left fun row hrow => h.landed_size hnone (.inr (kindOf_bootFlags0 hrow))
  have hdevinfo := h.landed_size hnone (show kindOf OTP_FLASH_DEVINFO_ROW = _ ∨ _ from .inl (by decide +kernel))
  exact (checkSecondChip_congr hflags hdevinfo).trans (hsecond hm)

/-- The flags of a size are the first plan's. -/
lemma bootFlags {value : UInt16} (hdevinfo : devinfo = some value) {row : ℕ}
    (hrow : row ∈ BOOT_FLAGS0_ROWS.toList) :
    landed before after pre row ||| OTP_BOOT_FLAGS0_FLASH_DEVINFO_ENABLE =
      before row ||| OTP_BOOT_FLAGS0_FLASH_DEVINFO_ENABLE := by
  have hmem : fresh before row (.raw (before row ||| OTP_BOOT_FLAGS0_FLASH_DEVINFO_ENABLE)) ∈
      (planOf before (beforeOf before devinfo) (afterOf request before devinfo) writes).writes := by
    refine mem_writes_planOf.mpr (.inr (.inr (.inr ⟨⟨.bootFlags0, freshBootFlags before⟩, ?_,
      List.mem_map_of_mem hrow⟩)))
    simp [afterOf, freshSizeSteps, hdevinfo]
  rcases h.landed_cases hmem with ⟨-, hheld⟩ | ⟨-, hrow⟩
  · have heq : landed before after pre row = before row ||| OTP_BOOT_FLAGS0_FLASH_DEVINFO_ENABLE := by
      simpa [Held, holdsValue, fresh] using hheld
    rw [heq, UInt32.or_assoc, UInt32.or_self]
  · rw [show landed before after pre row = before row from hrow]

lemma refresh_before : beforeOf (landed before after pre) devinfo =
    (beforeOf before devinfo).map (refreshStep (landed before after pre)) := by
  cases devinfo <;> rfl

lemma refresh_after : afterOf request (landed before after pre) devinfo =
    (afterOf request before devinfo).map (refreshStep (landed before after pre)) := by
  have hlabel : freshLabelSteps request.board (landed before after pre) =
      (freshLabelSteps request.board before).map (refreshStep (landed before after pre)) := by
    simp [freshLabelSteps, refreshStep, freshLabel, freshUsbFlags]
  have hsize : (freshSizeSteps (landed before after pre) devinfo).bootFlags0.toList =
      (freshSizeSteps before devinfo).bootFlags0.toList.map
        (refreshStep (landed before after pre)) := by
    cases hdevinfo : devinfo with
    | none => rfl
    | some value =>
      simp only [freshSizeSteps, Option.toList_some, List.map_cons, List.map_nil, refreshStep,
        freshBootFlags, List.map_map, List.cons.injEq, Step.mk.injEq, true_and, and_true]
      refine List.map_congr_left fun row hrow => ?_
      rw [h.bootFlags hdevinfo hrow]
      rfl
  rw [afterOf, hlabel, hsize, ← List.map_append, afterOf]

/-- **The plan** over half-written rows is the first one with its rows read again. -/
theorem refresh_planOf : planOf (landed before after pre) (beforeOf (landed before after pre) devinfo)
    (afterOf request (landed before after pre) devinfo) writes =
      refreshPlan (landed before after pre) (planOf before (beforeOf before devinfo)
        (afterOf request before devinfo) writes) := by
  have hpages : pagesOf (freshInstance (landed before after pre) writes) =
      pagesOf (freshInstance before writes) := by
    simp [pagesOf, freshInstance, Function.comp_def, fresh]
  rw [planOf, hpages, h.refresh_before, h.refresh_after]
  simp [planOf, refreshPlan, refreshStep, freshInstance, freshLock]

/-- No row left to write is on a page whose lock was refused. -/
lemma checkLocks (hlocks : Commission.checkLocks (beforeOf before devinfo ++
      afterOf request before devinfo) (readingsOf host before).otherLocks = .ok ()) :
    Commission.checkLocks (beforeOf (landed before after pre) devinfo ++
      afterOf request (landed before after pre) devinfo)
        (readingsOf host (landed before after pre)).otherLocks = .ok () := by
  have hother : (readingsOf host (landed before after pre)).otherLocks =
      (readingsOf host before).otherLocks := by
    have h1 := h.landed_none (show kindOf (lock1Row 1) = none by decide +kernel)
    have h59 := h.landed_none (show kindOf (lock1Row 59) = none by decide +kernel)
    have h60 := h.landed_none (show kindOf (lock1Row 60) = none by decide +kernel)
    have hpages : ∀ rows, (readingsOf host rows).otherLocks = [⟨1, rows (lock1Row 1)⟩,
        ⟨59, rows (lock1Row 59)⟩, ⟨60, rows (lock1Row 60)⟩] := fun _ => rfl
    rw [hpages, hpages, h1, h59, h60]
  rw [hother, h.refresh_before, h.refresh_after, ← List.map_append]
  unfold Commission.checkLocks at hlocks ⊢
  rw [forM_eq_ok] at hlocks ⊢
  intro w hw
  obtain ⟨hw, hnot⟩ := List.mem_filter.mp hw
  obtain ⟨s', hs', hws'⟩ := List.mem_flatMap.mp hw
  obtain ⟨s, hs, rfl⟩ := List.mem_map.mp hs'
  obtain ⟨v, hv, rfl⟩ := List.mem_map.mp hws'
  have hmem : v ∈ (planOf before (beforeOf before devinfo) (afterOf request before devinfo)
      writes).writes := by
    rcases List.mem_append.mp hs with hs | hs
    · exact mem_writes_planOf.mpr (.inl ⟨s, hs, hv⟩)
    · exact mem_writes_planOf.mpr (.inr (.inr (.inr ⟨s, hs, hv⟩)))
  have hunheld : v.holds = false := by
    cases hholds : v.holds with
    | false => rfl
    | true =>
      have := (h.holds_refresh hmem).mpr (.inl hholds)
      rw [this] at hnot
      cases hnot
  exact hlocks v (List.mem_filter.mpr ⟨List.mem_flatMap.mpr ⟨s, hs, hv⟩, by rw [hunheld]; rfl⟩)

/-- **The checks** that the first run passed pass over half-written rows, where the area does. -/
theorem passes (hecc : ∀ raw value, OtpAccess.holds raw value = true → host.eccRead raw = value)
    (hpasses : Passes host request before values replaced devinfo) {replaced' : Bool}
    (hchecked : checkArea (areaNow host (landed before after pre)) = .ok ())
    (hdate : dateOf host request (landed before after pre) = dateOf host request before)
    (hreplaces : replaces request (dateOf host request (landed before after pre))
      (areaNow host (landed before after pre)).current = .ok replaced') :
    Passes host request (landed before after pre) values replaced' devinfo where
  area := hchecked
  accepted := by rw [hdate]; exact hpasses.accepted
  first := hpasses.first
  replacing := hreplaces
  configured := h.configured hecc hpasses.choice hpasses.configured
  choice := h.sizeChoice hpasses.choice
  second := h.secondChip hpasses.choice hpasses.second
  label := h.takesLabel hpasses.label
  locks := h.checkLocks hpasses.locks

/-! ### The instance over half-written rows -/

lemma instanceTakes (htakes : InstanceTakes before writes) :
    InstanceTakes (landed before after pre) writes := fun w hw =>
  h.takes (mem_writes_planOf.mpr (.inr (.inl (List.mem_map_of_mem hw)))) (htakes w hw)

lemma lockTakes (harea : ∀ w ∈ writes, InArea w.cell)
    (hlocks : ∀ page ∈ pagesOf (freshInstance before writes),
      LockTakes before (freshInstance before writes) page) :
    ∀ page ∈ pagesOf (freshInstance (landed before after pre) writes),
      LockTakes (landed before after pre) (freshInstance (landed before after pre) writes) page := by
  have hpages : pagesOf (freshInstance (landed before after pre) writes) =
      pagesOf (freshInstance before writes) := by
    simp [pagesOf, freshInstance, Function.comp_def, fresh]
  rw [hpages]
  intro page hpage
  obtain ⟨htakes, hunlocked⟩ := hlocks page hpage
  have hmem : fresh before (lock1Row page) (.raw LOCK1_READ_ONLY) ∈ (planOf before
      (beforeOf before devinfo) (afterOf request before devinfo) writes).writes :=
    mem_writes_planOf.mpr (.inr (.inr (.inl ⟨page, hpage, rfl⟩)))
  refine ⟨h.takes hmem htakes, fun heq v hv hvpage => ?_⟩
  obtain ⟨w, hw, rfl⟩ := List.mem_map.mp hv
  have hwmem : fresh before w.cell (.ecc w.value) ∈ freshInstance before writes :=
    List.mem_map_of_mem hw
  have hwplan : fresh before w.cell (.ecc w.value) ∈ (planOf before (beforeOf before devinfo)
      (afterOf request before devinfo) writes).writes := mem_writes_planOf.mpr (.inr (.inl hwmem))
  refine (h.holds_refresh hwplan).mpr ?_
  by_cases hholds : (fresh before w.cell (.ecc w.value)).holds = true
  · exact .inl hholds
  · refine .inr ?_
    have hinst : ∀ w ∈ freshInstance before writes, InArea w.row := by
      simpa [freshInstance, fresh] using harea
    obtain ⟨hfirst, hlast⟩ := mem_pagesOf hinst hpage
    rcases h.landed_cases hmem with ⟨hlock, -⟩ | ⟨-, hrow⟩
    · exact h.instance_of_lock hlock (kindOf_lock hfirst hlast) hwplan (by simpa using hholds)
        (harea w hw)
    · exact absurd (hunlocked (hrow.symm.trans heq) _ hwmem hvpage) hholds

end Partway

end Checks

end OneRom.CommissionReplan
