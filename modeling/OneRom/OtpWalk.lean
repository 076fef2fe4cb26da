import OneRom.OtpHistory

/-!
The boundaries a walk visits.

`Leads area n b instances issues` says that the walk from boundary `b` comes to boundary `n` and
meets these instances and issues on its way. What it meets depends only on the rows before `n`, and
what it meets from `n` on only on the rows from there (`Leads.agree`, `walk_from`), so an instance
written at `n` changes neither.
-/

namespace OneRom.OtpWalk

open OneRom.OtpEntry OneRom.OtpStore OneRom.OtpWriter OneRom.OtpArea OneRom.OtpAttempt
open OneRom.OtpHistory OneRom.WriteOnce

/-! ### Page boundaries -/

/-- A search through a rising list finds the least element. -/
lemma find?_rising {p : ℕ → Bool} {l : List ℕ} (h : l.Pairwise (· < ·)) {n : ℕ} :
    l.find? p = some n ↔ n ∈ l ∧ p n = true ∧ ∀ m ∈ l, m < n → p m = false := by
  induction l with
  | nil => simp
  | cons x l ih =>
    obtain ⟨hx, hl⟩ := List.pairwise_cons.mp h
    rw [List.find?_cons]
    cases hp : p x with
    | true =>
      simp only [Option.some.injEq, List.mem_cons]
      constructor
      · rintro rfl
        exact ⟨.inl rfl, hp, fun m hm hlt => by
          rcases hm with rfl | hm
          · exact absurd hlt (lt_irrefl _)
          · exact absurd (hx m hm) (by omega)⟩
      · rintro ⟨rfl | hn, -, hfirst⟩
        · rfl
        · exact absurd ((hfirst x (.inl rfl) (hx n hn)).symm.trans hp) (by decide)
    | false =>
      simp only [ih hl, List.mem_cons, forall_eq_or_imp]
      constructor
      · rintro ⟨hn, hpn, hfirst⟩
        exact ⟨.inr hn, hpn, fun _ => hp, hfirst⟩
      · rintro ⟨rfl | hn, hpn, -, hfirst⟩
        · rw [hp] at hpn
          cases hpn
        · exact ⟨hn, hpn, hfirst⟩

/-- A page boundary of the area after `row`. -/
def Boundary (area : Area) (row b : ℕ) : Prop := b % OTP_PAGE_ROWS = 0 ∧ row < b ∧ b < area.endRow

variable {area : Area} {row next n b : ℕ}

lemma mem_boundaries : b ∈ List.range' (pageAfter row)
      ((area.endRow - pageAfter row + (OTP_PAGE_ROWS - 1)) / OTP_PAGE_ROWS) OTP_PAGE_ROWS ↔
    Boundary area row b := by
  simp only [List.mem_range', Boundary, pageAfter, OTP_PAGE_ROWS]
  constructor
  · rintro ⟨i, hi, rfl⟩
    omega
  · rintro ⟨hpage, hrow, hend⟩
    exact ⟨b / 64 - (row / 64 + 1), by omega, by omega⟩

lemma instanceAfter_eq_some : area.instanceAfter row = some next ↔
    Boundary area row next ∧ area.row next = OTP_STORE_MAGIC ∧
      ∀ b, Boundary area row b → b < next → area.row b ≠ OTP_STORE_MAGIC := by
  unfold Area.instanceAfter
  rw [find?_rising (List.pairwise_lt_range' OTP_PAGE_ROWS (by decide))]
  simp only [mem_boundaries, beq_iff_eq, beq_eq_false_iff_ne]

lemma instanceAfter_eq_none : area.instanceAfter row = none ↔
    ∀ b, Boundary area row b → area.row b ≠ OTP_STORE_MAGIC := by
  unfold Area.instanceAfter
  simp only [List.find?_eq_none, mem_boundaries, beq_iff_eq]

/-! ### Steps of a walk -/

lemma walk_lost {inst : CommissioningInstance} {lost : ℕ} (hlt : b < area.endRow)
    (hmagic : area.row b = OTP_STORE_MAGIC) (hinst : parseInstance area b = .lost inst lost)
    (hnext : area.instanceAfter lost = some next) :
    walk area b = (inst :: (walk area next).1, .lostPlace lost :: (walk area next).2.1,
      (walk area next).2.2) := by
  rw [walk, if_pos hlt, if_neg (by rw [hmagic]; decide), if_pos hmagic]
  split
  · next heq => rw [hinst] at heq; cases heq
  · next heq => rw [hinst] at heq; cases heq
  · next heq =>
    rw [hinst] at heq
    cases heq
    split
    · next heq =>
      rw [hnext] at heq
      cases heq
      rfl
    · next heq => rw [hnext] at heq; cases heq

lemma walk_skipped (hlt : b < area.endRow) (hne : area.row b ≠ 0)
    (hmagic : area.row b ≠ OTP_STORE_MAGIC) (hnext : area.instanceAfter b = some next) :
    walk area b = ((walk area next).1, .lostPlace b :: (walk area next).2.1,
      (walk area next).2.2) := by
  rw [walk, if_pos hlt, if_neg hne, if_neg hmagic]
  split
  · next heq =>
    rw [hnext] at heq
    cases heq
    rfl
  · next heq => rw [hnext] at heq; cases heq

lemma walk_skippedLast (hlt : b < area.endRow) (hne : area.row b ≠ 0)
    (hmagic : area.row b ≠ OTP_STORE_MAGIC) (hnext : area.instanceAfter b = none) :
    walk area b = ([], [.lostPlace b], .abandoned) := by
  rw [walk, if_pos hlt, if_neg hne, if_neg hmagic]
  split
  · next heq => rw [hnext] at heq; cases heq
  · rfl

/-- An instance lies where the parser met it. -/
lemma parseInstance_firstRow {inst : CommissioningInstance} {r : ℕ} :
    (parseInstance area b = .ended inst r → inst.firstRow = b) ∧
      (parseInstance area b = .lost inst r → inst.firstRow = b) := by
  unfold parseInstance
  simp only
  split_ifs
  · exact ⟨(by cases ·), by rintro ⟨⟩; rfl⟩
  · exact ⟨by rintro ⟨⟩; rfl, (by cases ·)⟩
  · rcases parseEntries area (b + 2) true with ⟨entries, _ | _ | _⟩ <;>
      simp only [Instance.ofEntries] <;> exact ⟨by rintro ⟨⟩; try rfl, by rintro ⟨⟩; try rfl⟩
  · exact ⟨(by cases ·), (by cases ·)⟩

/-! ### Leading to a boundary -/

/-- The walk from a boundary comes to boundary `n`, and meets these instances and issues first. -/
inductive Leads (area : Area) (n : ℕ) : ℕ → List CommissioningInstance → List AreaIssue → Prop
  | here : Leads area n n [] []
  | ended {b lastRow : ℕ} {inst : CommissioningInstance} {instances : List CommissioningInstance}
      {issues : List AreaIssue} (hlt : b < area.endRow) (hmagic : area.row b = OTP_STORE_MAGIC)
      (hinst : parseInstance area b = .ended inst lastRow)
      (hleads : Leads area n (pageAfter lastRow) instances issues) :
      Leads area n b (inst :: instances) issues
  | lost {b lost next : ℕ} {inst : CommissioningInstance} {instances : List CommissioningInstance}
      {issues : List AreaIssue} (hlt : b < area.endRow) (hmagic : area.row b = OTP_STORE_MAGIC)
      (hinst : parseInstance area b = .lost inst lost) (hnext : area.instanceAfter lost = some next)
      (hleads : Leads area n next instances issues) :
      Leads area n b (inst :: instances) (.lostPlace lost :: issues)
  | skipped {b next : ℕ} {instances : List CommissioningInstance} {issues : List AreaIssue}
      (hlt : b < area.endRow) (hne : area.row b ≠ 0) (hmagic : area.row b ≠ OTP_STORE_MAGIC)
      (hnext : area.instanceAfter b = some next) (hleads : Leads area n next instances issues) :
      Leads area n b instances (.lostPlace b :: issues)

namespace Leads

variable {instances : List CommissioningInstance} {issues : List AreaIssue}

lemma le (h : Leads area n b instances issues) : b ≤ n := by
  induction h with
  | here => exact le_rfl
  | @ended b lastRow _ _ _ _ _ hinst _ ih =>
    have hfrom := parseInstance_from area b
    rw [hinst] at hfrom
    have hfrom : b < lastRow := hfrom
    have := lt_pageAfter lastRow
    omega
  | @lost b lost _ _ _ _ _ _ hinst hnext _ ih =>
    have hfrom := parseInstance_from area b
    rw [hinst] at hfrom
    have hfrom : b ≤ lost := hfrom
    have := area.lt_instanceAfter hnext
    omega
  | skipped _ _ _ hnext _ ih =>
    have := area.lt_instanceAfter hnext
    omega

/-- What is met on the way comes before what is met from the boundary on. -/
theorem walk_eq (h : Leads area n b instances issues) :
    walk area b = (instances ++ (walk area n).1, issues ++ (walk area n).2.1,
      (walk area n).2.2) := by
  induction h with
  | here => rfl
  | ended hlt hmagic hinst _ ih => rw [walk_instance hlt hmagic hinst, ih]; rfl
  | lost hlt hmagic hinst hnext _ ih => rw [walk_lost hlt hmagic hinst hnext, ih]; rfl
  | skipped hlt hne hmagic hnext _ ih => rw [walk_skipped hlt hne hmagic hnext, ih]; rfl

lemma trans {m : ℕ} {instances' : List CommissioningInstance} {issues' : List AreaIssue}
    (h : Leads area n b instances issues) (h' : Leads area m n instances' issues') :
    Leads area m b (instances ++ instances') (issues ++ issues') := by
  induction h with
  | here => exact h'
  | ended hlt hmagic hinst _ ih => exact .ended hlt hmagic hinst ih
  | lost hlt hmagic hinst hnext _ ih => exact .lost hlt hmagic hinst hnext ih
  | skipped hlt hne hmagic hnext _ ih => exact .skipped hlt hne hmagic hnext ih

/-- The instances met lie before the boundary. -/
lemma firstRow_lt (h : Leads area n b instances issues) :
    ∀ inst ∈ instances, inst.firstRow < n := by
  induction h with
  | here => simp
  | @ended b lastRow inst _ _ _ _ hinst hleads ih =>
    have hfrom := parseInstance_from area b
    rw [hinst] at hfrom
    have hfrom : b < lastRow := hfrom
    have := lt_pageAfter lastRow
    have hle := hleads.le
    simp only [List.mem_cons, forall_eq_or_imp, parseInstance_firstRow.1 hinst]
    exact ⟨by omega, ih⟩
  | @lost b lost _ inst _ _ _ _ hinst hnext hleads ih =>
    have hfrom := parseInstance_from area b
    rw [hinst] at hfrom
    have hfrom : b ≤ lost := hfrom
    have := area.lt_instanceAfter hnext
    have hle := hleads.le
    simp only [List.mem_cons, forall_eq_or_imp, parseInstance_firstRow.2 hinst]
    exact ⟨by omega, ih⟩
  | skipped _ _ _ _ _ ih => exact ih

end Leads

section Walks

variable {instances : List CommissioningInstance} {issues : List AreaIssue}

/-- A walk comes to the boundary it ends at. -/
lemma leads_ended (h : walk area b = (instances, issues, .ended (some n))) :
    Leads area n b instances issues ∧ area.row n = 0 := by
  fun_induction walk area b generalizing instances issues with
  | case1 b hlt hzero => cases h; exact ⟨.here, hzero⟩
  | case2 b hlt _ hmagic inst lastRow hinst _ _ _ hwalk ih =>
    cases h
    obtain ⟨hleads, hzero⟩ := ih hwalk
    exact ⟨.ended hlt hmagic hinst hleads, hzero⟩
  | case3 => cases h
  | case4 b hlt _ hmagic inst lost hinst next hnext _ _ _ hwalk ih =>
    cases h
    obtain ⟨hleads, hzero⟩ := ih hwalk
    exact ⟨.lost hlt hmagic hinst hnext hleads, hzero⟩
  | case5 => cases h
  | case6 b hlt hne hmagic next hnext _ _ _ hwalk ih =>
    cases h
    obtain ⟨hleads, hzero⟩ := ih hwalk
    exact ⟨.skipped hlt hne hmagic hnext hleads, hzero⟩
  | case7 => cases h
  | case8 => cases h

/-- A walk comes to each instance it meets. -/
lemma leads_instance {inst : CommissioningInstance} (h : inst ∈ (walk area b).1) :
    (∃ instances issues, Leads area inst.firstRow b instances issues) ∧
      inst.firstRow < area.endRow ∧ area.row inst.firstRow = OTP_STORE_MAGIC := by
  fun_induction walk area b with
  | case1 => cases h
  | case2 b hlt _ hmagic first lastRow hinst _ _ _ hwalk ih =>
    rw [hwalk] at ih
    rcases List.mem_cons.mp h with rfl | h
    · rw [parseInstance_firstRow.1 hinst]
      exact ⟨⟨_, _, .here⟩, hlt, hmagic⟩
    · obtain ⟨⟨_, _, hleads⟩, hrow⟩ := ih h
      exact ⟨⟨_, _, .ended hlt hmagic hinst hleads⟩, hrow⟩
  | case3 => cases h
  | case4 b hlt _ hmagic first lost hinst next hnext _ _ _ hwalk ih =>
    rw [hwalk] at ih
    rcases List.mem_cons.mp h with rfl | h
    · rw [parseInstance_firstRow.2 hinst]
      exact ⟨⟨_, _, .here⟩, hlt, hmagic⟩
    · obtain ⟨⟨_, _, hleads⟩, hrow⟩ := ih h
      exact ⟨⟨_, _, .lost hlt hmagic hinst hnext hleads⟩, hrow⟩
  | case5 b hlt _ hmagic first lost hinst hnext =>
    rcases List.mem_singleton.mp h with rfl
    rw [parseInstance_firstRow.2 hinst]
    exact ⟨⟨_, _, .here⟩, hlt, hmagic⟩
  | case6 b hlt hne hmagic next hnext _ _ _ hwalk ih =>
    rw [hwalk] at ih
    obtain ⟨⟨_, _, hleads⟩, hrow⟩ := ih h
    exact ⟨⟨_, _, .skipped hlt hne hmagic hnext hleads⟩, hrow⟩
  | case7 => cases h
  | case8 => cases h

/-- The parser loses its place at row `lost`, in what it met at boundary `b`. -/
inductive Loses (area : Area) (b lost : ℕ) : List CommissioningInstance → Prop
  | instance_ {inst : CommissioningInstance} (hmagic : area.row b = OTP_STORE_MAGIC)
      (hinst : parseInstance area b = .lost inst lost) : Loses area b lost [inst]
  | row (hne : area.row b ≠ 0) (hmagic : area.row b ≠ OTP_STORE_MAGIC) (hrow : lost = b) :
      Loses area b lost []

lemma Loses.le {lost : ℕ} (h : Loses area b lost instances) : b ≤ lost := by
  cases h with
  | instance_ _ hinst =>
    have hfrom := parseInstance_from area b
    rw [hinst] at hfrom
    exact hfrom
  | row _ _ hrow => exact hrow.ge

lemma Loses.walk_eq {lost : ℕ} (h : Loses area b lost instances) (hlt : b < area.endRow)
    (hnone : area.instanceAfter lost = none) :
    walk area b = (instances, [.lostPlace lost], .abandoned) := by
  cases h with
  | instance_ hmagic hinst => exact walk_abandoned hlt hmagic hinst hnone
  | row hne hmagic hrow =>
    subst hrow
    exact walk_skippedLast hlt hne hmagic hnone

lemma Loses.leads {lost : ℕ} (h : Loses area b lost instances) (hlt : b < area.endRow)
    (hnext : area.instanceAfter lost = some next) :
    Leads area next b instances [.lostPlace lost] := by
  cases h with
  | instance_ hmagic hinst => exact .lost hlt hmagic hinst hnext .here
  | row hne hmagic hrow =>
    subst hrow
    exact .skipped hlt hne hmagic hnext .here

/-- A walk that is given up ends at an unknown version, or where the parser lost its place. -/
lemma leads_abandoned (h : walk area b = (instances, issues, .abandoned)) :
    (∃ row version, .unknownVersion row version ∈ issues) ∨
      ∃ n lost before last issues', Leads area n b before issues' ∧ n < area.endRow ∧
        Loses area n lost last ∧ area.instanceAfter lost = none ∧
          instances = before ++ last ∧ issues = issues' ++ [.lostPlace lost] := by
  fun_induction walk area b generalizing instances issues with
  | case1 => cases h
  | case2 b hlt _ hmagic inst lastRow hinst _ _ _ hwalk ih =>
    cases h
    refine (ih hwalk).imp_right ?_
    rintro ⟨n, lost, before, last, issues', hleads, hend, hloses, hnone, rfl, rfl⟩
    exact ⟨n, lost, inst :: before, last, issues', .ended hlt hmagic hinst hleads, hend, hloses,
      hnone, rfl, rfl⟩
  | case3 b _ _ _ version _ =>
    cases h
    exact .inl ⟨b, version, by simp⟩
  | case4 b hlt _ hmagic inst lost hinst next hnext _ _ _ hwalk ih =>
    cases h
    rcases ih hwalk with ⟨row, version, hmem⟩ | ⟨n, lost', before, last, issues', hleads, hrest⟩
    · exact .inl ⟨row, version, by simp [hmem]⟩
    · obtain ⟨hend, hloses, hnone, rfl, rfl⟩ := hrest
      exact .inr ⟨n, lost', inst :: before, last, .lostPlace lost :: issues',
        .lost hlt hmagic hinst hnext hleads, hend, hloses, hnone, rfl, rfl⟩
  | case5 b hlt _ hmagic inst lost hinst hnext =>
    cases h
    exact .inr ⟨b, lost, [], [inst], [], .here, hlt, .instance_ hmagic hinst, hnext, rfl, rfl⟩
  | case6 b hlt hne hmagic next hnext _ _ _ hwalk ih =>
    cases h
    rcases ih hwalk with ⟨row, version, hmem⟩ | ⟨n, lost, before, last, issues', hleads, hrest⟩
    · exact .inl ⟨row, version, by simp [hmem]⟩
    · obtain ⟨hend, hloses, hnone, rfl, rfl⟩ := hrest
      exact .inr ⟨n, lost, before, last, .lostPlace b :: issues',
        .skipped hlt hne hmagic hnext hleads, hend, hloses, hnone, rfl, rfl⟩
  | case7 b hlt hne hmagic hnext =>
    cases h
    exact .inr ⟨b, b, [], [], [], .here, hlt, .row hne hmagic rfl, hnext, rfl, rfl⟩
  | case8 => cases h

end Walks

/-- After a place lost the walk meets a later instance, or it is given up. -/
lemma lost_lt_last {instances : List CommissioningInstance} {issues : List AreaIssue}
    {walked : Option ℕ} (h : walk area b = (instances, issues, .ended walked)) {lost : ℕ}
    (hlast : issues.getLast? = some (.lostPlace lost)) :
    ∃ last, instances.getLast? = some last ∧ lost < last.firstRow := by
  -- a boundary that holds the magic value has an instance or an issue
  have hmeets : ∀ {next lost : ℕ} {later : List CommissioningInstance},
      area.instanceAfter lost = some next → walk area next = (later, [], .ended walked) →
        ∃ last, later.getLast? = some last ∧ lost < last.firstRow := by
    intro next lost later hnext hwalk
    obtain ⟨⟨-, hlt, hend⟩, hmagic, -⟩ := instanceAfter_eq_some.mp hnext
    have hne : later ≠ [] := by
      rintro rfl
      rw [walk, if_pos hend, if_neg (by rw [hmagic]; decide), if_pos hmagic] at hwalk
      split at hwalk
      · cases hwalk
      · cases hwalk
      · split at hwalk <;> cases hwalk
    refine ⟨later.getLast hne, List.getLast?_eq_some_getLast hne, ?_⟩
    have hmem : later.getLast hne ∈ (walk area next).1 := by
      rw [hwalk]
      exact List.getLast_mem hne
    obtain ⟨⟨_, _, hleads⟩, -⟩ := leads_instance hmem
    exact hlt.trans_le hleads.le
  have hcons : ∀ {inst : CommissioningInstance} {later : List CommissioningInstance},
      (∃ last, later.getLast? = some last ∧ lost < last.firstRow) →
        ∃ last, (inst :: later).getLast? = some last ∧ lost < last.firstRow := by
    rintro inst later ⟨last, hlater, hlt⟩
    exact ⟨last, by simp [List.getLast?_cons, hlater], hlt⟩
  fun_induction walk area b generalizing instances issues with
  | case1 => cases h; cases hlast
  | case2 _ _ _ _ _ _ _ _ _ _ hwalk ih =>
    cases h
    exact hcons (ih hwalk hlast)
  | case3 => cases h
  | case4 _ _ _ _ _ _ _ _ hnext _ issues' _ hwalk ih =>
    cases h
    rcases issues'.eq_nil_or_concat with rfl | ⟨pre, last, rfl⟩
    · cases hlast
      exact hcons (hmeets hnext hwalk)
    · refine hcons (ih hwalk ?_)
      rw [← hlast, List.getLast?_cons]
      simp
  | case5 => cases h
  | case6 _ _ _ _ _ hnext _ issues' _ hwalk ih =>
    cases h
    rcases issues'.eq_nil_or_concat with rfl | ⟨pre, last, rfl⟩
    · cases hlast
      exact hmeets hnext hwalk
    · refine ih hwalk ?_
      rw [← hlast, List.getLast?_cons]
      simp
  | case7 => cases h
  | case8 => cases h; cases hlast

/-! ### Rows before a boundary -/

section Before

variable {area' : Area} {d lost : ℕ}

/-- Where a list loses the parser depends only on the rows up to it and its length row. -/
lemma parseEntries_lost (h : Agree d area area') (hend : area'.endRow = area.endRow)
    (hfirst : area.first ≤ row) {signatureEnds : Bool}
    (hlost : (parseEntries area row signatureEnds).2 = .lost lost) (hd : lost + 2 ≤ d) :
    parseEntries area' row signatureEnds = parseEntries area row signatureEnds := by
  have hle := h.le
  have hfrom := fun r => parseEntries_from area r signatureEnds
  induction row using parseEntries.induct area signatureEnds with
  | case1 =>
    rw [parseEntries_end rfl] at hlost
    cases hlost
  | case2 row h1 h2 =>
    rw [parseEntries_last h2] at hlost
    cases hlost
    omega
  | case3 row h1 h2 key len h3 =>
    have hrow := hfrom row
    rw [hlost] at hrow
    have hrow : row ≤ lost := hrow
    rw [parseEntries_stop (by omega) h3] at hlost
    cases hlost
  | case4 row h1 h2 key len h3 next h4 =>
    have hrow := hfrom row
    rw [hlost] at hrow
    have hrow : row ≤ lost := hrow
    have hrow0 := h.row row hfirst (by omega)
    have hrow1 := h.row (row + 1) (by omega) (by omega)
    rw [parseEntries_overrun (by omega) h3 h4]
    refine parseEntries_overrun (by omega) ?_ ?_
    · rw [hrow0, hrow1]; exact h3
    · rw [hrow1, hend]; exact h4
  | case5 row h1 h2 key len h3 next h4 h5 =>
    rw [parseEntries_sig h3 (not_lt.mp h4) h5] at hlost
    cases hlost
  | case6 row h1 h2 key len h3 next h4 h5 entries listEnd hnext ih =>
    have htwo := two_le_entryRowCount len.toNat
    rw [parseEntries_next h3 (not_lt.mp h4) h5] at hlost ⊢
    have hrow := hfrom next
    rw [hlost] at hrow
    have hrow : next ≤ lost := hrow
    have hrow0 := h.row row hfirst (by omega)
    have hrow1 := h.row (row + 1) (by omega) (by omega)
    rw [parseEntries_next, hrow1, h.rowsIn hfirst (by omega : next ≤ d), ih (by omega) hlost]
    · rw [hrow0, hrow1]; exact h3
    · rw [hrow1, hend]; exact not_lt.mp h4
    · rw [hrow0]; exact h5

/-- An instance loses the parser at its header's end, or in its list of entries. -/
lemma parseInstance_lost {inst : CommissioningInstance} (h : parseInstance area b = .lost inst lost) :
    (b + 1 = area.endRow ∧ lost = b) ∨
      (b + 1 ≠ area.endRow ∧ area.row (b + 1) = OTP_STORE_VERSION ∧
        ∃ entries, parseEntries area (b + 2) true = (entries, .lost lost) ∧
          inst = ⟨b, entries, none⟩) := by
  unfold parseInstance at h
  simp only at h
  split_ifs at h with hend hzero hversion
  · cases h
    exact .inl ⟨hend, rfl⟩
  · rcases hparse : parseEntries area (b + 2) true with ⟨entries, l | ⟨k, l⟩ | l⟩
    all_goals rw [hparse] at h; cases h
    exact .inr ⟨hend, hversion, entries, rfl, rfl⟩

lemma agree_parseInstance_lost (h : Agree d area area') (hend : area'.endRow = area.endRow)
    (hfirst : area.first ≤ b) {inst : CommissioningInstance}
    (hinst : parseInstance area b = .lost inst lost) (hd : lost + 2 ≤ d) :
    parseInstance area' b = .lost inst lost := by
  have hle := h.le
  have hfrom := parseInstance_from area b
  rw [hinst] at hfrom
  have hfrom : b ≤ lost := hfrom
  rcases parseInstance_lost hinst with ⟨hlast, rfl⟩ | ⟨hne, hversion, entries, hparse, rfl⟩
  · omega
  · have hafter := parseEntries_from area (b + 2) true
    rw [hparse] at hafter
    have hafter : b + 2 ≤ lost := hafter
    have hrow := h.row (b + 1) (by omega) (by omega)
    rw [parseInstance_entries _ (by rw [hend]; exact hne) (hrow.trans hversion),
      parseEntries_lost h hend (by omega) (congrArg Prod.snd hparse) hd, hparse]
    rfl

/-- The next instance's boundary depends only on the rows up to it. -/
lemma agree_instanceAfter (h : Agree d area area') (hend : area'.endRow = area.endRow)
    (hfirst : area.first ≤ row) (hnext : area.instanceAfter row = some next) (hd : next < d) :
    area'.instanceAfter row = some next := by
  obtain ⟨⟨hpage, hlt, hin⟩, hmagic, hnone⟩ := instanceAfter_eq_some.mp hnext
  refine instanceAfter_eq_some.mpr ⟨⟨hpage, hlt, hend ▸ hin⟩, ?_, fun b hb hbn => ?_⟩
  · rw [h.row next (by omega) hd, hmagic]
  · obtain ⟨hbpage, hrow, hbend⟩ := hb
    rw [h.row b (by omega) (by omega)]
    exact hnone b ⟨hbpage, hrow, hend ▸ hbend⟩ hbn

/-- **Resumption**: what a walk meets before a boundary depends only on the rows before it, and on
whether an instance begins there. -/
theorem Leads.agree {mem mem' : ℕ → UInt16} {instances : List CommissioningInstance}
    {issues : List AreaIssue} (h : Leads (areaOf mem) n b instances issues) (hfirst : 0x0c0 ≤ b)
    (hn : n < 0x4c0) (heq : ∀ r, r < n → mem' r = mem r)
    (hmagic : mem n = OTP_STORE_MAGIC → mem' n = OTP_STORE_MAGIC) :
    Leads (areaOf mem') n b instances issues := by
  have hend : (areaOf mem').endRow = (areaOf mem).endRow := areaOf_endRow.trans areaOf_endRow.symm
  -- the rows that agree take in the boundary where an instance begins at it
  obtain ⟨d, hnd, hagree, hlt⟩ : ∃ d, n ≤ d ∧ Agree d (areaOf mem) (areaOf mem') ∧
      ∀ next, 0x0c0 ≤ next → next ≤ n → (areaOf mem).row next = OTP_STORE_MAGIC → next < d := by
    by_cases hrow : mem n = OTP_STORE_MAGIC
    · refine ⟨n + 1, by omega, agree_areaOf (fun r hr => ?_) (by omega), fun next _ hle _ => by omega⟩
      rcases eq_or_lt_of_le (Nat.lt_succ_iff.mp hr) with rfl | hlt
      · rw [hmagic hrow, hrow]
      · exact heq r hlt
    · refine ⟨n, le_rfl, agree_areaOf heq (by omega), fun next hge hle hm => ?_⟩
      rcases eq_or_lt_of_le hle with rfl | hlt
      · exact absurd ((row_areaOf mem hge (by omega)).symm.trans hm) hrow
      · exact hlt
  have hrow : ∀ b, 0x0c0 ≤ b → b < n → (areaOf mem').row b = (areaOf mem).row b := fun b hge hlt =>
    hagree.row b hge (by omega)
  induction h with
  | here => exact .here
  | @ended b lastRow _ _ _ hin hm hinst hleads ih =>
    have hfrom := parseInstance_from (areaOf mem) b
    rw [hinst] at hfrom
    have hfrom : b < lastRow := hfrom
    have hpage := lt_pageAfter lastRow
    have hle := hleads.le
    exact .ended (by rwa [hend]) ((hrow b hfirst (by omega)).trans hm)
      (hagree.parseInstance hfirst hinst (by omega)) (ih (by omega))
  | @lost b lost next _ _ _ hin hm hinst hnext hleads ih =>
    have hfrom := parseInstance_from (areaOf mem) b
    rw [hinst] at hfrom
    have hfrom : b ≤ lost := hfrom
    have hle := hleads.le
    have hafter := (areaOf mem).lt_instanceAfter hnext
    have hnextD := hlt next (by omega) hle (instanceAfter_eq_some.mp hnext).2.1
    exact .lost (by rwa [hend]) ((hrow b hfirst (by omega)).trans hm)
      (agree_parseInstance_lost hagree hend hfirst hinst (by omega))
      (agree_instanceAfter hagree hend (show 0x0c0 ≤ lost by omega) hnext hnextD) (ih (by omega))
  | @skipped b next _ _ hin hne hm hnext hleads ih =>
    have hle := hleads.le
    have hafter := (areaOf mem).lt_instanceAfter hnext
    have hnextD := hlt next (by omega) hle (instanceAfter_eq_some.mp hnext).2.1
    have hb := hrow b hfirst (by omega)
    exact .skipped (by rwa [hend]) (by rwa [hb]) (by rwa [hb])
      (agree_instanceAfter hagree hend hfirst hnext hnextD) (ih (by omega))

/-- A list loses the parser at the area's last row, or at an entry that runs past its end. -/
lemma lost_overruns (hle : row ≤ area.endRow) {signatureEnds : Bool}
    (hlost : (parseEntries area row signatureEnds).2 = .lost lost) :
    lost + 1 = area.endRow ∨
      area.endRow < lost + entryRowCount (area.row (lost + 1)).toNat := by
  induction row using parseEntries.induct area signatureEnds with
  | case1 =>
    rw [parseEntries_end rfl] at hlost
    cases hlost
  | case2 row h1 h2 =>
    rw [parseEntries_last h2] at hlost
    exact .inl (ListEnd.lost.inj hlost ▸ h2)
  | case3 row h1 h2 key len h3 =>
    rw [parseEntries_stop (by omega) h3] at hlost
    cases hlost
  | case4 row h1 h2 key len h3 next h4 =>
    rw [parseEntries_overrun (by omega) h3 h4] at hlost
    exact .inr (ListEnd.lost.inj hlost ▸ h4)
  | case5 row h1 h2 key len h3 next h4 h5 =>
    rw [parseEntries_sig h3 (not_lt.mp h4) h5] at hlost
    cases hlost
  | case6 row h1 h2 key len h3 next h4 h5 entries listEnd hnext ih =>
    rw [parseEntries_next h3 (not_lt.mp h4) h5] at hlost
    exact ih (not_lt.mp h4) hlost

/-- **Found again**: once an instance begins at an unwritten boundary after the row where the parser
lost its place for good, the walk comes to it. -/
lemma Loses.leads_next {mem mem' : ℕ → UInt16} {last : List CommissioningInstance}
    (h : Loses (areaOf mem) b lost last) (hfirst : 0x0c0 ≤ b) (hlt : lost < n)
    (hpage : n % OTP_PAGE_ROWS = 0) (hn : n < 0x4c0) (hzero : mem n = 0)
    (hnone : (areaOf mem).instanceAfter lost = none) (heq : ∀ r, r < n → mem' r = mem r)
    (hmagic : mem' n = OTP_STORE_MAGIC) : Leads (areaOf mem') n b last [.lostPlace lost] := by
  have hend : (areaOf mem').endRow = (areaOf mem).endRow := areaOf_endRow.trans areaOf_endRow.symm
  have hle := h.le
  have hnext : (areaOf mem').instanceAfter lost = some n := by
    refine instanceAfter_eq_some.mpr ⟨⟨hpage, hlt, by rwa [areaOf_endRow]⟩, ?_, fun c hc hcn => ?_⟩
    · rw [row_areaOf _ (by omega) hn, hmagic]
    · have hcb := hc
      obtain ⟨-, hgt, -⟩ := hc
      rw [row_areaOf _ (by omega) (by omega), heq c hcn, ← row_areaOf mem (by omega) (by omega)]
      exact instanceAfter_eq_none.mp hnone c ⟨hcb.1, hcb.2.1, hend ▸ hcb.2.2⟩
  have hagree : Agree n (areaOf mem) (areaOf mem') := agree_areaOf heq (by omega)
  have hrow : (areaOf mem').row b = (areaOf mem).row b := hagree.row b hfirst (by omega)
  refine Loses.leads ?_ (by rw [areaOf_endRow]; omega) hnext
  cases h with
  | row hne hm hb => exact .row (by rwa [hrow]) (by rwa [hrow]) hb
  | instance_ hm hinst =>
    refine .instance_ (hrow.trans hm) (agree_parseInstance_lost hagree hend hfirst hinst ?_)
    -- the length row of the entry it lost its place at comes before the boundary
    rcases parseInstance_lost hinst with ⟨hlast, -⟩ | ⟨hne, -, entries, hparse, -⟩
    · rw [areaOf_endRow] at hlast
      omega
    · rw [areaOf_endRow] at hne
      have hover := lost_overruns (by rw [areaOf_endRow]; omega) (congrArg Prod.snd hparse)
      rw [areaOf_endRow] at hover
      by_contra hnot
      have hlen : lost + 1 = n := by omega
      rw [hlen, row_areaOf _ (by omega) hn, hzero] at hover
      simp only [entryRowCount, UInt16.toNat_zero] at hover
      omega

end Before

/-! ### Rows from a boundary on -/

/-- Two areas of the same extent, with the same rows from `b` on. -/
structure SameFrom (b : ℕ) (area area' : Area) : Prop where
  first : area'.first = area.first
  endRow : area'.endRow = area.endRow
  row : ∀ r, b ≤ r → r < area.endRow → area'.row r = area.row r

namespace SameFrom

variable {area' : Area}

lemma rowsIn (h : SameFrom b area area') {lo hi : ℕ} (hb : b ≤ lo) (hfirst : area.first ≤ lo) :
    area'.rowsIn lo hi = area.rowsIn lo hi := by
  rw [rowsIn_eq area' (h.first.trans_le hfirst), rowsIn_eq area hfirst, h.endRow]
  refine List.map_congr_left fun r hr => ?_
  have := List.mem_range'_1.mp hr
  exact h.row r (by omega) (by omega)

lemma parseEntries (h : SameFrom b area area') (hb : b ≤ row) (hfirst : area.first ≤ row)
    {signatureEnds : Bool} (hle : row ≤ area.endRow) :
    OtpStore.parseEntries area' row signatureEnds =
      OtpStore.parseEntries area row signatureEnds := by
  have hend := h.endRow
  induction row using parseEntries.induct area signatureEnds with
  | case1 => rw [parseEntries_end rfl, parseEntries_end hend.symm]
  | case2 row h1 h2 => rw [parseEntries_last h2, parseEntries_last (h2.trans hend.symm)]
  | case3 row h1 h2 key len h3 =>
    have hrow0 := h.row row hb (by omega)
    have hrow1 := h.row (row + 1) (by omega) (by omega)
    rw [parseEntries_stop (by omega) h3, parseEntries_stop (by omega)]
    rw [hrow0, hrow1]
    exact h3
  | case4 row h1 h2 key len h3 next h4 =>
    have hrow0 := h.row row hb (by omega)
    have hrow1 := h.row (row + 1) (by omega) (by omega)
    rw [parseEntries_overrun (by omega) h3 h4, parseEntries_overrun (by omega)]
    · rw [hrow0, hrow1]; exact h3
    · rw [hrow1, hend]; exact h4
  | case5 row h1 h2 key len h3 next h4 h5 =>
    have hrow0 := h.row row hb (by omega)
    have hrow1 := h.row (row + 1) (by omega) (by omega)
    rw [parseEntries_sig h3 (not_lt.mp h4) h5, parseEntries_sig, hrow1, h.rowsIn hb hfirst]
    · rw [hrow0, hrow1]; exact h3
    · rw [hrow1, hend]; exact not_lt.mp h4
    · rw [hrow0]; exact h5
  | case6 row h1 h2 key len h3 next h4 h5 entries listEnd hnext ih =>
    have htwo := two_le_entryRowCount len.toNat
    have hrow0 := h.row row hb (by omega)
    have hrow1 := h.row (row + 1) (by omega) (by omega)
    rw [parseEntries_next h3 (not_lt.mp h4) h5, parseEntries_next, hrow1, h.rowsIn hb hfirst,
      ih (by omega) (by omega) (not_lt.mp h4)]
    · rw [hrow0, hrow1]; exact h3
    · rw [hrow1, hend]; exact not_lt.mp h4
    · rw [hrow0]; exact h5

lemma parseInstance (h : SameFrom b area area') {firstRow : ℕ} (hb : b ≤ firstRow)
    (hfirst : area.first ≤ firstRow) (hlt : firstRow < area.endRow) :
    OtpStore.parseInstance area' firstRow = OtpStore.parseInstance area firstRow := by
  unfold OtpStore.parseInstance
  rw [h.endRow]
  by_cases hend : firstRow + 1 = area.endRow
  · rw [if_pos hend, if_pos hend]
  · rw [if_neg hend, if_neg hend, h.row (firstRow + 1) (by omega) (by omega),
      h.parseEntries (by omega) (by omega) (by omega)]
    rcases OtpStore.parseEntries area (firstRow + 2) true with ⟨entries, _ | _ | _⟩
    · rfl
    · simp only [Instance.ofEntries, h.rowsIn hb hfirst]
    · rfl

lemma instanceAfter (h : SameFrom b area area') (hb : b ≤ row + 1) :
    area'.instanceAfter row = area.instanceAfter row := by
  have hrow : ∀ c, Boundary area row c → area'.row c = area.row c := fun c hc =>
    h.row c (by have := hc.2.1; omega) hc.2.2
  have hboundary : ∀ c, Boundary area' row c ↔ Boundary area row c := fun c => by
    rw [Boundary, Boundary, h.endRow]
  rcases hnext : area.instanceAfter row with _ | next
  · refine instanceAfter_eq_none.mpr fun c hc => ?_
    rw [hrow c ((hboundary c).mp hc)]
    exact instanceAfter_eq_none.mp hnext c ((hboundary c).mp hc)
  · obtain ⟨hin, hmagic, hnone⟩ := instanceAfter_eq_some.mp hnext
    refine instanceAfter_eq_some.mpr
      ⟨(hboundary next).mpr hin, (hrow next hin).trans hmagic, fun c hc hlt => ?_⟩
    rw [hrow c ((hboundary c).mp hc)]
    exact hnone c ((hboundary c).mp hc) hlt

/-- **The rest of a walk** depends only on the rows from its boundary on. -/
theorem walk (h : SameFrom b area area') {boundary : ℕ} (hb : b ≤ boundary)
    (hfirst : area.first ≤ boundary) : OtpStore.walk area' boundary = OtpStore.walk area boundary := by
  have hend := h.endRow
  have hfrom := parseInstance_from area
  fun_induction OtpStore.walk area boundary with
  | case1 boundary hlt hzero =>
    rw [walk_unwritten (by omega) ((h.row _ hb hlt).trans hzero)]
  | case2 boundary hlt hne hmagic inst lastRow hinst instances issues walked hwalk ih =>
    have hrow := hfrom boundary
    rw [hinst] at hrow
    have hrow : boundary < lastRow := hrow
    have hpage := lt_pageAfter lastRow
    have hinst' := (h.parseInstance hb hfirst hlt).trans hinst
    rw [walk_instance (by omega) ((h.row _ hb hlt).trans hmagic) hinst', ih (by omega) (by omega),
      hwalk]
  | case3 boundary hlt hne hmagic version hinst =>
    rw [OtpStore.walk, if_pos (by omega), h.row _ hb hlt, if_neg hne, if_pos hmagic]
    have hinst' := (h.parseInstance hb hfirst hlt).trans hinst
    split
    · next heq => cases hinst'.symm.trans heq
    · next heq => cases hinst'.symm.trans heq; rfl
    · next heq => cases hinst'.symm.trans heq
  | case4 boundary hlt hne hmagic inst lost hinst next hnext instances issues walked hwalk ih =>
    have hrow := hfrom boundary
    rw [hinst] at hrow
    have hrow : boundary ≤ lost := hrow
    have hafter := area.lt_instanceAfter hnext
    have hinst' := (h.parseInstance hb hfirst hlt).trans hinst
    rw [walk_lost (by omega) ((h.row _ hb hlt).trans hmagic) hinst'
      ((h.instanceAfter (by omega)).trans hnext), ih (by omega) (by omega), hwalk]
  | case5 boundary hlt hne hmagic inst lost hinst hnext =>
    have hrow := hfrom boundary
    rw [hinst] at hrow
    have hrow : boundary ≤ lost := hrow
    have hinst' := (h.parseInstance hb hfirst hlt).trans hinst
    rw [walk_abandoned (by omega) ((h.row _ hb hlt).trans hmagic) hinst'
      ((h.instanceAfter (by omega)).trans hnext)]
  | case6 boundary hlt hne hmagic next hnext instances issues walked hwalk ih =>
    have hafter := area.lt_instanceAfter hnext
    have hrow := h.row _ hb hlt
    rw [walk_skipped (by omega) (by rwa [hrow]) (by rwa [hrow])
      ((h.instanceAfter (by omega)).trans hnext), ih (by omega) (by omega), hwalk]
  | case7 boundary hlt hne hmagic hnext =>
    have hrow := h.row _ hb hlt
    rw [walk_skippedLast (by omega) (by rwa [hrow]) (by rwa [hrow])
      ((h.instanceAfter (by omega)).trans hnext)]
  | case8 boundary hlt => rw [walk_past (by omega)]

end SameFrom

lemma sameFrom_areaOf {mem mem' : ℕ → UInt16} (hfirst : 0x0c0 ≤ b)
    (heq : ∀ r, b ≤ r → r < 0x4c0 → mem' r = mem r) : SameFrom b (areaOf mem) (areaOf mem') where
  first := rfl
  endRow := areaOf_endRow.trans areaOf_endRow.symm
  row := fun r hb hr => by
    rw [areaOf_endRow] at hr
    rw [row_areaOf _ (by omega) hr, row_areaOf _ (by omega) hr, heq r hb hr]

/-! ### The parsed area -/

lemma parsed_congr {mem mem' : ℕ → UInt16} (h : ∀ r, 0x0c0 ≤ r → r < 0x4c0 → mem' r = mem r) :
    parsed mem' = parsed mem := by
  unfold parsed
  congr 1
  refine List.map_congr_left fun r hr => ?_
  have := List.mem_range'_1.mp hr
  simp only [OTP_COMMISSIONING_AREA_FIRST_ROW, COMMISSIONING_AREA_END,
    OTP_COMMISSIONING_AREA_LAST_ROW] at this
  exact h r (by omega) (by omega)

/-- The last position of a search: nothing after it is found. -/
lemma rposition_after {α : Type*} {p : α → Bool} {l : List α} {i : ℕ} (h : rposition p l = some i) :
    ∀ j (hj : j < l.length), i < j → p l[j] = false := by
  induction l generalizing i with
  | nil => cases h
  | cons x l ih =>
    intro j hj hij
    obtain ⟨j, rfl⟩ : ∃ k, j = k + 1 := ⟨j - 1, by omega⟩
    rw [rposition] at h
    rcases hr : rposition p l with _ | k
    · have hnone : l.reverse.find? p = none := by rw [← getElem?_rposition, hr]; rfl
      have hlt : j < l.length := by simpa using hj
      have hall := List.find?_eq_none.mp hnone l[j] (by simp)
      simpa using hall
    · rw [hr] at h
      cases h
      simpa using ih hr j (by simpa using hj) (by omega)

/-! ### An instance committed at a boundary -/

section Committed

variable {c : Commissioning} {mem : ℕ → UInt16} {instances : List CommissioningInstance}
  {issues : List AreaIssue}

/-- The first page boundary after an instance's rows. -/
def boundaryAfter (firstRow rowCount : ℕ) : ℕ := pageAfter (firstRow + rowCount - 1)

/-- The rest of the walk meets no complete instance and isn't given up. -/
structure Quiet (mem : ℕ → UInt16) (b : ℕ) : Prop where
  ended : (walk (areaOf mem) b).2.2 ≠ .abandoned
  incomplete : ∀ inst ∈ (walk (areaOf mem) b).1, inst.isComplete = false

lemma lastComplete_append (xs ys : List CommissioningInstance) :
    lastComplete (xs ++ ys) = (lastComplete ys).or (lastComplete xs) := by
  simp only [lastComplete, List.reverse_append, List.find?_append]

lemma lastComplete_eq_none {xs : List CommissioningInstance} :
    lastComplete xs = none ↔ ∀ inst ∈ xs, inst.isComplete = false := by
  simp [lastComplete]

lemma lastComplete_mem {xs : List CommissioningInstance} {inst : CommissioningInstance}
    (h : lastComplete xs = some inst) : inst ∈ xs := by
  simpa using List.mem_of_find?_eq_some h

/-- The walk over a committed instance: what comes before it, the instance and what comes after. -/
lemma walk_committed
    (hleads : Leads (areaOf (apply mem c.writes)) c.firstRow 0x0c0 instances issues) :
    let rest := walk (areaOf mem) (boundaryAfter c.firstRow c.values.rowCount)
    ∃ inst, Shows c inst ∧ walk (areaOf (apply mem c.writes)) 0x0c0 =
      (instances ++ inst :: rest.1, issues ++ rest.2.1, rest.2.2) := by
  intro rest
  have hfits := c.fits
  have hfirst := c.first_le
  have hcount := c.two_le_rowCount
  have hpage := lt_pageAfter (c.firstRow + c.values.rowCount - 1)
  obtain ⟨inst, hinst, hshows⟩ := parse_complete c mem
  have hmagic : (areaOf (apply mem c.writes)).row c.firstRow = OTP_STORE_MAGIC := by
    have := magic_row c mem (k := c.writes.length) (by rw [c.length_writes]; omega)
    rw [List.take_length] at this
    rw [row_areaOf _ hfirst (by omega), this]
  have hsame : SameFrom (boundaryAfter c.firstRow c.values.rowCount) (areaOf mem)
      (areaOf (apply mem c.writes)) := by
    refine sameFrom_areaOf (by simp only [boundaryAfter]; omega) fun r hr _ => ?_
    refine apply_of_notMem mem fun hmem => ?_
    have hcell := c.lays_writes.mem_cells.mp hmem
    rw [c.length_image] at hcell
    simp only [boundaryAfter] at hr
    omega
  have hrest : walk (areaOf (apply mem c.writes))
      (pageAfter (c.firstRow + c.values.rowCount - 1)) = rest :=
    hsame.walk le_rfl (by simp only [areaOf_first]; omega)
  refine ⟨inst, hshows, ?_⟩
  rw [hleads.walk_eq, walk_instance (by rw [areaOf_endRow]; omega) hmagic hinst, hrest]

lemma walk_from_firstRow {b : ℕ} : ∀ inst ∈ (walk area b).1, b ≤ inst.firstRow := by
  intro inst h
  obtain ⟨⟨_, _, hleads⟩, -⟩ := leads_instance h
  exact hleads.le

/-- **Committed**: an instance that the walk comes to is current where the rest of the walk is
quiet. -/
theorem current_of_quiet
    (hleads : Leads (areaOf (apply mem c.writes)) c.firstRow 0x0c0 instances issues)
    (hquiet : Quiet mem (boundaryAfter c.firstRow c.values.rowCount)) :
    ∃ inst, (parsed (apply mem c.writes)).current = some inst ∧ Shows c inst := by
  obtain ⟨inst, hshows, hwalk⟩ := walk_committed hleads
  obtain ⟨hended, hincomplete⟩ := hquiet
  rcases hrest : walk (areaOf mem) (boundaryAfter c.firstRow c.values.rowCount) with
    ⟨later, problems, next | _⟩
  all_goals simp only [hrest] at hwalk hended hincomplete
  · obtain ⟨-, -, -, hcurrent⟩ := parsed_ended hwalk
    have hlast : lastComplete (instances ++ inst :: later) = some inst := by
      rw [lastComplete_append, show inst :: later = [inst] ++ later from rfl, lastComplete_append,
        lastComplete_eq_none.mpr hincomplete]
      simp [lastComplete, hshows.isComplete]
    rw [hcurrent, hlast]
    exact ⟨inst, by simp [Option.filter, hshows.isValid], hshows⟩
  · exact absurd rfl hended

/-- Where the instance committed is current, the rest of the walk is quiet. -/
theorem quiet_of_current
    (hleads : Leads (areaOf (apply mem c.writes)) c.firstRow 0x0c0 instances issues)
    {inst : CommissioningInstance} (hcurrent : (parsed (apply mem c.writes)).current = some inst)
    (hrow : inst.firstRow = c.firstRow) :
    Quiet mem (boundaryAfter c.firstRow c.values.rowCount) := by
  have hcount := c.two_le_rowCount
  have hpage := lt_pageAfter (c.firstRow + c.values.rowCount - 1)
  obtain ⟨new, hshows, hwalk⟩ := walk_committed hleads
  have hafter := fun inst' (h : inst' ∈ (walk (areaOf mem)
    (boundaryAfter c.firstRow c.values.rowCount)).1) => walk_from_firstRow inst' h
  rcases hrest : walk (areaOf mem) (boundaryAfter c.firstRow c.values.rowCount) with
    ⟨later, problems, next | _⟩
  all_goals simp only [hrest] at hwalk hafter
  · obtain ⟨-, -, -, hfound⟩ := parsed_ended hwalk
    refine ⟨by simp [hrest], ?_⟩
    rw [hrest]
    refine lastComplete_eq_none.mp ?_
    rcases hlater : lastComplete later with _ | other
    · rfl
    · -- a later complete instance would be current, and it isn't where this one is
      exfalso
      rw [hcurrent, lastComplete_append, show new :: later = [new] ++ later from rfl,
        lastComplete_append, hlater] at hfound
      simp only [Option.or, Option.filter] at hfound
      split_ifs at hfound
      cases hfound
      have hge := hafter inst (lastComplete_mem hlater)
      simp only [boundaryAfter] at hge
      omega
  · rw [(parsed_abandoned hwalk).2] at hcurrent
    cases hcurrent

end Committed

/-! ### A place lost after the last written row -/

section LostLast

variable {mem mem' : ℕ → UInt16} {written lost : ℕ}

/-- A list that runs past the last written row without an end runs on past rows written since. -/
lemma parseEntries_lostLast (hzero : ZeroFrom mem (written + 1)) (hn : written < n)
    (hroom : n + 3 ≤ 0x4c0) (heq : ∀ r, r < n → mem' r = mem r) (hfirst : 0x0c0 ≤ row)
    (hle : row ≤ 0x4c0) {signatureEnds : Bool} (hlost : (parseEntries (areaOf mem) row signatureEnds).2 = .lost lost)
    (hge : n ≤ lost) : (parseEntries (areaOf mem') row signatureEnds).2 = .lost 0x4bf := by
  have hend : (areaOf mem).endRow = 0x4c0 := areaOf_endRow
  have hend' : (areaOf mem').endRow = 0x4c0 := areaOf_endRow
  have hunwritten : ∀ r, 0x0c0 ≤ r → written < r → r < 0x4c0 → (areaOf mem).row r = 0 :=
    fun r hge hw hr => by rw [row_areaOf _ hge hr, hzero r hw hr]
  induction row using parseEntries.induct (areaOf mem) signatureEnds with
  | case1 =>
    rw [parseEntries_end rfl] at hlost
    cases hlost
  | case2 row h1 h2 =>
    have hrow : row = 0x4bf := by omega
    rw [parseEntries_last (by omega), hrow]
  | case3 row h1 h2 key len h3 =>
    rw [parseEntries_stop (by omega) h3] at hlost
    cases hlost
  | case4 row h1 h2 key len h3 next h4 =>
    rw [parseEntries_overrun (by omega) h3 h4] at hlost
    have hrow : row = lost := ListEnd.lost.inj hlost
    have hkey : (areaOf mem).row row = 0 := hunwritten row hfirst (by omega) (by omega)
    have hlen : (areaOf mem).row (row + 1) = 0 :=
      hunwritten (row + 1) (by omega) (by omega) (by omega)
    exact absurd ⟨hkey, hlen⟩ h3
  | case5 row h1 h2 key len h3 next h4 h5 =>
    rw [parseEntries_sig h3 (not_lt.mp h4) h5] at hlost
    cases hlost
  | case6 row h1 h2 key len h3 next h4 h5 entries listEnd hnext ih =>
    have htwo := two_le_entryRowCount len.toNat
    have hnextLe : next ≤ 0x4c0 := hend ▸ not_lt.mp h4
    rw [parseEntries_next h3 (not_lt.mp h4) h5] at hlost
    have hrow : row < written := by
      by_contra hnot
      rcases eq_or_lt_of_le (not_lt.mp hnot) with rfl | hlt
      · -- the list would end at the unwritten rows after it
        have hlen : len = 0 := hunwritten _ (by omega) (by omega) (by omega)
        have hstop : parseEntries (areaOf mem) next signatureEnds = ([], .terminated (next + 1)) := by
          have hnextEq : next = written + 2 := by simp [next, hlen, entryRowCount]
          exact parseEntries_stop (by omega)
            ⟨hunwritten _ (by omega) (by omega) (by omega),
              hunwritten _ (by omega) (by omega) (by omega)⟩
        rw [hstop] at hlost
        cases hlost
      · exact h3 ⟨hunwritten _ hfirst hlt (by omega),
          hunwritten _ (by omega) (by omega) (by omega)⟩
    have hsame : ∀ r, 0x0c0 ≤ r → r < n → (areaOf mem').row r = (areaOf mem).row r :=
      fun r hr hlt => by rw [row_areaOf _ hr (by omega), row_areaOf _ hr (by omega), heq r hlt]
    have hrow0 := hsame row hfirst (by omega)
    have hrow1 := hsame (row + 1) (by omega) (by omega)
    rw [parseEntries_next, hrow1]
    · exact ih (by omega) hnextLe hlost
    · rw [hrow0, hrow1]; exact h3
    · rw [hrow1, hend']; exact hnextLe
    · rw [hrow0]; exact h5

/-- **A lost instance**: written after the area's last written row but before the row where the
parser lost its place, an instance isn't found. -/
theorem current_lostLast {instances : List CommissioningInstance} {issues : List AreaIssue}
    {last : List CommissioningInstance} (hzero : ZeroFrom mem (written + 1)) (hn : written < n)
    (hroom : n + 3 ≤ 0x4c0) (heq : ∀ r, r < n → mem' r = mem r)
    (hleads : Leads (areaOf mem) b 0x0c0 instances issues) (hend : b < 0x4c0)
    (hloses : Loses (areaOf mem) b lost last) (hge : n ≤ lost) : (parsed mem').current = none := by
  have hfirst : 0x0c0 ≤ b := hleads.le
  have hrow : ∀ r, 0x0c0 ≤ r → r < 0x4c0 → mem r ≠ 0 → r < n := fun r _ hr hne => by
    by_contra hnot
    exact hne (hzero r (by omega) hr)
  have hne : mem b ≠ 0 := by
    rw [← row_areaOf mem hfirst hend]
    cases hloses with
    | instance_ hmagic _ => rw [hmagic]; decide
    | row hne _ _ => exact hne
  have hb := hrow b hfirst hend hne
  obtain ⟨inst, hlost⟩ : ∃ inst, parseInstance (areaOf mem') b = .lost inst 0x4bf := by
    cases hloses with
    | row _ _ hlost => omega
    | instance_ hmagic hinst =>
      rcases parseInstance_lost hinst with ⟨_, rfl⟩ | ⟨hne, hversion, entries, hparse, rfl⟩
      · omega
      · rw [areaOf_endRow] at hne
        rw [row_areaOf _ (by omega) (by omega)] at hversion
        have hb1 := hrow (b + 1) (by omega) (by omega) (by rw [hversion]; decide)
        have hlist := parseEntries_lostLast hzero hn hroom heq (by omega) (by omega)
          (congrArg Prod.snd hparse) hge
        rw [parseInstance_entries _ (by rw [areaOf_endRow]; exact hne)
          (by rw [row_areaOf _ (by omega) (by omega), heq _ hb1, hversion])]
        rcases hentries : parseEntries (areaOf mem') (b + 2) true with ⟨entries', listEnd⟩
        rw [hentries] at hlist
        obtain rfl : listEnd = .lost 0x4bf := hlist
        exact ⟨_, rfl⟩
  have hmagic : (areaOf mem').row b = OTP_STORE_MAGIC := by
    rw [row_areaOf _ hfirst hend, heq b hb, ← row_areaOf mem hfirst hend]
    cases hloses with
    | instance_ hmagic _ => exact hmagic
    | row _ _ hlost => omega
  have hnone : (areaOf mem').instanceAfter 0x4bf = none := by
    refine instanceAfter_eq_none.mpr fun c ⟨hpage, hlt, hend⟩ => ?_
    rw [areaOf_endRow] at hend
    simp only [OTP_PAGE_ROWS] at hpage
    omega
  have hleads' : Leads (areaOf mem') b 0x0c0 instances issues :=
    hleads.agree le_rfl hend (fun r hr => heq r (by omega)) fun h => by rw [heq b hb, h]
  have hwalk := hleads'.walk_eq
  rw [walk_abandoned (by rw [areaOf_endRow]; exact hend) hmagic hlost hnone] at hwalk
  exact (parsed_abandoned hwalk).2

end LostLast

end OneRom.OtpWalk
