import OneRom.OtpMemory
import OneRom.OtpReads

/-!
The accesses page locks permit.

Reading a board goes right where no page it reads is locked inaccessible, and a write stores its
value where its row's lock and bits allow it, whatever the locks of other pages are.
-/

namespace OneRom.OtpPermitted

open OneRom.OtpEntry OneRom.OtpStore OneRom.OtpArea OneRom.Fallible OneRom.OtpAccess
open OneRom.Commission OneRom.OtpReads OneRom.Checks OneRom.OtpMemory

/-! ### Reads that go right -/

/-- The pages a run reads: the chip's id, page 1, the commissioning area and the white label. -/
def PAGES_READ : List ℕ :=
  [CHIP_ID_ROW / OTP_PAGE_ROWS, BootRows.PAGE] ++
    List.range' AREA_FIRST_PAGE (AREA_LAST_PAGE + 1 - AREA_FIRST_PAGE) ++
    [WHITE_LABEL_FIRST_PAGE, WHITE_LABEL_LAST_PAGE]

lemma mem_pagesRead {page : ℕ} :
    page ∈ PAGES_READ ↔ page ≤ 1 ∨ (3 ≤ page ∧ page ≤ 18) ∨ page = 59 ∨ page = 60 := by
  have hlist : PAGES_READ = [0, 1, 3, 4, 5, 6, 7, 8, 9, 10, 11, 12, 13, 14, 15, 16, 17, 18, 59, 60] :=
    by decide
  rw [hlist]
  simp only [List.mem_cons, List.not_mem_nil, or_false]
  omega

/-- Rows on the pages a run reads, or lock words. -/
def Readable (row count : ℕ) : Prop :=
  row + count ≤ ROWS ∧ ∀ r ∈ List.range' row count, r < LOCK_WORDS_ROW → page r ∈ PAGES_READ

/-- A host whose reads of these rows go right. -/
def Reading (host : Host) : Prop := ∀ n row count, Readable row count →
  host.readFails n row count = none

lemma readable_pages {first last : ℕ} (hlast : last ≤ 60)
    (hpages : ∀ page, first ≤ page → page ≤ last → page ∈ PAGES_READ) {row count : ℕ}
    (hrow : first * 64 ≤ row) (hend : row + count ≤ (last + 1) * 64) : Readable row count := by
  refine ⟨by simp only [ROWS]; omega, fun r hr _ => ?_⟩
  obtain ⟨hge, hlt⟩ := List.mem_range'_1.mp hr
  exact hpages _ (by simp only [page, OTP_PAGE_ROWS]; omega)
    (by simp only [page, OTP_PAGE_ROWS]; omega)

lemma readable_locks {row count : ℕ} (hrow : LOCK_WORDS_ROW ≤ row) (hend : row + count ≤ ROWS) :
    Readable row count :=
  ⟨hend, fun r hr hlt => by
    have := (List.mem_range'_1.mp hr).1
    omega⟩

/-- A program that never fails. -/
def Always {ε α : Type} (x : OtpM ε α) : Prop :=
  Triple (fun _ => True) x (fun _ _ => True) fun _ => False

lemma Always.bind {ε α β : Type} {x : OtpM ε α} {f : α → OtpM ε β} (hx : Always x)
    (hf : ∀ a, Always (f a)) : Always (x >>= f) :=
  Triple.bind hx hf

lemma Always.pure {ε α : Type} {a : α} : Always (Pure.pure a : OtpM ε α) := Triple.pure fun _ h => h

lemma Always.exists_ok {ε α : Type} {x : OtpM ε α} (hx : Always x) (otp : Otp) :
    ∃ a otp', x otp = (.ok a, otp') := by
  have := hx otp trivial
  split at this
  · next a otp' heq => exact ⟨a, otp', heq⟩
  · exact this.elim

section Reads

variable {host : Host} (hreading : Reading host) {row count : ℕ}

include hreading

lemma readEccRows_always (h : Readable row count) : Always (readEccRows host row count) := by
  intro otp _
  simp only [readEccRows, hreading _ _ _ h]

lemma readRawRows_always (h : Readable row count) : Always (readRawRows host row count) := by
  intro otp _
  simp only [readRawRows, hreading _ _ _ h]

lemma readAreaFrom_always (left : ℕ) {first : ℕ} (hfirst : 0x0c0 ≤ first)
    (hend : first + 64 * (left + 1) ≤ 0x4c0) (rows : List UInt16) :
    Always (readAreaFrom host first rows left) := by
  have hread : ∀ first, 0x0c0 ≤ first → first + 64 ≤ 0x4c0 →
      Always ((readEccRows host first OTP_PAGE_ROWS).mapError fun e => (first, e)) := by
    intro first hfirst hend
    refine Triple.mapError (readEccRows_always hreading (@readable_pages 3 18 (by decide)
      (fun page h h' => mem_pagesRead.mpr (.inr (.inl ⟨h, h'⟩))) _ _ (by omega) ?_))
    simp only [OTP_PAGE_ROWS]
    omega
  induction left generalizing first rows with
  | zero => exact (hread first hfirst (by omega)).bind fun _ => .pure
  | succ left ih =>
    refine (hread first hfirst (by omega)).bind fun read => ?_
    simp only
    split
    · exact .pure
    · exact ih (by simp only [OTP_PAGE_ROWS]; omega) (by simp only [OTP_PAGE_ROWS]; omega) _

lemma readLocks_always {first last : ℕ} (hle : first ≤ last) (hlast : last ≤ 60) :
    Always (readLocks host first last) := by
  refine (readRawRows_always hreading (readable_locks ?_ ?_)).bind fun _ => .pure
  · simp only [LOCK_WORDS_ROW, lock1Row, PAGE0_LOCK1_ROW]
    omega
  · simp only [ROWS, lock1Row, PAGE0_LOCK1_ROW]
    omega

/-- **Reading** a board goes right where no page it reads is locked inaccessible. -/
theorem readBoard_always : Always (readBoard host) := by
  have hpage : ∀ {page row count}, page ∈ PAGES_READ → page * 64 ≤ row →
      row + count ≤ (page + 1) * 64 → Readable row count := fun {page row count} hmem hrow hend =>
    readable_pages ((mem_pagesRead.mp hmem).elim (by omega) (by omega))
      (fun p h h' => le_antisymm h h' ▸ hmem) hrow hend
  have harea : Readable OTP_COMMISSIONING_AREA_FIRST_ROW AREA_ROWS :=
    @readable_pages 3 18 (by decide) (fun page h h' => mem_pagesRead.mpr (.inr (.inl ⟨h, h'⟩)))
      _ _ (by decide) (by decide)
  have hlabel : Readable OTP_USB_WHITE_LABEL_ROW WHITE_LABEL_PAGES_ROWS :=
    @readable_pages 59 60 (by decide) (fun page h h' => mem_pagesRead.mpr (by omega)) _ _
      (by decide) (by decide)
  have h0 : Readable CHIP_ID_ROW 4 := hpage (mem_pagesRead.mpr (.inl zero_le_one)) (by decide)
    (by decide)
  have hboot : Readable BootRows.FIRST_ROW (OTP_ROW_USB_WHITE_LABEL_DATA - BootRows.FIRST_ROW + 1) :=
    hpage (mem_pagesRead.mpr (.inl le_rfl)) (by decide) (by decide)
  have hdevinfo : Readable OTP_FLASH_DEVINFO_ROW 1 :=
    hpage (mem_pagesRead.mpr (.inl le_rfl)) (by decide) (by decide)
  refine .bind (.mapError ((readEccRows_always hreading h0).bind fun _ => .pure)) fun _ => ?_
  refine .bind (.mapError (readAreaFrom_always hreading _ (by decide) (by decide) _)) fun _ => ?_
  refine .bind (.mapError (readRawRows_always hreading harea)) fun _ => ?_
  refine .bind (.mapError ((readRawRows_always hreading hboot).bind fun _ => .pure)) fun _ => ?_
  refine .bind (.mapError (readEccRows_always hreading hdevinfo)) fun _ => ?_
  refine .bind (.mapError (readRawRows_always hreading hlabel)) fun _ => ?_
  refine .bind (.mapError (readLocks_always hreading (by decide) (by decide))) fun _ => ?_
  refine .bind (.mapError (readLocks_always hreading (by decide) (by decide))) fun _ => ?_
  refine .bind (.mapError (readLocks_always hreading (by decide) (by decide))) fun _ => ?_
  exact .pure

end Reads

/-! ### The chip's locks -/

section Locks

variable {otp : MemoryOtp} {row count : ℕ}

lemma range_eq_ok : range row count = .ok () ↔ row + count ≤ ROWS := by
  unfold range
  split
  · next h => exact ⟨fun _ => h, fun _ => rfl⟩
  · next h => exact ⟨(by cases ·), fun h' => absurd h' h⟩

lemma readable_eq_ok : otp.readable row count = .ok () ↔ row + count ≤ ROWS ∧
    ∀ r ∈ List.range' row count, r < LOCK_WORDS_ROW → otp.locks (page r) < INACCESSIBLE := by
  have hany : ((List.range' row count).any fun r =>
      decide (r < LOCK_WORDS_ROW) && decide (INACCESSIBLE ≤ otp.locks (page r))) = true ↔
        ¬∀ r ∈ List.range' row count, r < LOCK_WORDS_ROW → otp.locks (page r) < INACCESSIBLE := by
    simp [and_assoc]
  refine seq_eq_ok.trans (and_congr range_eq_ok ?_)
  rw [← not_iff_not, ← hany]
  split
  · next h => exact ⟨fun _ => h, fun _ => (by cases ·)⟩
  · next h => exact ⟨fun hne => absurd rfl hne, fun h' => absurd h' h⟩

variable [PicoOtp]

lemma readFails_eq_none {n : ℕ} : otp.host.readFails n row count = none ↔ row + count ≤ ROWS ∧
    ∀ r ∈ List.range' row count, r < LOCK_WORDS_ROW → otp.locks (page r) < INACCESSIBLE := by
  rw [← readable_eq_ok]
  simp only [MemoryOtp.host]
  rcases otp.readable row count with _ | ⟨⟩ <;> simp

lemma reading_of_locks (h : ∀ page ∈ PAGES_READ, otp.locks page < INACCESSIBLE) :
    Reading otp.host := fun _ _ _ hreadable =>
  readFails_eq_none.mpr ⟨hreadable.1, fun r hr hlt => h _ (hreadable.2 r hr hlt)⟩

/-- The locks that let a chip be read. -/
lemma locks_of_readBoard {rows : Rows} {readings : Readings} {read : Otp}
    (h : readBoard otp.host ⟨rows, []⟩ = (.ok readings, read)) :
    ∀ page ∈ PAGES_READ, otp.locks page < INACCESSIBLE := by
  have hecc : ∀ {row count values o o'}, readEccRows otp.host row count o = (.ok values, o') →
      ∀ r ∈ List.range' row count, r < LOCK_WORDS_ROW → otp.locks (page r) < INACCESSIBLE := by
    intro row count values o o' h
    unfold readEccRows at h
    split at h
    · cases h
    · next hnone => exact (readFails_eq_none.mp hnone).2
  have hraw : ∀ {row count values o o'}, readRawRows otp.host row count o = (.ok values, o') →
      ∀ r ∈ List.range' row count, r < LOCK_WORDS_ROW → otp.locks (page r) < INACCESSIBLE := by
    intro row count values o o' h
    unfold readRawRows at h
    split at h
    · cases h
    · next hnone => exact (readFails_eq_none.mp hnone).2
  obtain ⟨chipId, s1, h1, h⟩ := Prog.bind_ok.mp h
  obtain ⟨area, s2, -, h⟩ := Prog.bind_ok.mp h
  obtain ⟨areaRaw, s3, h3, h⟩ := Prog.bind_ok.mp h
  obtain ⟨boot, s4, h4, h⟩ := Prog.bind_ok.mp h
  obtain ⟨devinfo, s5, -, h⟩ := Prog.bind_ok.mp h
  obtain ⟨label, s6, h6, h⟩ := Prog.bind_ok.mp h
  obtain ⟨_, _, h1, -⟩ := Prog.bind_ok.mp (Prog.mapError_ok.mp h1)
  obtain ⟨_, _, h4, -⟩ := Prog.bind_ok.mp (Prog.mapError_ok.mp h4)
  have h0 := hecc h1 0 (by decide) (by decide)
  have h1 := hraw h4 0x048 (by decide) (by decide)
  have h59 := hraw (Prog.mapError_ok.mp h6) 0xec0 (by decide) (by decide)
  have h60 := hraw (Prog.mapError_ok.mp h6) 0xf00 (by decide) (by decide)
  have harea := hraw (Prog.mapError_ok.mp h3)
  intro p hp
  rcases mem_pagesRead.mp hp with hle | ⟨h3, h18⟩ | rfl | rfl
  · interval_cases p
    · exact h0
    · exact h1
  · have hpage : page (64 * p) = p := by simp [page, OTP_PAGE_ROWS]
    have := harea (64 * p) (List.mem_range'_1.mpr ⟨?_, ?_⟩) ?_
    · rwa [hpage] at this
    · simp only [OTP_COMMISSIONING_AREA_FIRST_ROW]; omega
    · simp only [OTP_COMMISSIONING_AREA_FIRST_ROW, AREA_ROWS, OTP_COMMISSIONING_AREA_LAST_ROW]
      omega
    · simp only [LOCK_WORDS_ROW]; omega
  · exact h59
  · exact h60

/-! ### Writes that go right -/

/-- A write that goes right: neither the row's place, nor its lock, nor its bits refuse it. -/
structure Stores (locks : ℕ → UInt8) (row : ℕ) (value : RowValue) (raw new : UInt32) : Prop where
  inside : row + 1 ≤ ROWS
  unlocked : locks (lockPage row) < LOCK_BL_READ_ONLY
  value : ∃ target, MemoryOtp.newValue raw value = .ok target ∧ new = target &&& ROW_BITS

variable {locks locks' : ℕ → UInt8} {interruption : Option (ℕ × Interruption)} {n : ℕ}
  {value : RowValue} {raw new : UInt32}

lemma store_eq_ok : (⟨locks, interruption, none⟩ : MemoryOtp).store n row value raw = .ok new ↔
    Stores locks row value raw new := by
  unfold MemoryOtp.store
  rw [seq_eq_ok, range_eq_ok]
  by_cases hlock : LOCK_BL_READ_ONLY ≤ locks (lockPage row)
  · simp only [hlock, if_true]
    exact ⟨fun h => (by cases h.2), fun h => absurd hlock (UInt8.not_le.mpr h.unlocked)⟩
  · simp only [hlock, if_false]
    constructor
    · rintro ⟨hinside, h⟩
      obtain ⟨target, htarget, hnew⟩ := bind_eq_ok.mp h
      exact ⟨hinside, UInt8.not_le.mp hlock, target, htarget, (pure_eq_ok.mp hnew).symm⟩
    · rintro ⟨hinside, -, target, htarget, rfl⟩
      exact ⟨hinside, bind_eq_ok.mpr ⟨target, htarget, rfl⟩⟩

/-- A write succeeds where it isn't interrupted and goes right. -/
lemma stores_of_write (h : (⟨locks, none, none⟩ : MemoryOtp).write n row value raw = (new, none)) :
    Stores locks row value raw new := by
  change MemoryOtp.stored raw _ = (new, none) at h
  rcases hres : (⟨locks, none, none⟩ : MemoryOtp).store n row value raw with e | raw'
  · rw [hres] at h
    cases h
  · rw [hres] at h
    cases h
    exact store_eq_ok.mp hres

/-- A write that goes right stores its value, or is interrupted before or after it lands. -/
lemma write_of_stores (h : Stores locks row value raw new) {raw' : UInt32} {error : Option OtpError}
    (hwrite : (⟨locks, interruption, none⟩ : MemoryOtp).write n row value raw = (raw', error)) :
    (error = none → raw' = new) ∧
      (error ≠ none → interruption ≠ none ∧ (raw' = raw ∨ raw' = new)) := by
  have hstore : (⟨locks, interruption, none⟩ : MemoryOtp).store n row value raw = .ok new :=
    store_eq_ok.mpr h
  unfold MemoryOtp.write at hwrite
  rw [hstore] at hwrite
  rcases interruption with _ | ⟨m, how⟩
  · cases hwrite
    exact ⟨fun _ => rfl, fun hne => absurd rfl hne⟩
  · by_cases hm : (m == n) = true
    · simp only [Option.filter_some, hm, if_true] at hwrite
      cases how <;> cases hwrite <;> simp [MemoryOtp.stored]
    · simp only [Option.filter_some, hm] at hwrite
      cases hwrite
      exact ⟨fun _ => rfl, fun hne => absurd rfl hne⟩

end Locks

end OneRom.OtpPermitted
