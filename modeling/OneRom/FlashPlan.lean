import OneRom.Flash

/-!
Programming an image file onto the flash chips of a board: the steps of a plan, what they do to
flash, and what is there when they are stopped part way.

An erase sets its range to `0xFF` and a write only clears bits. An image that uses the second chip
has the first one erased before the second is touched, and written last.
-/

namespace OneRom.FlashPlan

open OneRom.Flash

def SECTOR_SIZE : ℕ := 4096

inductive FlashStep
  | erase (addr len : ℕ)
  | write (addr : ℕ) (data : List UInt8)
  deriving DecidableEq, Repr

inductive FlashPlanError
  | secondChipRequired
  | tooLarge
  deriving DecidableEq, Repr

/-- `len` bytes, as a `u32`, rounded up to whole sectors. -/
def sectors (len : ℕ) : ℕ := (len % 2 ^ 32 + (SECTOR_SIZE - 1)) / SECTOR_SIZE * SECTOR_SIZE

/-- Plans programming `image` onto a board with `chips`. -/
def new (image : List UInt8) (chips : FlashChips) :
    Except FlashPlanError (List FlashStep) :=
  let first := chips.first
  let firstLen := first.size
  if image.length ≤ firstLen then
    .ok [.erase first.start (sectors image.length), .write first.start image]
  else
    match chips.second with
    | none => .error .secondChipRequired
    | some second =>
      if firstLen + second.size < image.length then .error .tooLarge
      else
        let (firstData, secondData) := image.splitAt firstLen
        .ok [.erase first.start (first.stop - first.start),
          .erase second.start (sectors secondData.length),
          .write second.start secondData,
          .write first.start firstData]

/-! ### Flash -/

/-- The bytes of both chips, by address. -/
abbrev FlashBytes := ℕ → UInt8

namespace FlashStep

def addr : FlashStep → ℕ
  | .erase addr _ => addr
  | .write addr _ => addr

def len : FlashStep → ℕ
  | .erase _ len => len
  | .write _ data => data.length

/-- The step is about the byte at `a`. -/
def Touches (step : FlashStep) (a : ℕ) : Prop := step.addr ≤ a ∧ a < step.addr + step.len

instance (step : FlashStep) (a : ℕ) : Decidable (step.Touches a) :=
  inferInstanceAs (Decidable (_ ∧ _))

def apply : FlashStep → FlashBytes → FlashBytes
  | .erase addr len, flash => fun a => if addr ≤ a ∧ a < addr + len then 0xFF else flash a
  | .write addr data, flash => fun a =>
    if addr ≤ a ∧ a < addr + data.length then flash a &&& data.getD (a - addr) 0xFF else flash a

/-- The first `n` bytes of a step. -/
def cut (n : ℕ) : FlashStep → FlashStep
  | .erase addr len => .erase addr (min n len)
  | .write addr data => .write addr (data.take n)

lemma apply_of_not_touches {step : FlashStep} {a : ℕ} (h : ¬step.Touches a) (flash : FlashBytes) :
    step.apply flash a = flash a := by
  cases step <;> exact if_neg h

lemma not_touches_cut {step : FlashStep} {a : ℕ} (h : ¬step.Touches a) (n : ℕ) :
    ¬(step.cut n).Touches a := by
  cases step <;> simp only [Touches, cut, addr, len, List.length_take] at h ⊢ <;> omega

end FlashStep

open FlashStep

def run (steps : List FlashStep) (flash : FlashBytes) : FlashBytes :=
  steps.foldl (fun flash step => step.apply flash) flash

@[simp] lemma run_nil (flash : FlashBytes) : run [] flash = flash := rfl
@[simp] lemma run_cons (step : FlashStep) (steps : List FlashStep) (flash : FlashBytes) :
    run (step :: steps) flash = run steps (step.apply flash) := rfl

/-- What has been done of a plan stopped in its step `k`, after `n` bytes of it. -/
def stopped (steps : List FlashStep) (k n : ℕ) : List FlashStep :=
  steps.take k ++ (steps[k]?.map (cut n)).toList

lemma run_of_not_touches {steps : List FlashStep} {a : ℕ} (h : ∀ step ∈ steps, ¬step.Touches a)
    (flash : FlashBytes) : run steps flash a = flash a := by
  induction steps generalizing flash with
  | nil => rfl
  | cons step steps ih =>
    rw [run_cons, ih fun s hs => h s (List.mem_cons_of_mem _ hs),
      apply_of_not_touches (h step List.mem_cons_self)]

lemma stopped_of_not_touches {steps : List FlashStep} {a : ℕ}
    (h : ∀ step ∈ steps, ¬step.Touches a) (k n : ℕ) : ∀ step ∈ stopped steps k n, ¬step.Touches a := by
  intro step hstep
  rcases List.mem_append.mp hstep with hmem | hmem
  · exact h step (List.mem_of_mem_take hmem)
  · obtain ⟨whole, hwhole, rfl⟩ := Option.map_eq_some_iff.mp (Option.mem_toList.mp hmem)
    exact not_touches_cut (h whole (List.mem_of_getElem? hwhole)) n

/-! ### Where an image's bytes are -/

variable {chips : FlashChips} {image old : List UInt8} {plan : List FlashStep}
  {before flash : FlashBytes}

/-- The address of byte `i` of an image: on the first chip, or after its end from the start of the
second. -/
def place (chips : FlashChips) (i : ℕ) : ℕ :=
  if i < chips.first.size then chips.first.start + i
  else FLASH_CS1_BASE_ADDR + (i - chips.first.size)

/-- Every byte of the image is at its place. -/
def Placed (chips : FlashChips) (image : List UInt8) (flash : FlashBytes) : Prop :=
  ∀ i (h : i < image.length), flash (place chips i) = image[i]

/-- The first chip holds the first sector of the image. -/
def FirstSector (chips : FlashChips) (image : List UInt8) (flash : FlashBytes) : Prop :=
  ∀ i (h : i < image.length), i < SECTOR_SIZE → flash (chips.first.start + i) = image[i]

def UsesSecond (chips : FlashChips) (image : List UInt8) : Prop :=
  chips.first.size < image.length

/-- The second chip holds the whole of what the image puts there. -/
def SecondWhole (chips : FlashChips) (image : List UInt8) (flash : FlashBytes) : Prop :=
  ∀ i (h : i < image.length), chips.first.size ≤ i →
    flash (FLASH_CS1_BASE_ADDR + (i - chips.first.size)) = image[i]

/-- The first sector of `image` reads as one that is part way through being programmed: the one
there before with a first run of bytes erased, or the first bytes of `next` with the rest erased. -/
def PartWay (chips : FlashChips) (before : FlashBytes) (next image : List UInt8) : Prop :=
  (∃ p, 0 < p ∧ ∀ i (h : i < image.length), i < SECTOR_SIZE →
    image[i] = if i < p then 0xFF else before (chips.first.start + i)) ∨
  ∃ p < SECTOR_SIZE, ∀ i (h : i < image.length), i < SECTOR_SIZE →
    image[i] = if i < p then next.getD i 0xFF else 0xFF

/-- Flash chips made of whole sectors. -/
structure Sectored (chips : FlashChips) : Prop where
  base : SECTOR_SIZE ∣ chips.firstBase
  first : SECTOR_SIZE ∣ chips.firstLen
  second : ∀ len ∈ chips.secondLen, SECTOR_SIZE ∣ len

lemma sectored_new (mcu : Variant) (size : BoardSize) : Sectored (FlashChips.new mcu size) where
  base := by cases mcu <;> cases size <;> decide
  first := by cases mcu <;> cases size <;> decide
  second := by cases mcu <;> cases size <;> decide

lemma first_size (chips : FlashChips) : chips.first.size = chips.firstLen := by
  simp [FlashChips.first, Flash.Range.size]

lemma sector_le (chips : FlashChips) : SECTOR_SIZE ≤ chips.first.size := by
  have := chips.room
  rw [first_size]
  simp only [METADATA_OFFSET, METADATA_SIZE, SECTOR_SIZE] at *
  omega

lemma le_sectors {len : ℕ} (h : len < 2 ^ 32) : len ≤ sectors len := by
  simp only [sectors, SECTOR_SIZE]
  omega

lemma sectors_le {len size : ℕ} (h : len ≤ size) (hs : SECTOR_SIZE ∣ size) :
    sectors len ≤ size := by
  simp only [sectors, SECTOR_SIZE] at *
  omega

lemma dvd_sectors (len : ℕ) : SECTOR_SIZE ∣ sectors len := Nat.dvd_mul_left _ _

/-- The plan for an image that uses the second chip. -/
def bothPlan (chips : FlashChips) (second : Flash.Range) (image : List UInt8) : List FlashStep :=
  [.erase chips.first.start chips.first.size,
    .erase second.start (sectors (image.drop chips.first.size).length),
    .write second.start (image.drop chips.first.size),
    .write chips.first.start (image.take chips.first.size)]

/-- The plans there are: for an image on the first chip alone, and for one on both. -/
lemma new_cases (h : new image chips = .ok plan) :
    (image.length ≤ chips.first.size ∧
      plan = [.erase chips.first.start (sectors image.length), .write chips.first.start image]) ∨
    ∃ second, chips.second = some second ∧ chips.first.size < image.length ∧
      image.length ≤ chips.first.size + second.size ∧
      plan = bothPlan chips second image := by
  unfold new at h
  dsimp only at h
  split at h
  · next hle => exact .inl ⟨hle, (Except.ok.inj h).symm⟩
  · next hlt =>
    right
    split at h
    · cases h
    · next second hsecond =>
      split at h
      · cases h
      · next hfits =>
        rw [List.splitAt_eq] at h
        exact ⟨second, hsecond, by omega, by omega, (Except.ok.inj h).symm⟩

lemma new_both {second : Flash.Range} (hsecond : chips.second = some second)
    (huses : UsesSecond chips image) (hfits : image.length ≤ chips.first.size + second.size) :
    new image chips = .ok (bothPlan chips second image) := by
  unfold new
  dsimp only
  rw [if_neg (not_le.mpr huses), hsecond]
  dsimp only
  rw [if_neg (not_lt.mpr hfits), List.splitAt_eq]
  rfl

/-- The second chip is where the build puts it, after the first. -/
lemma second_cases {second : Flash.Range} (h : chips.second = some second) :
    ∃ len, chips.secondLen = some len ∧ second.start = FLASH_CS1_BASE_ADDR ∧ second.size = len ∧
      second.stop = FLASH_CS1_BASE_ADDR + len ∧ FLASH_CS1_BASE_ADDR + len < 2 ^ 32 := by
  obtain ⟨len, hlen, rfl⟩ := Option.map_eq_some_iff.mp h
  exact ⟨len, hlen, rfl, by simp [Flash.Range.size], rfl, chips.addressed len hlen⟩

/-! ### What the steps leave -/

lemma erased_and (b : UInt8) : 0xFF &&& b = b := UInt8.neg_one_and

lemma erase_at {addr len a : ℕ} (h : addr ≤ a) (h' : a < addr + len) :
    (FlashStep.erase addr len).apply flash a = 0xFF := if_pos ⟨h, h'⟩

lemma erase_outside {addr len a : ℕ} (h : a < addr ∨ addr + len ≤ a) :
    (FlashStep.erase addr len).apply flash a = flash a := if_neg (by omega)

lemma write_at {data : List UInt8} {addr i : ℕ} (h : i < data.length) :
    (FlashStep.write addr data).apply flash (addr + i) = flash (addr + i) &&& data[i] := by
  have : addr + i < addr + data.length := by omega
  simp [FlashStep.apply, this, h]

lemma write_outside {data : List UInt8} {addr a : ℕ} (h : a < addr ∨ addr + data.length ≤ a) :
    (FlashStep.write addr data).apply flash a = flash a := if_neg (by omega)

/-- Data written where flash is erased reads back. -/
lemma write_erased {data : List UInt8} {addr i : ℕ} (h : i < data.length)
    (herased : flash (addr + i) = 0xFF) :
    (FlashStep.write addr data).apply flash (addr + i) = data[i] := by
  rw [write_at h, herased, erased_and]

lemma place_first {i : ℕ} (h : i < chips.first.size) : place chips i = chips.first.start + i :=
  if_pos h

lemma place_second {i : ℕ} (h : chips.first.size ≤ i) :
    place chips i = FLASH_CS1_BASE_ADDR + (i - chips.first.size) := if_neg (by omega)

lemma Placed.firstSector (h : Placed chips image flash) : FirstSector chips image flash :=
  fun i hi hsector => by
    rw [← h i hi, place_first (lt_of_lt_of_le hsector (sector_le chips))]

lemma Placed.secondWhole (h : Placed chips image flash) : SecondWhole chips image flash :=
  fun i hi hsize => by rw [← h i hi, place_second hsize]

lemma first_stop (chips : FlashChips) : chips.first.start + chips.first.size = chips.first.stop := by
  simp [FlashChips.first, Flash.Range.size]

/-- The first chip ends before the second starts. -/
lemma first_below (chips : FlashChips) :
    chips.first.start + chips.first.size < FLASH_CS1_BASE_ADDR := by
  rw [first_size]
  exact chips.below

/-! ### An image on both chips -/

section Both

variable {second : Flash.Range}

/-- Once the second chip is written it holds the whole of its part, whatever is written to the
first. -/
lemma both_second (hsecond : chips.second = some second)
    (hfits : image.length ≤ chips.first.size + second.size) (data : List UInt8)
    (hdata : data.length ≤ chips.first.size) :
    SecondWhole chips image (run [.erase chips.first.start chips.first.size,
      .erase second.start (sectors (image.drop chips.first.size).length),
      .write second.start (image.drop chips.first.size), .write chips.first.start data] before) := by
  obtain ⟨len, -, hstart, hsize, -, hlt⟩ := second_cases hsecond
  have hbelow := first_below chips
  intro i hi hle
  have hdrop : i - chips.first.size < (image.drop chips.first.size).length := by
    rw [List.length_drop]
    omega
  have hlen : (image.drop chips.first.size).length < 2 ^ 32 := by
    rw [List.length_drop]
    omega
  have := le_sectors hlen
  simp only [run_cons, run_nil, hstart]
  rw [write_outside (by omega), write_erased hdrop (erase_at (by omega) (by omega)),
    List.getElem_drop]
  congr
  omega

/-- What the first chip's first sector is where the first chip is written up to some byte. -/
lemma both_first (hsecond : chips.second = some second) (n : ℕ) {i : ℕ} (hi : i < SECTOR_SIZE)
    (huses : UsesSecond chips image) :
    run [.erase chips.first.start chips.first.size,
      .erase second.start (sectors (image.drop chips.first.size).length),
      .write second.start (image.drop chips.first.size),
      .write chips.first.start ((image.take chips.first.size).take n)] before
        (chips.first.start + i) = if i < n then image.getD i 0xFF else 0xFF := by
  obtain ⟨len, -, hstart, -⟩ := second_cases hsecond
  have hbelow := first_below chips
  have hsector := sector_le chips
  unfold UsesSecond at huses
  have hblank : (FlashStep.write second.start (image.drop chips.first.size)).apply
      ((FlashStep.erase second.start (sectors (image.drop chips.first.size).length)).apply
        ((FlashStep.erase chips.first.start chips.first.size).apply before))
      (chips.first.start + i) = 0xFF := by
    rw [write_outside (by omega), erase_outside (by omega), erase_at (by omega) (by omega)]
  simp only [run_cons, run_nil]
  by_cases hin : i < n
  · have hlen : i < ((image.take chips.first.size).take n).length := by
      simp only [List.length_take]
      omega
    rw [write_erased hlen hblank, if_pos hin, List.getElem_take, List.getElem_take,
      List.getD_eq_getElem _ _ (by omega)]
  · rw [write_outside (by simp only [List.length_take]; omega), hblank, if_neg hin]

/-- After the first chip's erase, its first sector is blank until the first chip is written. -/
lemma both_blank {steps : List FlashStep} {i : ℕ} (hi : i < SECTOR_SIZE)
    (hsteps : ∀ step ∈ steps, FLASH_CS1_BASE_ADDR ≤ step.addr) :
    run (.erase chips.first.start chips.first.size :: steps) before (chips.first.start + i) = 0xFF := by
  have hbelow := first_below chips
  have hsector := sector_le chips
  rw [run_cons, run_of_not_touches, erase_at (by omega) (by omega)]
  rintro step hstep ⟨hle, -⟩
  have := hsteps step hstep
  omega

/-- What a plan for both chips leaves wherever it is stopped: the first chip with a first run of
bytes erased and the second as it was, a first sector with its first bytes written, or the image's
first sector and the whole of its part on the second chip. -/
lemma both_stopped (hsecond : chips.second = some second)
    (hfits : image.length ≤ chips.first.size + second.size) (huses : UsesSecond chips image)
    (k n : ℕ) :
    run (stopped (bothPlan chips second image) k n) before =
        run [.erase chips.first.start (min n chips.first.size)] before ∨
    (∃ p < SECTOR_SIZE, ∀ i < SECTOR_SIZE,
      run (stopped (bothPlan chips second image) k n) before (chips.first.start + i) =
        if i < p then image.getD i 0xFF else 0xFF) ∨
    (FirstSector chips image (run (stopped (bothPlan chips second image) k n) before) ∧
      SecondWhole chips image (run (stopped (bothPlan chips second image) k n) before)) := by
  obtain ⟨len, -, hstart, -⟩ := second_cases hsecond
  have hwritten : ∀ n, SECTOR_SIZE ≤ n → FirstSector chips image
      (run [.erase chips.first.start chips.first.size,
        .erase second.start (sectors (image.drop chips.first.size).length),
        .write second.start (image.drop chips.first.size),
        .write chips.first.start ((image.take chips.first.size).take n)] before) := by
    intro n hn i hi hsector
    rw [both_first hsecond n hsector huses, if_pos (by omega), List.getD_eq_getElem _ _ hi]
  match k with
  | 0 => exact .inl (by simp [stopped, bothPlan, FlashStep.cut])
  | 1 =>
    have hcut : stopped (bothPlan chips second image) 1 n =
      [.erase chips.first.start chips.first.size,
        .erase second.start (min n (sectors (image.drop chips.first.size).length))] := rfl
    refine .inr (.inl ⟨0, by decide, fun i hi => ?_⟩)
    rw [hcut, both_blank hi (by simp [FlashStep.addr, hstart]), if_neg (Nat.not_lt_zero i)]
  | 2 =>
    have hcut : stopped (bothPlan chips second image) 2 n =
      [.erase chips.first.start chips.first.size,
        .erase second.start (sectors (image.drop chips.first.size).length),
        .write second.start ((image.drop chips.first.size).take n)] := rfl
    refine .inr (.inl ⟨0, by decide, fun i hi => ?_⟩)
    rw [hcut, both_blank hi (by simp [FlashStep.addr, hstart]), if_neg (Nat.not_lt_zero i)]
  | 3 =>
    rcases lt_or_ge n SECTOR_SIZE with hn | hn
    · exact .inr (.inl ⟨n, hn, fun i hi => both_first hsecond n hi huses⟩)
    · exact .inr (.inr ⟨hwritten n hn, both_second hsecond hfits _ (by simp)⟩)
  | k + 4 =>
    have hall : stopped (bothPlan chips second image) (k + 4) n = bothPlan chips second image := by
      simp [stopped, bothPlan]
    rw [hall]
    have hfirst := hwritten chips.first.size (sector_le chips)
    rw [List.take_take, min_self] at hfirst
    exact .inr (.inr ⟨hfirst, both_second hsecond hfits _ (by simp)⟩)

end Both

/-! ### Programming an image -/

/-- The step stays on one of the chips. -/
def InChip (chips : FlashChips) (step : FlashStep) : Prop :=
  ∃ chip, (chip = chips.first ∨ chips.second = some chip) ∧ chip.start ≤ step.addr ∧
    step.addr + step.len ≤ chip.stop

/-- Every byte the write is about is erased by a step of the plan before it. -/
def ErasedBefore (plan : List FlashStep) (k : ℕ) (step : FlashStep) : Prop :=
  ∀ a, step.Touches a → ∃ j < k, ∃ addr len, plan[j]? = some (.erase addr len) ∧ addr ≤ a ∧
    a < addr + len

/-- The whole plan puts every byte at its place. -/
lemma placed_run (h : new image chips = .ok plan) : Placed chips image (run plan before) := by
  have hbelow := first_below chips
  rcases new_cases h with ⟨hle, rfl⟩ | ⟨second, hsecond, huses, hfits, rfl⟩
  · intro i hi
    have hlen : image.length < 2 ^ 32 := by
      have : FLASH_CS1_BASE_ADDR < 2 ^ 32 := by decide
      omega
    have := le_sectors hlen
    rw [place_first (by omega), run_cons, run_cons, run_nil,
      write_erased hi (erase_at (by omega) (by omega))]
  · intro i hi
    rcases lt_or_ge i chips.first.size with hfirst | hfirst
    · obtain ⟨len, -, hstart, -⟩ := second_cases hsecond
      have hlen : i < (image.take chips.first.size).length := by
        rw [List.length_take]
        omega
      have hblank : run [.erase chips.first.start chips.first.size,
          .erase second.start (sectors (image.drop chips.first.size).length),
          .write second.start (image.drop chips.first.size)] before (chips.first.start + i) = 0xFF := by
        simp only [run_cons, run_nil]
        rw [write_outside (by omega), erase_outside (by omega), erase_at (by omega) (by omega)]
      rw [place_first hfirst]
      simp only [bothPlan, run_cons, run_nil] at hblank ⊢
      rw [write_erased hlen hblank, List.getElem_take]
    · rw [place_second hfirst]
      exact both_second hsecond hfits _ (by simp) i hi hfirst

/-- What holds of each step of a plan. -/
structure StepSound (chips : FlashChips) (plan : List FlashStep) (k : ℕ) (step : FlashStep) :
    Prop where
  inChip : InChip chips step
  sectors : ∀ addr len, step = .erase addr len → SECTOR_SIZE ∣ addr ∧ SECTOR_SIZE ∣ len
  erased : ∀ addr data, step = .write addr data → ErasedBefore plan k step

lemma StepSound.ofErase {k addr len : ℕ} {chip : Flash.Range}
    (hchip : chip = chips.first ∨ chips.second = some chip) (hstart : addr = chip.start)
    (hlen : len ≤ chip.size) (hle : chip.start ≤ chip.stop) (haddr : SECTOR_SIZE ∣ addr)
    (hdvd : SECTOR_SIZE ∣ len) : StepSound chips plan k (.erase addr len) where
  inChip := by
    simp only [Flash.Range.size] at hlen
    exact ⟨chip, hchip, hstart.ge, by simp only [FlashStep.addr, FlashStep.len]; omega⟩
  sectors := by
    rintro _ _ ⟨⟩
    exact ⟨haddr, hdvd⟩
  erased := by
    rintro _ _ ⟨⟩

lemma StepSound.ofWrite {k j addr len : ℕ} {data : List UInt8} {chip : Flash.Range}
    (hchip : chip = chips.first ∨ chips.second = some chip) (hstart : addr = chip.start)
    (hle : chip.start ≤ chip.stop) (hdata : data.length ≤ chip.size) (hj : j < k)
    (herase : plan[j]? = some (.erase addr len)) (hlen : data.length ≤ len) :
    StepSound chips plan k (.write addr data) where
  inChip := by
    simp only [Flash.Range.size] at hdata
    exact ⟨chip, hchip, hstart.ge, by simp only [FlashStep.addr, FlashStep.len]; omega⟩
  sectors := by
    rintro _ _ ⟨⟩
  erased := by
    rintro _ _ ⟨⟩ a ⟨hle, hlt⟩
    simp only [FlashStep.addr, FlashStep.len] at hle hlt
    exact ⟨j, hj, addr, len, herase, hle, by omega⟩

/-- Every step of a plan is sound. -/
lemma steps_sound (hsectored : Sectored chips) (h : new image chips = .ok plan) {k : ℕ}
    {step : FlashStep} (hstep : plan[k]? = some step) : StepSound chips plan k step := by
  have hbelow := first_below chips
  have hcs1 : FLASH_CS1_BASE_ADDR < 2 ^ 32 := by decide
  have hle : chips.first.start ≤ chips.first.stop := by
    rw [← first_stop]
    omega
  have hdvd : SECTOR_SIZE ∣ chips.first.size := by
    rw [first_size]
    exact hsectored.first
  have hbase : SECTOR_SIZE ∣ chips.first.start := hsectored.base
  rcases new_cases h with ⟨hlen, rfl⟩ | ⟨second, hsecond, huses, hfits, rfl⟩
  · match k with
    | 0 =>
      obtain rfl := Option.some.inj hstep
      exact .ofErase (.inl rfl) rfl (sectors_le hlen hdvd) hle hbase (dvd_sectors _)
    | 1 =>
      obtain rfl := Option.some.inj hstep
      exact .ofWrite (.inl rfl) rfl hle hlen Nat.zero_lt_one rfl (le_sectors (by omega))
    | k + 2 => simp at hstep
  · obtain ⟨len, hlen, hstart, hsize, hstop, hlt⟩ := second_cases hsecond
    have hsecondLe : second.start ≤ second.stop := by omega
    have hsecondDvd : SECTOR_SIZE ∣ second.size := hsize ▸ hsectored.second len hlen
    have hsecondBase : SECTOR_SIZE ∣ second.start := by
      rw [hstart]
      decide
    have hdrop : (image.drop chips.first.size).length ≤ second.size := by
      rw [List.length_drop]
      omega
    have htake : (image.take chips.first.size).length ≤ chips.first.size := by
      rw [List.length_take]
      omega
    match k with
    | 0 =>
      obtain rfl := Option.some.inj hstep
      exact .ofErase (.inl rfl) rfl le_rfl hle hbase hdvd
    | 1 =>
      obtain rfl := Option.some.inj hstep
      exact .ofErase (.inr hsecond) rfl (sectors_le hdrop hsecondDvd) hsecondLe hsecondBase
        (dvd_sectors _)
    | 2 =>
      obtain rfl := Option.some.inj hstep
      exact .ofWrite (.inr hsecond) rfl hsecondLe hdrop (show 1 < 2 by decide) rfl
        (le_sectors (by omega))
    | 3 =>
      obtain rfl := Option.some.inj hstep
      exact .ofWrite (.inl rfl) rfl hle htake (show 0 < 3 by decide) rfl htake
    | k + 4 => simp [bothPlan] at hstep

/-- A plan for the first chip alone leaves the second as it was, wherever it is stopped. -/
lemma stopped_second (hlen : image.length ≤ chips.first.size) (hsectored : Sectored chips) (k n j : ℕ) :
    run (stopped [.erase chips.first.start (sectors image.length), .write chips.first.start image]
      k n) before (FLASH_CS1_BASE_ADDR + j) = before (FLASH_CS1_BASE_ADDR + j) := by
  have hbelow := first_below chips
  have hdvd : SECTOR_SIZE ∣ chips.first.size := by
    rw [first_size]
    exact hsectored.first
  have := sectors_le hlen hdvd
  refine run_of_not_touches (stopped_of_not_touches ?_ k n) before
  simp only [List.mem_cons, List.not_mem_nil, or_false, forall_eq_or_imp, forall_eq,
    FlashStep.Touches, FlashStep.addr, FlashStep.len]
  omega

/-- A first sector that the first chip holds after some of its erase is part way, unless nothing
has been erased. -/
lemma partWay_of_erased {next X : List UInt8} {n : ℕ} (hn : 0 < n)
    (hfirst : FirstSector chips X (run [.erase chips.first.start (min n chips.first.size)] before)) :
    PartWay chips before next X := by
  have hsector := sector_le chips
  refine .inl ⟨min n chips.first.size, by simp only [SECTOR_SIZE] at hsector; omega,
    fun i hi hlt => ?_⟩
  rw [← hfirst i hi hlt, run_cons, run_nil]
  by_cases hin : i < min n chips.first.size
  · rw [if_pos hin, erase_at (by omega) (by omega)]
  · rw [if_neg hin, erase_outside (by omega)]

/-- An image whose first `len` bytes are blank, with one byte after them. -/
def blankImage (len : ℕ) : List UInt8 := List.replicate len 0xFF ++ [0]

lemma length_blankImage (len : ℕ) : (blankImage len).length = len + 1 := by simp [blankImage]

lemma blankImage_lt {len i : ℕ} (h : i < len) (hi : i < (blankImage len).length) :
    (blankImage len)[i] = 0xFF := by
  simp only [blankImage]
  rw [List.getElem_append_left (by simpa using h), List.getElem_replicate]

lemma blankImage_len (len : ℕ) (h : len < (blankImage len).length) : (blankImage len)[len] = 0 := by
  simp [blankImage]

end OneRom.FlashPlan
