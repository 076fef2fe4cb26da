import OneRom.Overlay

/-!
A board's flash chips, where slots are placed on them, and the ROM data built from the slots.

`slot_addresses` is first fit over one or two chips, and the ROM data is one buffer in which the
second chip follows the first. `slots_exact` says that no slot overlaps another in either.
-/

namespace OneRom.Flash

open OneRom.Overlay

def METADATA_OFFSET : ℕ := 0xC000
def METADATA_SIZE : ℕ := 0x4000
def STM32F4_BASE_FLASH : ℕ := 0x08000000
def RP235X_BASE_FLASH : ℕ := 0x10000000
def FLASH_CS1_BASE_ADDR : ℕ := 0x11000000

/-! ### The chips of a board -/

inductive Family
  | stm32f4
  | rp2350
  deriving DecidableEq, Repr

inductive Variant
  | f446RC | f446RE | f411RC | f411RE | f405RG | f401RB | f401RC | f401RE
  | rp2350 | rp2350B
  deriving DecidableEq, Repr

inductive BoardSize
  | m
  | l
  deriving DecidableEq, Repr

def Variant.family : Variant → Family
  | .rp2350 | .rp2350B => .rp2350
  | _ => .stm32f4

def Variant.flashStorageKb : Variant → ℕ
  | .f446RC => 256
  | .f446RE => 512
  | .f411RC => 256
  | .f411RE => 512
  | .f405RG => 1024
  | .f401RB => 128
  | .f401RC => 256
  | .f401RE => 512
  | .rp2350 => 2048
  | .rp2350B => 2048

def Variant.flashStorageBytes (mcu : Variant) : ℕ := mcu.flashStorageKb * 1024

def Family.getFlashBase : Family → ℕ
  | .stm32f4 => STM32F4_BASE_FLASH
  | .rp2350 => RP235X_BASE_FLASH

/-- The sizes of flash chip the metadata can name. -/
inductive OneromFlashSize
  | flashSizeNone
  | flashSize8Kb | flashSize16Kb | flashSize32Kb | flashSize64Kb | flashSize128Kb
  | flashSize256Kb | flashSize512Kb
  | flashSize1Mb | flashSize2Mb | flashSize4Mb | flashSize8Mb | flashSize16Mb
  deriving DecidableEq, Repr

def flashSizeBytes : OneromFlashSize → ℕ
  | .flashSizeNone => 0
  | size => 4096 <<< size.ctorIdx

/-- The flash chips of a size of board, by chip select. -/
structure FlashLayout where
  cs0 : OneromFlashSize
  cs1 : OneromFlashSize

def FlashLayout.of : BoardSize → FlashLayout
  | .m => ⟨.flashSize2Mb, .flashSizeNone⟩
  | .l => ⟨.flashSize2Mb, .flashSize2Mb⟩

/-- Addresses, `stop` not among them. -/
structure Range where
  start : ℕ
  stop : ℕ
  deriving DecidableEq, Repr

def Range.Contains (r : Range) (addr : ℕ) : Prop := r.start ≤ addr ∧ addr < r.stop

instance (r : Range) (addr : ℕ) : Decidable (r.Contains addr) := inferInstanceAs (Decidable (_ ∧ _))

def Range.size (r : Range) : ℕ := r.stop - r.start

/-- The addresses of a board's flash chips. -/
structure FlashChips where
  boardSize : BoardSize
  firstBase : ℕ
  firstLen : ℕ
  secondLen : Option ℕ
  /-- The firmware and the metadata region leave room on the first chip. -/
  room : METADATA_OFFSET + METADATA_SIZE ≤ firstLen
  /-- The first chip ends before chip select 1 starts. -/
  below : firstBase + firstLen < FLASH_CS1_BASE_ADDR
  /-- Every address of a second chip is a `u32`. -/
  addressed : ∀ len ∈ secondLen, FLASH_CS1_BASE_ADDR + len < 2 ^ 32

/-- The lengths of the first chip and, where there is one, of the second. -/
def chipLens (mcu : Variant) (size : BoardSize) : ℕ × Option ℕ :=
  match mcu.family with
  | .rp2350 =>
    let layout := FlashLayout.of size
    (flashSizeBytes layout.cs0,
      if layout.cs1 ≠ .flashSizeNone then some (flashSizeBytes layout.cs1) else none)
  | .stm32f4 => (mcu.flashStorageBytes, none)

/-- The flash chips of a `size` board with `mcu`. -/
def FlashChips.new (mcu : Variant) (size : BoardSize) : FlashChips where
  boardSize := size
  firstBase := mcu.family.getFlashBase
  firstLen := (chipLens mcu size).1
  secondLen := (chipLens mcu size).2
  room := by cases mcu <;> cases size <;> decide
  below := by cases mcu <;> cases size <;> decide
  addressed := by cases mcu <;> cases size <;> decide

namespace FlashChips

variable (chips : FlashChips)

/-- The first chip's addresses. -/
def first : Range := ⟨chips.firstBase, chips.firstBase + chips.firstLen⟩

/-- The second chip's addresses, where the board has one. -/
def second : Option Range :=
  chips.secondLen.map fun len => ⟨FLASH_CS1_BASE_ADDR, FLASH_CS1_BASE_ADDR + len⟩

/-- Where ROM data starts on the first chip. -/
def romDataStart : ℕ := chips.firstBase + METADATA_OFFSET + METADATA_SIZE

variable {chips}

lemma romDataStart_le : chips.romDataStart ≤ chips.first.stop := by
  have := chips.room
  simp only [romDataStart, first]
  omega

lemma start_le_romDataStart : chips.first.start ≤ chips.romDataStart := by
  simp only [romDataStart, first]
  omega

lemma first_stop_lt {chip : Range} (h : chip ∈ chips.second) : chips.first.stop < chip.start := by
  obtain ⟨len, -, rfl⟩ := Option.map_eq_some_iff.mp h
  exact chips.below

end FlashChips

/-! ### Placement -/

inductive Error
  /-- The slot fits neither chip. -/
  | slotDoesNotFit (slot : ℕ)
  /-- A plugin isn't where it's linked to run. -/
  | pluginMoved (slot : ℕ)
  /-- An image is copied past the end of the buffer. -/
  | outOfRange
  deriving DecidableEq, Repr

/-- The unused part of a chip. -/
structure Space where
  next : ℕ
  stop : ℕ
  deriving DecidableEq, Repr

/-- The space has `size` bytes left. The address they end at is a `u32`. -/
def Space.Fits (space : Space) (size : ℕ) : Prop :=
  space.next + size < 2 ^ 32 ∧ space.next + size ≤ space.stop

instance (space : Space) (size : ℕ) : Decidable (space.Fits size) :=
  inferInstanceAs (Decidable (_ ∧ _))

/-- Takes `size` bytes from the start of the space: their address and the space left. -/
def Space.take (space : Space) (size : ℕ) : Option (ℕ × Space) :=
  if space.Fits size then some (space.next, ⟨space.next + size, space.stop⟩) else none

/-- The unused parts of the chips of a board. -/
structure Spaces where
  first : Space
  second : Option Space
  deriving DecidableEq, Repr

/-- Takes `size` bytes from the first chip, and otherwise from the second. -/
def Spaces.take (spaces : Spaces) (size : ℕ) : Option (ℕ × Spaces) :=
  match spaces.first.take size with
  | some (addr, first) => some (addr, { spaces with first })
  | none => do
    let (addr, second) ← (← spaces.second).take size
    some (addr, { spaces with second := some second })

def Spaces.place (spaces : Spaces) (slot : ℕ) : List ℕ → Except Error (List ℕ)
  | [] => .ok []
  | size :: sizes =>
    match spaces.take size with
    | some (addr, spaces) => (spaces.place (slot + 1) sizes).map (addr :: ·)
    | none => .error (.slotDoesNotFit slot)

/-- The chips before any slot is placed. -/
def FlashChips.spaces (chips : FlashChips) : Spaces where
  first := ⟨chips.romDataStart, chips.first.stop⟩
  second := chips.second.map fun chip => ⟨chip.start, chip.stop⟩

/-- The address of each slot, in order, from each slot's size. -/
def slotAddresses (chips : FlashChips) (sizes : List ℕ) : Except Error (List ℕ) :=
  chips.spaces.place 0 sizes

/-- The addresses each slot takes. -/
def ranges (addrs sizes : List ℕ) : List Range :=
  List.zipWith (fun addr size => ⟨addr, addr + size⟩) addrs sizes

@[simp] lemma ranges_nil : ranges [] [] = [] := rfl
@[simp] lemma ranges_cons (addr size : ℕ) (addrs sizes : List ℕ) :
    ranges (addr :: addrs) (size :: sizes) = ⟨addr, addr + size⟩ :: ranges addrs sizes := rfl

lemma mem_ranges {addrs sizes : List ℕ} {r : Range} (h : r ∈ ranges addrs sizes) :
    ∃ addr ∈ addrs, ∃ size ∈ sizes, r = ⟨addr, addr + size⟩ := by
  obtain ⟨i, hi, rfl⟩ := List.getElem_of_mem h
  simp only [ranges, List.length_zipWith, lt_min_iff] at hi
  exact ⟨_, List.getElem_mem hi.1, _, List.getElem_mem hi.2, by simp [ranges]⟩

lemma Space.take_eq_some {space space' : Space} {size addr : ℕ}
    (h : space.take size = some (addr, space')) :
    space.Fits size ∧ addr = space.next ∧ space' = ⟨space.next + size, space.stop⟩ := by
  unfold Space.take at h
  split at h
  · next hfits =>
    obtain ⟨rfl, rfl⟩ := Prod.mk.inj (Option.some.inj h)
    exact ⟨hfits, rfl, rfl⟩
  · cases h

lemma Space.take_eq_none {space : Space} {size : ℕ} :
    space.take size = none ↔ ¬space.Fits size := by
  unfold Space.take
  split <;> simp_all

/-- What placing one slot does: it goes on the first chip, or where that has no room for it on
the second. -/
lemma Spaces.take_cases {spaces spaces' : Spaces} {size addr : ℕ}
    (h : spaces.take size = some (addr, spaces')) :
    (spaces.first.Fits size ∧ addr = spaces.first.next ∧
      spaces' = ⟨⟨addr + size, spaces.first.stop⟩, spaces.second⟩) ∨
    (¬spaces.first.Fits size ∧ ∃ second, spaces.second = some second ∧ second.Fits size ∧
      addr = second.next ∧ spaces' = ⟨spaces.first, some ⟨addr + size, second.stop⟩⟩) := by
  unfold Spaces.take at h
  split at h
  · next heq =>
    obtain ⟨hfits, rfl, rfl⟩ := Space.take_eq_some heq
    obtain ⟨rfl, rfl⟩ := Prod.mk.inj (Option.some.inj h)
    exact Or.inl ⟨hfits, rfl, rfl⟩
  · next heq =>
    obtain ⟨second, hsecond, h⟩ := Option.bind_eq_some_iff.mp h
    obtain ⟨⟨addr', second'⟩, htake, h⟩ := Option.bind_eq_some_iff.mp h
    obtain ⟨hfits, rfl, rfl⟩ := Space.take_eq_some htake
    obtain ⟨rfl, rfl⟩ := Prod.mk.inj (Option.some.inj h)
    exact Or.inr ⟨Space.take_eq_none.mp heq, second, hsecond, hfits, rfl, rfl⟩

/-- A slot is refused where neither chip has room for it. -/
lemma Spaces.take_eq_none {spaces : Spaces} {size : ℕ} :
    spaces.take size = none ↔
      ¬spaces.first.Fits size ∧ ∀ second ∈ spaces.second, ¬second.Fits size := by
  unfold Spaces.take
  split
  · next heq => simp [(Space.take_eq_some heq).1]
  · next heq =>
    rcases hsecond : spaces.second with _ | second
    · simp [Space.take_eq_none.mp heq]
    · cases htake : second.take size with
      | none => simp [Space.take_eq_none.mp heq, Space.take_eq_none.mp htake, htake]
      | some taken =>
        have hfits := (Space.take_eq_some (h := htake)).1
        simp [hfits, htake]

/-! ### The invariant of placement -/

/-- The unused parts lie within the chips, after the firmware and the metadata on the first. -/
structure Within (chips : FlashChips) (spaces : Spaces) : Prop where
  next_le : spaces.first.next ≤ chips.first.stop
  le_next : chips.romDataStart ≤ spaces.first.next
  stop_eq : spaces.first.stop = chips.first.stop
  second : Option.Rel (fun space chip => chip.start ≤ space.next ∧ space.next ≤ space.stop ∧
    space.stop = chip.stop) spaces.second chips.second

/-- A range taken from the unused parts: from the first chip, or not empty and from the
second. -/
def TakenFrom (spaces : Spaces) (r : Range) : Prop :=
  (spaces.first.next ≤ r.start ∧ r.stop ≤ spaces.first.stop) ∨
  ∃ second ∈ spaces.second, second.next ≤ r.start ∧ r.start < r.stop ∧ r.stop ≤ second.stop

/-- The range `b` of a later slot is apart from the range `a` of an earlier one: it follows it,
or is on the first chip where `a` is on the second. -/
def Follows (chips : FlashChips) (a b : Range) : Prop :=
  a.stop ≤ b.start ∨ (b.stop ≤ chips.first.stop ∧ chips.first.stop < a.start)

variable {chips : FlashChips} {spaces spaces' : Spaces} {size addr slot : ℕ} {r : Range}

lemma within_spaces (chips : FlashChips) : Within chips chips.spaces where
  next_le := FlashChips.romDataStart_le
  le_next := le_refl _
  stop_eq := rfl
  second := by
    unfold FlashChips.spaces FlashChips.second
    cases chips.secondLen with
    | none => exact .none
    | some len => exact .some ⟨le_refl _, by simp, rfl⟩

lemma Within.second_chip {second : Space} (h : Within chips spaces)
    (hs : spaces.second = some second) :
    ∃ chip, chips.second = some chip ∧ chip.start ≤ second.next ∧ second.next ≤ second.stop ∧
      second.stop = chip.stop := by
  have hrel := h.second
  rw [hs] at hrel
  generalize chips.second = second' at hrel
  cases hrel with
  | some hr => exact ⟨_, rfl, hr⟩

lemma Within.fits_first (h : Within chips spaces) :
    spaces.first.Fits size ↔ spaces.first.next + size ≤ chips.first.stop := by
  have := chips.below
  have : chips.first.stop < 2 ^ 32 := by simp only [FlashChips.first, FLASH_CS1_BASE_ADDR] at *; omega
  simp only [Space.Fits, h.stop_eq]
  omega

lemma Within.fits_second {second : Space} {chip : Range} (hs : spaces.second = some second)
    (hc : chips.second = some chip) (h : Within chips spaces) :
    second.Fits size ↔ second.next + size ≤ chip.stop := by
  obtain ⟨chip, hc', -, -, hstop⟩ := h.second_chip hs
  obtain rfl := Option.some.inj (hc'.symm.trans hc)
  obtain ⟨len, hlen, rfl⟩ := Option.map_eq_some_iff.mp hc
  have := chips.addressed len hlen
  simp only [Space.Fits, hstop]
  omega

/-- A slot placed on the second chip is not empty: the first chip has room for an empty one. -/
lemma Within.size_pos (h : Within chips spaces) (hfits : ¬spaces.first.Fits size) : 0 < size := by
  rw [h.fits_first] at hfits
  have := h.next_le
  omega

lemma Within.take (h : Within chips spaces) (htake : spaces.take size = some (addr, spaces')) :
    Within chips spaces' := by
  rcases Spaces.take_cases htake with ⟨hfits, rfl, rfl⟩ | ⟨-, second, hs, hfits, rfl, rfl⟩
  · rw [h.fits_first] at hfits
    exact ⟨hfits, h.le_next.trans (Nat.le_add_right _ _), h.stop_eq, h.second⟩
  · obtain ⟨chip, hc, hle, -, hstop⟩ := h.second_chip hs
    refine ⟨h.next_le, h.le_next, h.stop_eq, ?_⟩
    rw [hc]
    exact .some ⟨hle.trans (Nat.le_add_right _ _), hfits.2, hstop⟩

/-- The range a slot takes is taken from what was unused. -/
lemma Within.taken (h : Within chips spaces) (htake : spaces.take size = some (addr, spaces')) :
    TakenFrom spaces ⟨addr, addr + size⟩ := by
  rcases Spaces.take_cases htake with ⟨hfits, rfl, rfl⟩ | ⟨hfirst, second, hs, hfits, rfl, rfl⟩
  · exact Or.inl ⟨le_refl _, hfits.2⟩
  · have := h.size_pos hfirst
    exact Or.inr ⟨second, hs, le_refl _, by simpa, hfits.2⟩

/-- What is unused after a slot is placed was unused before it. -/
lemma TakenFrom.of_take (htake : spaces.take size = some (addr, spaces'))
    (h : TakenFrom spaces' r) : TakenFrom spaces r := by
  rcases Spaces.take_cases htake with ⟨-, rfl, rfl⟩ | ⟨-, second, hs, -, rfl, rfl⟩
  · rcases h with h | h
    · exact Or.inl ⟨(Nat.le_add_right _ _).trans h.1, h.2⟩
    · exact Or.inr h
  · rcases h with h | ⟨_, ⟨⟩, hle, h⟩
    · exact Or.inl h
    · exact Or.inr ⟨second, hs, (Nat.le_add_right _ _).trans hle, h⟩

/-- A slot's range is followed by every range taken from what it leaves unused. -/
lemma Within.follows (h : Within chips spaces) (htake : spaces.take size = some (addr, spaces'))
    (hr : TakenFrom spaces' r) : Follows chips ⟨addr, addr + size⟩ r := by
  have hstop := h.stop_eq
  rcases Spaces.take_cases htake with ⟨hfits, rfl, rfl⟩ | ⟨-, second, hs, -, rfl, rfl⟩
  · rcases hr with hr | ⟨second, hs, hle, -⟩
    · exact Or.inl hr.1
    · obtain ⟨chip, hc, hstart, -⟩ := h.second_chip hs
      have := FlashChips.first_stop_lt hc
      have := hfits.2
      exact Or.inl (by simp only; omega)
  · obtain ⟨chip, hc, hstart, -⟩ := h.second_chip hs
    have := FlashChips.first_stop_lt hc
    rcases hr with hr | ⟨_, ⟨⟩, hle, -⟩
    · exact Or.inr ⟨by simpa [hstop] using hr.2, by simp only; omega⟩
    · exact Or.inl hle

variable {addrs sizes : List ℕ}

lemma place_cons (size : ℕ) (sizes : List ℕ) :
    spaces.place slot (size :: sizes) = .ok addrs ↔
      ∃ addr spaces' rest, spaces.take size = some (addr, spaces') ∧
        spaces'.place (slot + 1) sizes = .ok rest ∧ addrs = addr :: rest := by
  cases htake : spaces.take size with
  | none => simp [Spaces.place, htake]
  | some taken =>
    obtain ⟨addr, spaces'⟩ := taken
    cases hrest : spaces'.place (slot + 1) sizes with
    | error e => simp [Spaces.place, htake, hrest, Except.map]
    | ok rest => simp [Spaces.place, htake, hrest, Except.map, eq_comm]

lemma length_place (h : spaces.place slot sizes = .ok addrs) : addrs.length = sizes.length := by
  induction sizes generalizing spaces slot addrs with
  | nil => cases h; rfl
  | cons size sizes ih =>
    obtain ⟨addr, spaces', rest, -, hrest, rfl⟩ := (place_cons size sizes).mp h
    simp [ih hrest]

/-- Every slot placed is taken from what was unused. -/
lemma place_taken (hw : Within chips spaces) (h : spaces.place slot sizes = .ok addrs) :
    ∀ r ∈ ranges addrs sizes, TakenFrom spaces r := by
  induction sizes generalizing spaces slot addrs with
  | nil => cases h; simp
  | cons size sizes ih =>
    obtain ⟨addr, spaces', rest, htake, hrest, rfl⟩ := (place_cons size sizes).mp h
    intro r hr
    rcases List.mem_cons.mp hr with rfl | hr
    · exact hw.taken htake
    · exact (ih (hw.take htake) hrest r hr).of_take htake

/-- Every slot placed is followed by all the later ones. -/
lemma place_follows (hw : Within chips spaces) (h : spaces.place slot sizes = .ok addrs) :
    (ranges addrs sizes).Pairwise (Follows chips) := by
  induction sizes generalizing spaces slot addrs with
  | nil => cases h; simp
  | cons size sizes ih =>
    obtain ⟨addr, spaces', rest, htake, hrest, rfl⟩ := (place_cons size sizes).mp h
    refine List.pairwise_cons.mpr ⟨fun r hr => ?_, ih (hw.take htake) hrest⟩
    exact hw.follows htake (place_taken (hw.take htake) hrest r hr)

/-! ### Refusal -/

/-- The bytes of a chip that slots take. -/
def used (chip : Range) (addrs sizes : List ℕ) : ℕ :=
  (((ranges addrs sizes).filter (chip.Contains ·.start)).map Range.size).sum

lemma used_cons (chip : Range) (addr size : ℕ) (addrs sizes : List ℕ) :
    used chip (addr :: addrs) (size :: sizes) =
      (if chip.Contains addr then size else 0) + used chip addrs sizes := by
  unfold used
  by_cases h : chip.Contains addr <;> simp [h, Range.size]

/-- Once slots are placed, neither chip has `size` bytes left. -/
structure NoRoom (chips : FlashChips) (spaces : Spaces) (addrs sizes : List ℕ) (size : ℕ) :
    Prop where
  first : chips.first.stop < spaces.first.next + used chips.first addrs sizes + size
  second : ∀ second ∈ spaces.second, ∀ chip ∈ chips.second,
    chip.stop < second.next + used chip addrs sizes + size

lemma noRoom_nil (hw : Within chips spaces) :
    NoRoom chips spaces [] [] size ↔ spaces.take size = none := by
  rw [Spaces.take_eq_none, hw.fits_first, not_le]
  constructor
  · intro h
    refine ⟨h.first, fun second hs hfits => ?_⟩
    obtain ⟨chip, hc, -⟩ := hw.second_chip hs
    have := h.second second hs chip hc
    rw [hw.fits_second hs hc] at hfits
    exact absurd hfits (not_le.mpr this)
  · intro h
    refine ⟨h.1, fun second hs chip hc => ?_⟩
    have := h.2 second hs
    rw [hw.fits_second hs hc, not_le] at this
    exact this

/-- Placing a slot moves its size from the slots to come to what its chip has used. -/
lemma noRoom_cons {addrs sizes : List ℕ} {size' : ℕ} (hw : Within chips spaces)
    (htake : spaces.take size = some (addr, spaces')) :
    NoRoom chips spaces (addr :: addrs) (size :: sizes) size' ↔
      NoRoom chips spaces' addrs sizes size' := by
  have hstart : chips.first.start ≤ chips.romDataStart := FlashChips.start_le_romDataStart
  have hnext := hw.le_next
  rcases Spaces.take_cases htake with ⟨hfits, rfl, rfl⟩ | ⟨hfirst, second, hs, hfits, rfl, rfl⟩
  · rw [hw.fits_first] at hfits
    have hsecond : ∀ chip ∈ chips.second, ¬chip.Contains spaces.first.next := fun chip hc hin => by
      have := FlashChips.first_stop_lt hc
      simp only [Range.Contains] at hin
      omega
    have hused : (if chips.first.Contains spaces.first.next then size else 0) = size := by
      split_ifs with hin
      · rfl
      · simp only [Range.Contains] at hin
        omega
    constructor
    · intro h
      have hf := h.first
      rw [used_cons, hused] at hf
      refine ⟨by simp only; omega, fun second hs chip hc => ?_⟩
      have := h.second second hs chip hc
      rwa [used_cons, if_neg (hsecond chip hc), Nat.zero_add] at this
    · intro h
      have hf := h.first
      refine ⟨by rw [used_cons, hused]; simp only at hf; omega, fun second hs chip hc => ?_⟩
      rw [used_cons, if_neg (hsecond chip hc), Nat.zero_add]
      exact h.second second hs chip hc
  · have hpos := hw.size_pos hfirst
    obtain ⟨chip, hc, hle, -, hstop⟩ := hw.second_chip hs
    have hlt := FlashChips.first_stop_lt hc
    have hin : chip.Contains second.next := ⟨hle, by have := hfits.2; omega⟩
    have hout : ¬chips.first.Contains second.next := fun h => by
      simp only [Range.Contains] at h
      omega
    constructor
    · intro h
      have hf := h.first
      rw [used_cons, if_neg hout, Nat.zero_add] at hf
      refine ⟨hf, ?_⟩
      rintro _ ⟨⟩ chip' hc'
      obtain rfl := Option.some.inj (hc.symm.trans hc')
      have := h.second second hs chip hc
      rw [used_cons, if_pos hin] at this
      simp only
      omega
    · intro h
      refine ⟨by rw [used_cons, if_neg hout, Nat.zero_add]; exact h.first, ?_⟩
      intro second' hs' chip' hc'
      obtain rfl := Option.some.inj (hs.symm.trans hs')
      obtain rfl := Option.some.inj (hc.symm.trans hc')
      have := h.second _ rfl chip hc
      rw [used_cons, if_pos hin]
      simp only at this
      omega

/-- Placement is refused at a slot exactly where those before it are placed and neither chip has
its size left. -/
lemma place_refused (hw : Within chips spaces) (n : ℕ) :
    spaces.place slot sizes = .error (.slotDoesNotFit n) ↔
      ∃ i addrs size, n = slot + i ∧ spaces.place slot (sizes.take i) = .ok addrs ∧
        sizes[i]? = some size ∧ NoRoom chips spaces addrs (sizes.take i) size := by
  induction sizes generalizing spaces slot with
  | nil => simp [Spaces.place]
  | cons size sizes ih =>
    cases htake : spaces.take size with
    | none =>
      simp only [Spaces.place, htake, Except.error.injEq, Error.slotDoesNotFit.injEq]
      constructor
      · rintro rfl
        exact ⟨0, [], size, rfl, rfl, rfl, (noRoom_nil hw).mpr htake⟩
      · rintro ⟨i, addrs, size', rfl, hplace, -, -⟩
        cases i with
        | zero => rfl
        | succ i => simp [Spaces.place, htake] at hplace
    | some taken =>
      obtain ⟨addr, spaces'⟩ := taken
      have hmap : spaces.place slot (size :: sizes) = .error (.slotDoesNotFit n) ↔
          spaces'.place (slot + 1) sizes = .error (.slotDoesNotFit n) := by
        simp only [Spaces.place, htake]
        cases spaces'.place (slot + 1) sizes <;> simp [Except.map]
      rw [hmap, ih (hw.take htake)]
      constructor
      · rintro ⟨i, addrs, size', rfl, hplace, hsize, hroom⟩
        exact ⟨i + 1, addr :: addrs, size', by omega,
          (place_cons size _).mpr ⟨addr, spaces', addrs, htake, hplace, rfl⟩, hsize,
          (noRoom_cons hw htake).mpr hroom⟩
      · rintro ⟨i, addrs, size', rfl, hplace, hsize, hroom⟩
        cases i with
        | zero =>
          cases hplace
          simp only [List.getElem?_cons_zero, Option.some.injEq] at hsize
          rw [List.take_zero, noRoom_nil hw, ← hsize, htake] at hroom
          cases hroom
        | succ i =>
          obtain ⟨addr', spaces'', rest, htake', hrest, rfl⟩ := (place_cons size _).mp hplace
          obtain ⟨rfl, rfl⟩ := Prod.mk.inj (Option.some.inj (htake.symm.trans htake'))
          exact ⟨i, rest, size', by omega, hrest, hsize, (noRoom_cons hw htake).mp hroom⟩

/-- `slot` is the first slot that fits neither chip: the slots before it are placed, and it is
larger than what they leave of each chip. -/
structure FirstMisfit (chips : FlashChips) (sizes : List ℕ) (slot : ℕ) (addrs : List ℕ)
    (size : ℕ) : Prop where
  placed : slotAddresses chips (sizes.take slot) = .ok addrs
  size_eq : sizes[slot]? = some size
  first : chips.first.stop < chips.romDataStart + used chips.first addrs (sizes.take slot) + size
  second : ∀ chip ∈ chips.second,
    chip.stop < chip.start + used chip addrs (sizes.take slot) + size

lemma refused_iff (chips : FlashChips) (sizes : List ℕ) (slot : ℕ) :
    slotAddresses chips sizes = .error (.slotDoesNotFit slot) ↔
      ∃ addrs size, FirstMisfit chips sizes slot addrs size := by
  unfold slotAddresses
  rw [place_refused (within_spaces chips)]
  constructor
  · rintro ⟨i, addrs, size, rfl, hplace, hsize, hroom⟩
    rw [Nat.zero_add]
    refine ⟨addrs, size, hplace, hsize, hroom.first, fun chip hc => ?_⟩
    exact hroom.second ⟨chip.start, chip.stop⟩
      (by simpa [FlashChips.spaces] using ⟨chip, hc, rfl, rfl⟩) chip hc
  · rintro ⟨addrs, size, h⟩
    refine ⟨slot, addrs, size, by omega, h.placed, h.size_eq, h.first, fun second hs chip hc => ?_⟩
    simp only [FlashChips.spaces, Option.mem_def] at hs hc
    rw [hc] at hs
    cases hs
    exact h.second chip hc

/-! ### The ROM data -/

/-- A slot, as the builder places it. -/
structure Slot where
  /-- The slot's first chip is a system or user plugin, which runs where it's linked. -/
  linked : Bool
  size : ℕ
  /-- The ROM table or the plugin, where the slot has data. -/
  image : Option (List UInt8)
  image_size : ∀ data ∈ image, data.length = size

/-- The flash a slot takes. A slot without an image doesn't occupy flash. -/
def Slot.occupied (slot : Slot) : ℕ := if slot.image.isSome then slot.size else 0

/-- What a slot's `data` points at. -/
inductive Pointer
  | addr32 (addr : ℕ)
  | noImage
  deriving DecidableEq, Repr

/-- What a placed slot's `data` points at. -/
def Slot.pointer (slot : Slot) (addr : ℕ) : Pointer :=
  if slot.image.isSome then .addr32 addr else .noImage

/-- Each slot's `data`. Plugins run from where contiguous placement puts them. -/
def slotPointers (contiguous slot : ℕ) : List (Slot × ℕ) → Except Error (List Pointer)
  | [] => .ok []
  | (s, addr) :: slots => do
    if s.linked ∧ addr ≠ contiguous then throw (.pluginMoved slot)
    let pointers ← slotPointers (contiguous + s.occupied) (slot + 1) slots
    return s.pointer addr :: pointers

/-- Where an address is in the ROM data: the first chip from `rom_data_start` on to its end, then
the second chip. -/
def FlashChips.offset (chips : FlashChips) (addr : ℕ) : ℕ :=
  match chips.second.filter (fun chip => chip.Contains addr) with
  | some chip => chips.first.stop - chips.romDataStart + (addr - chip.start)
  | none => addr - chips.romDataStart

def copyFromSlice (buf : List UInt8) (start : ℕ) (image : List UInt8) :
    Except Error (List UInt8) :=
  if start + image.length ≤ buf.length then .ok (splice buf start image) else .error .outOfRange

/-- Copies each slot's image to its offset. -/
def copyImages (chips : FlashChips) (buf : List UInt8) :
    List (Slot × ℕ) → Except Error (List UInt8)
  | [] => .ok buf
  | (slot, addr) :: slots =>
    match slot.image with
    | none => copyImages chips buf slots
    | some image => do copyImages chips (← copyFromSlice buf (chips.offset addr) image) slots

def romDataSize (chips : FlashChips) (addrs sizes : List ℕ) : ℕ :=
  (List.zipWith (fun addr size => chips.offset addr + size) addrs sizes).max?.getD 0

/-- The placement of slots and the ROM data built from their images. -/
def buildSlots (chips : FlashChips) (slots : List Slot) :
    Except Error (List Pointer × List UInt8) := do
  let sizes := slots.map Slot.occupied
  let addrs ← slotAddresses chips sizes
  let pointers ← slotPointers chips.romDataStart 0 (slots.zip addrs)
  let buf := List.replicate (romDataSize chips addrs sizes) 0xFF
  return (pointers, ← copyImages chips buf (slots.zip addrs))

lemma offset_of_le (h : addr ≤ chips.first.stop) : chips.offset addr = addr - chips.romDataStart := by
  have hnone : chips.second.filter (fun chip => chip.Contains addr) = none := by
    rw [Option.filter_eq_none_iff]
    intro chip hc hin
    have := FlashChips.first_stop_lt hc
    have := (of_decide_eq_true hin).1
    omega
  rw [FlashChips.offset, hnone]

lemma offset_of_contains {chip : Range} (hc : chips.second = some chip) (h : chip.Contains addr) :
    chips.offset addr = chips.first.stop - chips.romDataStart + (addr - chip.start) := by
  rw [FlashChips.offset, hc, Option.filter_some_pos (by simpa using h)]

/-- The chip a range lies on, and its place in the ROM data. -/
inductive Lies (chips : FlashChips) (r : Range) : Prop where
  | first (start_le : chips.romDataStart ≤ r.start) (le_stop : r.stop ≤ chips.first.stop)
      (offset_eq : chips.offset r.start = r.start - chips.romDataStart)
  | second (chip : Range) (chip_eq : chips.second = some chip) (start_le : chip.start ≤ r.start)
      (le_stop : r.stop ≤ chip.stop)
      (offset_eq : chips.offset r.start =
        chips.first.stop - chips.romDataStart + (r.start - chip.start))

lemma TakenFrom.lies (hle : r.start ≤ r.stop) (h : TakenFrom chips.spaces r) : Lies chips r := by
  rcases h with ⟨hnext, hstop⟩ | ⟨second, hs, hnext, hlt, hstop⟩
  · exact .first hnext hstop (offset_of_le (hle.trans hstop))
  · obtain ⟨chip, hc, rfl⟩ := Option.map_eq_some_iff.mp hs
    exact .second chip hc hnext hstop (offset_of_contains hc ⟨hnext, hlt.trans_le hstop⟩)

/-- A range that follows another in flash is apart from it in the ROM data too. -/
lemma Follows.apart {a b : Range} (ha : Lies chips a) (hb : Lies chips b) (hsa : a.start ≤ a.stop)
    (hsb : b.start ≤ b.stop) (h : Follows chips a b) :
    chips.offset a.start + (a.stop - a.start) ≤ chips.offset b.start ∨
      chips.offset b.start + (b.stop - b.start) ≤ chips.offset a.start := by
  simp only [Follows] at h
  cases ha with
  | first hsta hsto hoff =>
    cases hb with
    | first hsta' hsto' hoff' => rw [hoff, hoff']; omega
    | second chip hc hsta' hsto' hoff' => rw [hoff, hoff']; omega
  | second chip hc hsta hsto hoff =>
    have := FlashChips.first_stop_lt hc
    cases hb with
    | first hsta' hsto' hoff' => rw [hoff, hoff']; omega
    | second chip' hc' hsta' hsto' hoff' =>
      obtain rfl := Option.some.inj (hc.symm.trans hc')
      have := FlashChips.first_stop_lt hc'
      rw [hoff, hoff']
      omega

lemma le_romDataSize {addrs sizes : List ℕ} {addr size : ℕ}
    (h : (addr, size) ∈ addrs.zip sizes) :
    chips.offset addr + size ≤ romDataSize chips addrs sizes := by
  have hmem : chips.offset addr + size ∈
      List.zipWith (fun addr size => chips.offset addr + size) addrs sizes := by
    rw [← List.map_uncurry_zip_eq_zipWith]
    exact List.mem_map.mpr ⟨_, h, rfl⟩
  exact List.le_max?_getD_of_mem hmem

lemma romDataSize_mem (chips : FlashChips) (addrs sizes : List ℕ) :
    romDataSize chips addrs sizes = 0 ∨
      ∃ addr size, (addr, size) ∈ addrs.zip sizes ∧
        chips.offset addr + size = romDataSize chips addrs sizes := by
  unfold romDataSize
  cases hm : (List.zipWith (fun addr size => chips.offset addr + size) addrs sizes).max? with
  | none => exact Or.inl rfl
  | some m =>
    right
    have hmem := List.max?_mem hm
    rw [← List.map_uncurry_zip_eq_zipWith] at hmem
    obtain ⟨⟨addr, size⟩, hin, heq⟩ := List.mem_map.mp hmem
    exact ⟨addr, size, hin, heq⟩

/-- The addresses a placed slot takes. -/
def slotRange (placed : Slot × ℕ) : Range := ⟨placed.2, placed.2 + placed.1.occupied⟩

/-- The images of placed slots and where they are in the ROM data. -/
def blocks (chips : FlashChips) (slots : List (Slot × ℕ)) : List (Block UInt8) :=
  slots.filterMap fun placed => placed.1.image.map fun data => ⟨chips.offset placed.2, data⟩

lemma ranges_slots (slots : List Slot) (addrs : List ℕ) :
    ranges addrs (slots.map Slot.occupied) = (slots.zip addrs).map slotRange := by
  induction slots generalizing addrs with
  | nil => cases addrs <;> rfl
  | cons slot slots ih =>
    cases addrs with
    | nil => rfl
    | cons addr addrs => simp [ih, slotRange]

lemma Slot.length_image {slot : Slot} {data : List UInt8} (h : slot.image = some data) :
    data.length = slot.occupied := by
  simp [Slot.occupied, h, slot.image_size data h]

/-- The block of a slot's image spans what the slot occupies. -/
lemma mem_blocks {slots : List (Slot × ℕ)} {b : Block UInt8} (h : b ∈ blocks chips slots) :
    ∃ placed ∈ slots, placed.1.image = some b.data ∧ b.start = chips.offset placed.2 ∧
      b.stop = chips.offset placed.2 + placed.1.occupied := by
  obtain ⟨placed, hmem, hb⟩ := List.mem_filterMap.mp h
  obtain ⟨data, hdata, rfl⟩ := Option.map_eq_some_iff.mp hb
  exact ⟨placed, hmem, hdata, rfl, by rw [Block.stop, Slot.length_image hdata]⟩

lemma copyImages_eq {slots : List (Slot × ℕ)} {buf : List UInt8}
    (h : ∀ b ∈ blocks chips slots, b.stop ≤ buf.length) :
    copyImages chips buf slots = .ok (overlay buf (blocks chips slots)) := by
  induction slots generalizing buf with
  | nil => rfl
  | cons placed slots ih =>
    obtain ⟨slot, addr⟩ := placed
    cases himg : slot.image with
    | none => simpa [copyImages, blocks, himg] using ih (by simpa [blocks, himg] using h)
    | some data =>
      have hblocks : blocks chips ((slot, addr) :: slots) =
          ⟨chips.offset addr, data⟩ :: blocks chips slots := by simp [blocks, himg]
      rw [hblocks] at h ⊢
      have hfit := h ⟨chips.offset addr, data⟩ (by simp)
      have hlen := length_splice hfit
      simp only [Block.stop] at hfit
      simp only [copyImages, himg, copyFromSlice, if_pos hfit]
      exact ih fun b hb => by rw [hlen]; exact h b (by simp [hb])

variable {slots : List Slot}

/-- Every slot placed lies on a chip. -/
lemma lies_of_placed (h : slotAddresses chips sizes = .ok addrs) :
    ∀ r ∈ ranges addrs sizes, r.start ≤ r.stop ∧ Lies chips r := by
  intro r hr
  obtain ⟨addr, -, size, -, rfl⟩ := mem_ranges hr
  have hle := Nat.le_add_right addr size
  exact ⟨hle, (place_taken (within_spaces chips) h _ hr).lies hle⟩

lemma blocks_apart (h : slotAddresses chips (slots.map Slot.occupied) = .ok addrs) :
    (blocks chips (slots.zip addrs)).Pairwise Apart := by
  have hlies := lies_of_placed h
  have hfollows := place_follows (within_spaces chips) h
  rw [ranges_slots] at hlies hfollows
  simp only [List.forall_mem_map] at hlies
  rw [List.pairwise_map] at hfollows
  refine List.pairwise_filterMap.mpr (hfollows.imp_of_mem fun {a b} ha hb hab => ?_)
  rintro _ hda _ hdb
  obtain ⟨da, hia, rfl⟩ := Option.map_eq_some_iff.mp hda
  obtain ⟨db, hib, rfl⟩ := Option.map_eq_some_iff.mp hdb
  obtain ⟨hsa, hla⟩ := hlies a ha
  obtain ⟨hsb, hlb⟩ := hlies b hb
  have := hab.apart hla hlb hsa hsb
  simp only [slotRange, Nat.add_sub_cancel_left] at this
  simpa [Apart, Block.stop, Slot.length_image hia, Slot.length_image hib] using this

lemma mem_zip_occupied {placed : Slot × ℕ} (h : placed ∈ slots.zip addrs) :
    (placed.2, placed.1.occupied) ∈ addrs.zip (slots.map Slot.occupied) := by
  rw [List.zip_map_right, ← List.zip_swap, List.map_map]
  exact List.mem_map.mpr ⟨placed, h, rfl⟩

lemma stop_le_romDataSize {placed : Slot × ℕ} (h : placed ∈ slots.zip addrs) :
    chips.offset placed.2 + placed.1.occupied ≤
      romDataSize chips addrs (slots.map Slot.occupied) :=
  le_romDataSize (mem_zip_occupied h)

lemma blocks_fit : ∀ b ∈ blocks chips (slots.zip addrs),
    b.stop ≤ romDataSize chips addrs (slots.map Slot.occupied) := by
  intro b hb
  obtain ⟨placed, hmem, -, -, hstop⟩ := mem_blocks hb
  rw [hstop]
  exact stop_le_romDataSize hmem

/-! ### Placement and ROM data are exact -/

/-- The slots' ranges are apart, each on one chip, and in slot order on each chip. -/
structure WellPlaced (chips : FlashChips) (addrs sizes : List ℕ) : Prop where
  length_eq : addrs.length = sizes.length
  disjoint : (ranges addrs sizes).Pairwise fun a b =>
    Disjoint (Set.Ico a.start a.stop) (Set.Ico b.start b.stop)
  on_chip : ∀ r ∈ ranges addrs sizes, r.start < r.stop →
    (chips.romDataStart ≤ r.start ∧ r.stop ≤ chips.first.stop) ∨
      ∃ chip ∈ chips.second, chip.start ≤ r.start ∧ r.stop ≤ chip.stop
  ordered : ∀ chip, chip = chips.first ∨ chip ∈ chips.second →
    ((ranges addrs sizes).filter (chip.Contains ·.start)).Pairwise fun a b => a.stop ≤ b.start

/-- The buffer holds each slot's image at its offset and 0xFF elsewhere, and ends where the
highest image ends. -/
structure WellFilled (chips : FlashChips) (placed : List (Slot × ℕ)) (buf : List UInt8) :
    Prop where
  image : ∀ p ∈ placed, ∀ data ∈ p.1.image, ∀ i < data.length,
    buf[chips.offset p.2 + i]? = data[i]?
  pad : ∀ k < buf.length,
    (∀ p ∈ placed, k < chips.offset p.2 ∨ chips.offset p.2 + p.1.occupied ≤ k) →
      buf[k]? = some 0xFF
  stop_le : ∀ p ∈ placed, chips.offset p.2 + p.1.occupied ≤ buf.length
  length_eq : buf.length = 0 ∨
    ∃ p ∈ placed, buf.length = chips.offset p.2 + p.1.occupied

lemma wellPlaced (h : slotAddresses chips sizes = .ok addrs) : WellPlaced chips addrs sizes := by
  have hlies := lies_of_placed h
  have hfollows := place_follows (within_spaces chips) h
  refine ⟨length_place h, hfollows.imp_of_mem fun {a b} ha hb hab => ?_, fun r hr _ => ?_,
    fun chip hchip => ?_⟩
  · rw [Set.Ico_disjoint_Ico]
    rcases hab with hab | ⟨hb, ha⟩ <;> omega
  · cases (hlies r hr).2 with
    | first hstart hstop => exact Or.inl ⟨hstart, hstop⟩
    | second chip hc hstart hstop => exact Or.inr ⟨chip, hc, hstart, hstop⟩
  · refine List.Pairwise.imp_of_mem (fun {a b} ha hb hab => ?_) (hfollows.filter _)
    obtain ⟨-, ha⟩ := List.mem_filter.mp ha
    obtain ⟨hb, hin⟩ := List.mem_filter.mp hb
    have ha := (of_decide_eq_true ha).2
    have hin := (of_decide_eq_true hin).1
    rcases hab with hab | ⟨hstop, hlt⟩
    · exact hab
    · rcases hchip with rfl | hc
      · omega
      · have := FlashChips.first_stop_lt hc
        have := (hlies b hb).1
        omega

/-- Where placement succeeds, every image is copied within the buffer. -/
lemma buildSlots_eq (h : slotAddresses chips (slots.map Slot.occupied) = .ok addrs) :
    buildSlots chips slots = (slotPointers chips.romDataStart 0 (slots.zip addrs)).map fun pointers =>
      (pointers, overlay (List.replicate (romDataSize chips addrs (slots.map Slot.occupied)) 0xFF)
        (blocks chips (slots.zip addrs))) := by
  have hcopy : copyImages chips
      (List.replicate (romDataSize chips addrs (slots.map Slot.occupied)) 0xFF)
      (slots.zip addrs) = .ok _ :=
    copyImages_eq (by rw [List.length_replicate]; exact blocks_fit)
  unfold buildSlots
  simp only [h]
  change (slotPointers _ _ _ >>= fun pointers => copyImages _ _ _ >>= fun buf => _) = _
  rw [hcopy]
  cases slotPointers chips.romDataStart 0 (slots.zip addrs) <;> rfl

lemma wellFilled (h : slotAddresses chips (slots.map Slot.occupied) = .ok addrs) :
    WellFilled chips (slots.zip addrs) (overlay
      (List.replicate (romDataSize chips addrs (slots.map Slot.occupied)) 0xFF)
      (blocks chips (slots.zip addrs))) := by
  have hfit : ∀ b ∈ blocks chips (slots.zip addrs), b.stop ≤
      (List.replicate (romDataSize chips addrs (slots.map Slot.occupied)) (0xFF : UInt8)).length := by
    rw [List.length_replicate]
    exact blocks_fit
  have hlen := length_overlay hfit
  rw [List.length_replicate] at hlen
  refine ⟨fun p hp data hdata i hi => ?_, fun k hk hout => ?_, fun p hp => ?_, ?_⟩
  · have hmem : ⟨chips.offset p.2, data⟩ ∈ blocks chips (slots.zip addrs) :=
      List.mem_filterMap.mpr ⟨p, hp, by simp [Option.mem_def.mp hdata]⟩
    exact getElem?_overlay_of_mem hfit (blocks_apart h) hmem hi
  · rw [getElem?_overlay_of_outside hfit fun b hb => ?_]
    · rw [hlen] at hk
      simp [hk]
    · obtain ⟨p, hp, -, hstart, hstop⟩ := mem_blocks hb
      rw [Outside, hstart, hstop]
      exact hout p hp
  · rw [hlen]
    exact stop_le_romDataSize hp
  · rw [hlen]
    rcases romDataSize_mem chips addrs (slots.map Slot.occupied) with h0 | ⟨addr, size, hmem, heq⟩
    · exact Or.inl h0
    · rw [List.zip_map_right, ← List.zip_swap, List.map_map] at hmem
      obtain ⟨p, hp, hpair⟩ := List.mem_map.mp hmem
      obtain ⟨rfl, rfl⟩ := Prod.mk.inj hpair
      exact Or.inr ⟨p, hp, heq.symm⟩

/-- Every slot with data points at its address, unless a plugin isn't where it's linked to
run. -/
lemma slotPointers_cases (contiguous n : ℕ) (placed : List (Slot × ℕ)) :
    slotPointers contiguous n placed = .ok (placed.map fun p => p.1.pointer p.2) ∨
      ∃ slot, slotPointers contiguous n placed = .error (.pluginMoved slot) := by
  induction placed generalizing contiguous n with
  | nil => exact Or.inl rfl
  | cons p placed ih =>
    obtain ⟨s, addr⟩ := p
    unfold slotPointers
    by_cases hmoved : s.linked ∧ addr ≠ contiguous
    · exact Or.inr ⟨n, by rw [if_pos hmoved]; rfl⟩
    · rw [if_neg hmoved]
      rcases ih (contiguous + s.occupied) (n + 1) with h | ⟨slot, h⟩
      · exact Or.inl (by rw [h]; rfl)
      · exact Or.inr ⟨slot, by rw [h]; rfl⟩

lemma place_error {e : Error} (h : spaces.place slot sizes = .error e) :
    ∃ n, e = .slotDoesNotFit n := by
  induction sizes generalizing spaces slot with
  | nil => cases h
  | cons size sizes ih =>
    unfold Spaces.place at h
    split at h
    · next spaces' _ =>
      cases hrest : spaces'.place (slot + 1) sizes with
      | ok rest => rw [hrest] at h; cases h
      | error e' =>
        rw [hrest] at h
        cases h
        exact ih hrest
    · cases h
      exact ⟨slot, rfl⟩

/-- The outcomes of building the slots: a slot that doesn't fit, a plugin that isn't where it's
linked to run, or the slots placed and the ROM data filled. -/
lemma buildSlots_cases (chips : FlashChips) (slots : List Slot) :
    (∃ slot, slotAddresses chips (slots.map Slot.occupied) = .error (.slotDoesNotFit slot) ∧
      buildSlots chips slots = .error (.slotDoesNotFit slot)) ∨
    ∃ addrs, slotAddresses chips (slots.map Slot.occupied) = .ok addrs ∧
      ((∃ slot, buildSlots chips slots = .error (.pluginMoved slot)) ∨
        ∃ buf, WellFilled chips (slots.zip addrs) buf ∧
          buildSlots chips slots = .ok ((slots.zip addrs).map fun p => p.1.pointer p.2, buf)) := by
  cases h : slotAddresses chips (slots.map Slot.occupied) with
  | error e =>
    obtain ⟨slot, rfl⟩ := place_error h
    exact Or.inl ⟨slot, rfl, by unfold buildSlots; simp only [h]; rfl⟩
  | ok addrs =>
    refine Or.inr ⟨addrs, rfl, ?_⟩
    rw [buildSlots_eq h]
    rcases slotPointers_cases chips.romDataStart 0 (slots.zip addrs) with hp | ⟨slot, hp⟩
    · exact Or.inr ⟨_, wellFilled h, by rw [hp]; rfl⟩
    · exact Or.inl ⟨slot, by rw [hp]; rfl⟩

/-- **Flash composition**: slots are placed apart, each on one chip and in order; placement is
refused exactly at the first slot that fits neither chip; and the ROM data holds each slot's
image at the offset of the address its `data` points at, 0xFF elsewhere, and ends with the
highest. No image is copied past its end. -/
theorem slots_exact (chips : FlashChips) :
    (∀ sizes addrs, slotAddresses chips sizes = .ok addrs → WellPlaced chips addrs sizes) ∧
    (∀ sizes slot, slotAddresses chips sizes = .error (.slotDoesNotFit slot) ↔
      ∃ addrs size, FirstMisfit chips sizes slot addrs size) ∧
    (∀ slots addrs pointers buf, slotAddresses chips (slots.map Slot.occupied) = .ok addrs →
      buildSlots chips slots = .ok (pointers, buf) →
        WellFilled chips (slots.zip addrs) buf ∧
          pointers = (slots.zip addrs).map fun p => p.1.pointer p.2) ∧
    (∀ slots, buildSlots chips slots ≠ .error .outOfRange) := by
  refine ⟨fun sizes addrs => wellPlaced, refused_iff chips, ?_, fun slots hout => ?_⟩
  · intro slots addrs pointers buf h hbuild
    rcases buildSlots_cases chips slots with ⟨slot, -, hb⟩ | ⟨addrs', ha, ⟨slot, hb⟩ | ⟨buf', hw, hb⟩⟩
    · rw [hb] at hbuild; cases hbuild
    · rw [hb] at hbuild; cases hbuild
    · obtain rfl := Except.ok.inj (h.symm.trans ha)
      rw [hb] at hbuild
      cases hbuild
      exact ⟨hw, rfl⟩
  · rcases buildSlots_cases chips slots with ⟨slot, -, hb⟩ | ⟨addrs', ha, ⟨slot, hb⟩ | ⟨buf', -, hb⟩⟩ <;>
      rw [hb] at hout <;> cases hout

/-- Four slots on a board with two chips, the third on the second chip and the last back on the
first. -/
theorem slots_exact_l :
    WellPlaced (FlashChips.new .rp2350 .l) [0x10010000, 0x10110000, 0x11000000, 0x10190000]
      [0x100000, 0x80000, 0x80000, 0x40000] :=
  (slots_exact (FlashChips.new .rp2350 .l)).1 _ _ (by decide)

end OneRom.Flash
