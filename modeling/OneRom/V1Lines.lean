import OneRom.V1Image

/-!
Where a chip's address lines are in a physical address, and what a byte of an image reads back as.

The lines are at the bits whose GPIOs they are bonded to. That is checked for each board and each
chip type it supports, and is all that the images rest on.
-/

namespace OneRom.V1Lines

open OneRom.BitLines OneRom.ChipTypes OneRom.SelectJumpers OneRom.SlotLayout OneRom.V1Boards
open OneRom.V1Image
open OneRom.RomImage (isPowerOfTwo PAD_NO_CHIP_BYTE)

variable {board : V1Board} {map : AddrMap} {address n k w : ℕ} {t : ChipType}

/-! ### Address lines -/

/-- The bits of a physical address that are an address line. -/
def pinsOf (map : AddrMap) (line : ℕ) : List ℕ :=
  (List.range map.length).filter fun pin => map[pin]? = some (some line)

lemma testBit_takeLine (result : ℕ) (entry : Option ℕ × ℕ) :
    (takeLine address n result entry).testBit k =
      (result.testBit k || (entry.1 == some k && decide (k < n) && address.testBit entry.2)) := by
  obtain ⟨item, pin⟩ := entry
  cases item with
  | none => simp [takeLine]
  | some addrBit =>
    have hbit : (1 <<< addrBit).testBit k = decide (addrBit = k) := by
      rw [Nat.one_shiftLeft, Nat.testBit_two_pow]
    have hstep : takeLine address n result (some addrBit, pin) =
        if addrBit < n ∧ address.testBit pin then result ||| 1 <<< addrBit else result := rfl
    rw [hstep]
    by_cases heq : addrBit = k
    · subst heq
      by_cases hbelow : addrBit < n <;> cases hlevel : address.testBit pin <;>
        simp [hbelow, hbit]
    · have hne : (some addrBit == some k) = false := by simpa using heq
      split_ifs
      · rw [Nat.testBit_or, hbit]
        simp [heq]
      · simp [heq]

lemma testBit_foldl_takeLine (l : List (Option ℕ × ℕ)) (result : ℕ) :
    (l.foldl (takeLine address n) result).testBit k = (result.testBit k ||
      l.any fun e => e.1 == some k && decide (k < n) && address.testBit e.2) := by
  induction l generalizing result with
  | nil => simp
  | cons e l ih => rw [List.foldl_cons, ih, List.any_cons, testBit_takeLine, Bool.or_assoc]

/-- A line of the logical address is the level of its bit. -/
lemma testBit_addressToLogical : (addressToLogical map address n).testBit k =
    (decide (k < n) && (pinsOf map k).any address.testBit) := by
  rw [addressToLogical, testBit_foldl_takeLine, Nat.zero_testBit, Bool.false_or, Bool.eq_iff_iff, List.any_eq_true,
    Bool.and_eq_true, List.any_eq_true]
  constructor
  · rintro ⟨⟨item, pin⟩, hmem, h⟩
    simp only [Bool.and_eq_true, beq_iff_eq, decide_eq_true_eq] at h
    obtain ⟨⟨rfl, hk⟩, hlevel⟩ := h
    have hget := List.mem_zipIdx_iff_getElem?.mp hmem
    have hpin := (List.getElem?_eq_some_iff.mp hget).1
    exact ⟨by simpa using hk, pin, by simpa [pinsOf] using ⟨hpin, hget⟩, hlevel⟩
  · rintro ⟨hk, pin, hmem, hlevel⟩
    obtain ⟨-, hget⟩ : pin < map.length ∧ map[pin]? = some (some k) := by
      simpa [pinsOf] using hmem
    exact ⟨(some k, pin), List.mem_zipIdx_iff_getElem?.mpr hget, by simpa [hlevel] using hk⟩

/-! ### What a chip sees -/

/-- How many bits of a physical address come before the first that is read for a chip: those that
are of no line of its own. -/
def skipped (board : V1Board) (t : ChipType) : ℕ :=
  if board.chipPins = 28 then
    if t = .chip231024 ∨ t = .chip2364 then 0
    else if t = .chip23QL512 ∨ t = .chip23QL384 then if ceFirst board then 1 else 0
    else 2
  else if t = .chip27C301 then if board.name = "fire-32-a" then 1 else 2
  else if t = .chipSST39SF040 then 1
  else 0

/-- The GPIO that is bit 0 of a chip's physical addresses. -/
def firstGpio (board : V1Board) (t : ChipType) : ℕ := board.addrShift + skipped board t

/-- The level of a GPIO at a physical address. -/
def gpioLevel (board : V1Board) (t : ChipType) (address gpio : ℕ) : Bool :=
  decide (firstGpio board t ≤ gpio) && address.testBit (gpio - firstGpio board t)

/-- The address lines that select a byte of an image. The twentieth of a 27C080 selects between two
One ROMs. -/
def servedLines (t : ChipType) : ℕ := min t.numAddrLines MAX_ADDR_PINS

/-- The logical address a chip sees at a physical address: each line has the level of its GPIO. -/
def seenAddress (board : V1Board) (t : ChipType) (address : ℕ) : ℕ :=
  Nat.ofBits fun line : Fin (servedLines t) =>
    (board.lineGpios t line).any (gpioLevel board t address)

lemma seenAddress_lt : seenAddress board t address < 2 ^ servedLines t := Nat.ofBits_lt_two_pow _

/-- The GPIOs of a line that are among those a physical address is the levels of. -/
def gpiosIn (board : V1Board) (t : ChipType) (w line : ℕ) : List ℕ :=
  (board.lineGpios t line).filter fun gpio =>
    decide (firstGpio board t ≤ gpio) && decide (gpio < firstGpio board t + w)

/-- Each line has one bit, that of the one GPIO of its that is read. -/
structure Laid (board : V1Board) (t : ChipType) (w : ℕ) (map : AddrMap) : Prop where
  lines : ∀ line < servedLines t, ∃ pin < w, pinsOf map line = [pin] ∧
    gpiosIn board t w line = [firstGpio board t + pin]
  below : ∀ line ∈ map.filterMap id, line < servedLines t
  size : 2 ^ servedLines t ≤ t.sizeBytes ∨ isPowerOfTwo t.sizeBytes = false

instance (board : V1Board) (t : ChipType) (w : ℕ) (map : AddrMap) : Decidable (Laid board t w map) :=
  decidable_of_iff (_ ∧ _ ∧ _) ⟨fun h => ⟨h.1, h.2.1, h.2.2⟩, fun h => ⟨h.lines, h.below, h.size⟩⟩

lemma Laid.any_gpios (h : Laid board t w map) (haddress : address < 2 ^ w)
    (hk : k < servedLines t) :
    (board.lineGpios t k).any (gpioLevel board t address) = (pinsOf map k).any address.testBit := by
  obtain ⟨pin, hpin, hpins, hgpios⟩ := h.lines k hk
  have hread : ∀ gpio ∈ board.lineGpios t k, gpioLevel board t address gpio = true →
      gpio ∈ gpiosIn board t w k := by
    intro gpio hgpio hlevel
    obtain ⟨hfirst, hbit⟩ : firstGpio board t ≤ gpio ∧
        address.testBit (gpio - firstGpio board t) = true := by
      simpa [gpioLevel] using hlevel
    have hlt : gpio - firstGpio board t < w := by
      by_contra hge
      rw [Nat.testBit_lt_two_pow (haddress.trans_le (Nat.pow_le_pow_right (by decide)
        (not_lt.mp hge)))] at hbit
      cases hbit
    have hwindow : gpio < firstGpio board t + w := by omega
    simpa [gpiosIn, hfirst, hwindow] using hgpio
  have hpinGpio : firstGpio board t + pin ∈ board.lineGpios t k :=
    List.mem_of_mem_filter (hgpios ▸ List.mem_singleton_self _)
  rw [hpins, List.any_cons, List.any_nil, Bool.or_false, Bool.eq_iff_iff, List.any_eq_true]
  constructor
  · rintro ⟨gpio, hgpio, hlevel⟩
    have hmem := hread gpio hgpio hlevel
    rw [hgpios, List.mem_singleton] at hmem
    subst hmem
    simpa [gpioLevel] using hlevel
  · intro hbit
    exact ⟨_, hpinGpio, by simpa [gpioLevel] using hbit⟩

/-- **What an image is indexed by** is what the chip sees. -/
lemma Laid.addressToLogical (h : Laid board t w map) (haddress : address < 2 ^ w) :
    addressToLogical map address t.numAddrLines = seenAddress board t address := by
  refine Nat.eq_of_testBit_eq fun k => ?_
  rw [testBit_addressToLogical]
  by_cases hk : k < servedLines t
  · have hlines : k < t.numAddrLines := lt_of_lt_of_le hk (min_le_left _ _)
    rw [seenAddress, Nat.testBit_ofBits_lt _ _ hk, h.any_gpios haddress hk]
    simp [hlines]
  · have hnone : pinsOf map k = [] := by
      refine List.filter_eq_nil_iff.mpr fun pin _ hpin => hk (h.below k ?_)
      exact List.mem_filterMap.mpr ⟨some k, List.mem_of_getElem? (by simpa using hpin), rfl⟩
    have hlt : seenAddress board t address < 2 ^ k :=
      seenAddress_lt.trans_le (Nat.pow_le_pow_right (by decide) (not_lt.mp hk))
    rw [hnone, Nat.testBit_lt_two_pow hlt]
    simp

end OneRom.V1Lines
