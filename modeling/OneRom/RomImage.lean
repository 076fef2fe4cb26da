import OneRom.BitLines
import OneRom.SlotLayout

/-!
The ROM table of a slot: one entry for each value of the address window.

An entry is the word of the chip its index selects, at the address its index holds, with the
bits moved to where the data GPIOs are. `table_serves` says what the host reads back.
-/

namespace OneRom.RomImage

open OneRom.BitLines OneRom.ChipTypes OneRom.SlotLayout

/-- What the host reads where there is no chip. -/
def PAD_NO_CHIP_BYTE : UInt8 := 0xAA

inductive Error
  | romTableTooLarge (size max : ℕ)
  | invalidConfig (error : String)
  | missingImageData (chipType : ChipType) (index : ℕ)
  | panic
  deriving DecidableEq, Repr

/-- A value that is expected to be there. -/
def expect {α : Type} : Option α → Except Error α
  | some x => .ok x
  | none => .error .panic

/-- Bit `d` of `raw`, the chip's data line `d`, moves to bit `dataBitPositions[d]`. -/
def mangleWord (raw : ℕ) (dataBitPositions : List ℕ) : ℕ := scatter raw dataBitPositions

/-- The place of a GPIO above `base`. -/
def bitPosition (base gpio : ℕ) : Except Error ℕ :=
  if base ≤ gpio then .ok (gpio - base) else .error .panic

/-- The bits of the bank number. -/
def bankBitPositions (layout : AddrLayout) (setType : ChipSetType) (chips : List Chip) :
    Except Error (List ℕ) := do
  let n := chips.length
  match setType with
  | .single =>
    if n ≠ 1 then throw (.invalidConfig s!"Single set must have exactly 1 chip, got {n}")
    return []
  | .banked =>
    let x1Bit ← bitPosition layout.gpioBase (← expect layout.x1Gpio)
    match n with
    | 2 => return [x1Bit]
    | 3 | 4 => return [x1Bit, ← bitPosition layout.gpioBase (← expect layout.x2Gpio)]
    | n => throw (.invalidConfig s!"Banked set must have 2, 3 or 4 chips, got {n}")
  | .multi =>
    if n < 2 ∨ 3 < n then
      throw (.invalidConfig s!"Multi set must have 2 or 3 chips, got {n}")
    return []

/-- The bits that select the chips of a Multi set, exactly one of them high: CS1, X1 and, for a
third chip, X2. -/
structure MultiSelect where
  cs1Bit : ℕ
  x1Bit : ℕ
  x2Bit : Option ℕ

def multiSelect (layout : AddrLayout) (cs : CsDataLayout) (setType : ChipSetType)
    (chips : List Chip) : Except Error (Option MultiSelect) := do
  if setType = .multi then
    let cs1 ← expect cs.selectLines.head?
    let cs1Bit ← bitPosition layout.gpioBase cs1.gpio
    let x1Bit ← bitPosition layout.gpioBase (← expect layout.x1Gpio)
    if 3 ≤ chips.length then
      let x2Bit ← bitPosition layout.gpioBase (← expect layout.x2Gpio)
      return some ⟨cs1Bit, x1Bit, some x2Bit⟩
    else return some ⟨cs1Bit, x1Bit, none⟩
  else return none

/-- The chip a table index selects. -/
def chipIndex (bankBits : List ℕ) (select : Option MultiSelect) (numChips i : ℕ) : Option ℕ :=
  match select with
  | some s =>
    match i.testBit s.cs1Bit, i.testBit s.x1Bit, s.x2Bit.any i.testBit with
    | true, false, false => some 0
    | false, true, false => some 1
    | false, false, true => if 3 ≤ numChips then some 2 else none
    | _, _, _ => none
  | none =>
    let bankIndex := gather i bankBits
    if bankIndex < numChips then some bankIndex else none

/-- The pad word: as many pad bytes as a word has. -/
def padRaw (wordBytes : ℕ) : ℕ :=
  (List.range wordBytes).foldl (fun acc b => acc ||| PAD_NO_CHIP_BYTE.toNat <<< (8 * b)) 0

def isPowerOfTwo (n : ℕ) : Bool := n == 2 ^ n.log2

/-- The word of an image at a word address. -/
def rawWord (wordBytes : ℕ) (image : List UInt8) (chipAddr : ℕ) : Except Error ℕ := do
  match wordBytes with
  | 1 => return (← expect image[chipAddr]?).toNat
  | 2 =>
    let byteAddr := chipAddr * 2
    let low ← expect image[byteAddr]?
    let high ← expect image[byteAddr + 1]?
    return low.toNat ||| high.toNat <<< 8
  | _ => throw .panic

/-- The bytes of a word, the lowest first. -/
def wordBytesOf (wordBytes word : ℕ) : List UInt8 :=
  (List.range wordBytes).map fun b => UInt8.ofNat (word >>> (8 * b) &&& 0xFF)

/-- The word of the chip at `chipIndex`, before its bits are moved: mirrored or padded above the
chip's own words. -/
def chipWord (wordBytes : ℕ) (chipData : List (List UInt8)) (chipWordCounts : List ℕ)
    (index chipAddr : ℕ) : Except Error ℕ := do
  let chipSize ← expect chipWordCounts[index]?
  let image ← expect chipData[index]?
  if chipSize ≤ chipAddr then
    if isPowerOfTwo chipSize then rawWord wordBytes image (chipAddr &&& (chipSize - 1))
    else return padRaw wordBytes
  else rawWord wordBytes image chipAddr

/-- The image of the chip at an index. -/
def imageData : Chip × ℕ → Except Error (List UInt8)
  | (chip, index) =>
    match chip.data with
    | some data => .ok data
    | none => .error (.missingImageData chip.chipType index)

def buildRomImage (layout : AddrLayout) (cs : CsDataLayout) (setType : ChipSetType)
    (chips : List Chip) (algDma : OneromAlgDmaConfig) : Except Error (List UInt8) := do
  let entries := tableEntries layout
  let wordBytes := bytesPerWord algDma
  let imageSize := entries * wordBytes
  if MAX_IMAGE_SIZE < imageSize then throw (.romTableTooLarge imageSize MAX_IMAGE_SIZE)
  let addrBits ← layout.addrPinGpios.mapM (bitPosition layout.gpioBase)
  let bankBits ← bankBitPositions layout setType chips
  let select ← multiSelect layout cs setType chips
  let dataBits ← cs.dataPinGpios.mapM (bitPosition (cs.gpioBase + cs.baseDataPin))
  let chipData ← chips.zipIdx.mapM imageData
  let chipWordCounts := chips.map fun chip => chip.chipType.sizeBytes / wordBytes
  let words ← (List.range entries).mapM fun i => do
    match chipIndex bankBits select chips.length i with
    | none => return mangleWord (padRaw wordBytes) dataBits
    | some index =>
      let raw ← chipWord wordBytes chipData chipWordCounts index (gather i addrBits)
      return mangleWord raw dataBits
  return words.flatMap (wordBytesOf wordBytes)

/-! ### What a table is built from -/

/-- The GPIOs that select among the chips of a set, in bit order: X1 and X2 number the bank of a
Banked set, and each chip of a Multi set has one of its own. -/
inductive SelectGpios (layout : AddrLayout) (cs : CsDataLayout) :
    ChipSetType → ℕ → List ℕ → Prop where
  | single : SelectGpios layout cs .single 1 []
  | banked2 {x1 : ℕ} : layout.x1Gpio = some x1 → SelectGpios layout cs .banked 2 [x1]
  | banked {n x1 x2 : ℕ} : n = 3 ∨ n = 4 → layout.x1Gpio = some x1 → layout.x2Gpio = some x2 →
      SelectGpios layout cs .banked n [x1, x2]
  | multi2 {line : SelectLine} {x1 : ℕ} : cs.selectLines.head? = some line →
      layout.x1Gpio = some x1 → SelectGpios layout cs .multi 2 [line.gpio, x1]
  | multi3 {line : SelectLine} {x1 x2 : ℕ} : cs.selectLines.head? = some line →
      layout.x1Gpio = some x1 → layout.x2Gpio = some x2 →
      SelectGpios layout cs .multi 3 [line.gpio, x1, x2]

/-- Layouts and chips a table is built from: the address and select GPIOs are apart and within
the address window, the data GPIOs are a run in some order, the chips have full images, and the
table isn't too large. -/
structure Servable (layout : AddrLayout) (cs : CsDataLayout) (setType : ChipSetType)
    (chips : List Chip) (algDma : OneromAlgDmaConfig) (select : List ℕ) : Prop where
  selects : SelectGpios layout cs setType chips.length select
  nodup : (layout.addrPinGpios ++ select).Nodup
  within : ∀ g ∈ layout.addrPinGpios ++ select,
    layout.gpioBase ≤ g ∧ g < layout.gpioBase + layout.numAddrPins
  data : cs.dataPinGpios.Perm
    (List.range' (cs.gpioBase + cs.baseDataPin) (8 * bytesPerWord algDma))
  images : ∀ chip ∈ chips, ∃ data, chip.data = some data ∧ data.length = chip.chipType.sizeBytes
  fits : romTableSize layout algDma ≤ MAX_IMAGE_SIZE

/-- The level of select GPIO `j` that selects chip `k`. -/
def selectLevel (setType : ChipSetType) (k j : ℕ) : Bool :=
  match setType with
  | .multi => j == k
  | _ => k.testBit j

/-- The host drives the address `a`, and the select GPIOs choose chip `k`. -/
structure Drives (layout : AddrLayout) (setType : ChipSetType) (select : List ℕ)
    (levels : ℕ → Bool) (a k : ℕ) : Prop where
  address : ∀ i g, layout.addrPinGpios[i]? = some g → levels g = a.testBit i
  chosen : ∀ j g, select[j]? = some g → levels g = selectLevel setType k j

/-- The word at a place of an image or a table, the lowest byte first. -/
def imageWord (wordBytes : ℕ) (image : List UInt8) (place : ℕ) : ℕ :=
  Nat.ofDigits 256 (((image.drop (wordBytes * place)).take wordBytes).map UInt8.toNat)

/-- The word the host reads where there is no chip. -/
def padWord (wordBytes : ℕ) : ℕ :=
  Nat.ofDigits 256 (List.replicate wordBytes PAD_NO_CHIP_BYTE.toNat)

/-- The word a chip serves at an address: its own, mirrored above its size where that is a power
of two, and pad bytes otherwise. -/
def servedWord (wordBytes : ℕ) (chipType : ChipType) (image : List UInt8) (a : ℕ) : ℕ :=
  let words := chipType.sizeBytes / wordBytes
  if a < words then imageWord wordBytes image a
  else if isPowerOfTwo words then imageWord wordBytes image (a % words)
  else padWord wordBytes

/-- The places of the data GPIOs in the words put out. -/
def dataBits (cs : CsDataLayout) : List ℕ :=
  cs.dataPinGpios.map (· - (cs.gpioBase + cs.baseDataPin))

/-- The word the host reads on the data lines when the data GPIOs put out `word`. -/
def readBack (cs : CsDataLayout) (word : ℕ) : ℕ := gather word (dataBits cs)

/-! ### Words -/

lemma bytesPerWord_eq (algDma : OneromAlgDmaConfig) :
    bytesPerWord algDma = 1 ∨ bytesPerWord algDma = 2 := by
  unfold bytesPerWord BitModes.bytesPerWord
  cases algDma.bitMode <;> simp

lemma imageWord_one {image : List UInt8} {a : ℕ} {x : UInt8} (h : image[a]? = some x) :
    imageWord 1 image a = x.toNat := by
  obtain ⟨ha, rfl⟩ := List.getElem?_eq_some_iff.mp h
  simp [imageWord, List.take_one_drop_eq_of_lt_length, ha]

lemma imageWord_two {image : List UInt8} {a : ℕ} {x y : UInt8} (hx : image[a * 2]? = some x)
    (hy : image[a * 2 + 1]? = some y) : imageWord 2 image a = x.toNat + 256 * y.toNat := by
  obtain ⟨ha, rfl⟩ := List.getElem?_eq_some_iff.mp hx
  obtain ⟨ha', rfl⟩ := List.getElem?_eq_some_iff.mp hy
  unfold imageWord
  rw [Nat.mul_comm 2 a, List.drop_eq_getElem_cons ha, List.drop_eq_getElem_cons ha']
  simp only [List.take_succ_cons, List.take_zero, List.map_cons, List.map_nil, Nat.ofDigits_cons,
    Nat.ofDigits_nil, mul_zero, add_zero]

lemma low_or_high (x y : UInt8) : x.toNat ||| y.toNat <<< 8 = x.toNat + 256 * y.toNat := by
  have hx := x.toNat_lt
  rw [Nat.or_comm, ← Nat.shiftLeft_add_eq_or_of_lt hx, Nat.shiftLeft_eq]
  omega

/-- An image's word is read within the image. -/
lemma rawWord_eq {wordBytes : ℕ} (hw : wordBytes = 1 ∨ wordBytes = 2) {image : List UInt8}
    {a : ℕ} (ha : a < image.length / wordBytes) :
    rawWord wordBytes image a = .ok (imageWord wordBytes image a) := by
  rcases hw with rfl | rfl
  · have ha : a < image.length := by simpa using ha
    have hx : image[a]? = some image[a] := List.getElem?_eq_getElem ha
    rw [imageWord_one hx]
    simp only [rawWord, hx, expect]
    rfl
  · have hx : image[a * 2]? = some image[a * 2] := List.getElem?_eq_getElem (by omega)
    have hy : image[a * 2 + 1]? = some image[a * 2 + 1] := List.getElem?_eq_getElem (by omega)
    rw [imageWord_two hx hy, ← low_or_high]
    simp only [rawWord, hx, hy, expect]
    rfl

lemma padRaw_eq {wordBytes : ℕ} (hw : wordBytes = 1 ∨ wordBytes = 2) :
    padRaw wordBytes = padWord wordBytes := by
  rcases hw with rfl | rfl <;> decide

lemma and_sub_one_of_isPowerOfTwo {n : ℕ} (h : isPowerOfTwo n = true) (a : ℕ) :
    a &&& (n - 1) = a % n := by
  have hn : n = 2 ^ n.log2 := beq_iff_eq.mp h
  rw [hn]
  exact Nat.and_two_pow_sub_one_eq_mod a _

lemma imageWord_lt (wordBytes : ℕ) (image : List UInt8) (a : ℕ) :
    imageWord wordBytes image a < 2 ^ (8 * wordBytes) := by
  have hlt : imageWord wordBytes image a < 256 ^ _ :=
    Nat.ofDigits_lt_base_pow_length (by decide) fun d hd => by
      obtain ⟨x, -, rfl⟩ := List.mem_map.mp hd
      exact x.toNat_lt
  refine hlt.trans_le ?_
  rw [Nat.pow_mul]
  exact Nat.pow_le_pow_right (by decide) (by simp)

lemma padWord_lt (wordBytes : ℕ) : padWord wordBytes < 2 ^ (8 * wordBytes) := by
  have hlt : padWord wordBytes < 256 ^ _ := Nat.ofDigits_lt_base_pow_length (by decide) fun d hd => by
    rw [List.eq_of_mem_replicate hd]
    decide
  rwa [List.length_replicate, ← Nat.pow_mul 2 8] at hlt

lemma servedWord_lt (wordBytes : ℕ) (chipType : ChipType) (image : List UInt8) (a : ℕ) :
    servedWord wordBytes chipType image a < 2 ^ (8 * wordBytes) := by
  unfold servedWord
  simp only
  split_ifs
  · exact imageWord_lt _ _ _
  · exact imageWord_lt _ _ _
  · exact padWord_lt _

/-- The bytes of a word hold it, where it has no more bits than they do. -/
lemma ofDigits_wordBytesOf {wordBytes w : ℕ} (hw : wordBytes = 1 ∨ wordBytes = 2)
    (h : w < 2 ^ (8 * wordBytes)) :
    Nat.ofDigits 256 ((wordBytesOf wordBytes w).map UInt8.toNat) = w := by
  have hmask : ∀ n, n &&& 0xFF = n % 256 := fun n => Nat.and_two_pow_sub_one_eq_mod n 8
  rcases hw with rfl | rfl
  · simp only [wordBytesOf, List.range_one, List.map_cons, List.map_nil, Nat.ofDigits_singleton,
      hmask]
    simp only [Nat.mul_zero, Nat.shiftRight_zero, UInt8.toNat_ofNat', Nat.reducePow]
    omega
  · have hrange : List.range 2 = [0, 1] := by decide
    simp only [wordBytesOf, hrange, List.map_cons, List.map_nil, Nat.ofDigits_cons,
      Nat.ofDigits_nil, hmask]
    simp only [Nat.mul_zero, UInt8.toNat_ofNat', Nat.mul_one, Nat.shiftRight_eq_div_pow,
      Nat.reducePow]
    omega

lemma take_drop_flatMap {α β : Type*} {f : α → List β} {n : ℕ} (hf : ∀ x, (f x).length = n)
    {l : List α} {i : ℕ} {x : α} (h : l[i]? = some x) :
    ((l.flatMap f).drop (n * i)).take n = f x := by
  induction l generalizing i with
  | nil => simp at h
  | cons y l ih =>
    rw [List.flatMap_cons]
    cases i with
    | zero =>
      obtain rfl : y = x := by simpa using h
      simp [← hf y]
    | succ i =>
      have hdrop : (f y ++ l.flatMap f).drop (n * (i + 1)) = (l.flatMap f).drop (n * i) := by
        rw [Nat.mul_succ, Nat.add_comm, ← List.drop_drop, List.drop_left' (hf y)]
      rw [hdrop]
      exact ih (by simpa using h)

/-- A word of the table is read back from its bytes. -/
lemma imageWord_flatMap {wordBytes i w : ℕ} (hw : wordBytes = 1 ∨ wordBytes = 2) {words : List ℕ}
    (hi : words[i]? = some w) (h : w < 2 ^ (8 * wordBytes)) :
    imageWord wordBytes (words.flatMap (wordBytesOf wordBytes)) i = w := by
  rw [imageWord, take_drop_flatMap (by simp [wordBytesOf]) hi]
  exact ofDigits_wordBytesOf hw h

/-! ### An entry of the table -/

@[simp] lemma ok_bind {α β : Type} (x : α) (f : α → Except Error β) :
    (Except.ok x >>= f) = f x := rfl
@[simp] lemma ok_map {α β : Type} (x : α) (f : α → β) :
    (f <$> (Except.ok x : Except Error α)) = .ok (f x) := rfl

lemma mapM_ok {α β : Type} {f : α → Except Error β} {g : α → β} {l : List α}
    (h : ∀ x ∈ l, f x = .ok (g x)) : l.mapM f = .ok (l.map g) := by
  induction l with
  | nil => rfl
  | cons x l ih =>
    rw [List.mapM_cons, h x (by simp), ih fun y hy => h y (by simp [hy])]
    rfl

lemma bitPosition_ok {base gpio : ℕ} (h : base ≤ gpio) : bitPosition base gpio = .ok (gpio - base) :=
  if_pos h

/-- The word of the chip at an index, wherever the chips have full images. -/
lemma chipWord_eq {chips : List Chip} {wordBytes k a : ℕ} {chip : Chip}
    (hw : wordBytes = 1 ∨ wordBytes = 2) {image : Chip → List UInt8}
    (himage : ∀ chip ∈ chips, (image chip).length = chip.chipType.sizeBytes)
    (hk : chips[k]? = some chip) :
    chipWord wordBytes (chips.map image)
        (chips.map fun chip => chip.chipType.sizeBytes / wordBytes) k a =
      .ok (servedWord wordBytes chip.chipType (image chip) a) := by
  have hlen := himage chip (List.mem_of_getElem? hk)
  have hraw : ∀ {b}, b < chip.chipType.sizeBytes / wordBytes →
      rawWord wordBytes (image chip) b = .ok (imageWord wordBytes (image chip) b) := fun hb =>
    rawWord_eq hw (by rwa [hlen])
  unfold chipWord servedWord
  simp only [List.getElem?_map, hk, Option.map_some, expect]
  change (if _ then _ else _) = _
  by_cases ha : a < chip.chipType.sizeBytes / wordBytes
  · rw [if_neg (by omega), if_pos ha]
    exact hraw ha
  · rw [if_pos (by omega), if_neg ha]
    split_ifs with hp
    · rw [and_sub_one_of_isPowerOfTwo hp]
      refine hraw (Nat.mod_lt _ ?_)
      rw [beq_iff_eq.mp hp]
      exact Nat.two_pow_pos _
    · rw [← padRaw_eq hw]
      rfl

variable {layout : AddrLayout} {cs : CsDataLayout} {setType : ChipSetType} {chips : List Chip}
  {algDma : OneromAlgDmaConfig} {select : List ℕ}

/-- The value of the address window. -/
def windowIndex (layout : AddrLayout) (levels : ℕ → Bool) : ℕ :=
  sample levels layout.gpioBase layout.numAddrPins

lemma testBit_windowIndex {levels : ℕ → Bool} {g : ℕ}
    (hg : layout.gpioBase ≤ g ∧ g < layout.gpioBase + layout.numAddrPins) :
    (windowIndex layout levels).testBit (g - layout.gpioBase) = levels g := by
  rw [windowIndex, testBit_sample (by omega)]
  congr 1
  omega

/-- The bits a table index selects a chip with: where the select GPIOs choose a chip, the index
selects it, and no index selects a chip the set doesn't have. -/
structure Selection (layout : AddrLayout) (setType : ChipSetType) (chips : List Chip)
    (select bankBits : List ℕ) (multi : Option MultiSelect) : Prop where
  lt : ∀ i k, chipIndex bankBits multi chips.length i = some k → k < chips.length
  chosen : ∀ levels k, k < chips.length →
    (∀ j g, select[j]? = some g → levels g = selectLevel setType k j) →
      chipIndex bankBits multi chips.length (windowIndex layout levels) = some k

/-- A bank number on the X pins selects the chip. -/
lemma selection_bank {select : List ℕ} (hset : setType ≠ .multi)
    (hin : ∀ g ∈ select, layout.gpioBase ≤ g ∧ g < layout.gpioBase + layout.numAddrPins)
    (hlen : chips.length ≤ 2 ^ select.length) :
    Selection layout setType chips select (select.map (· - layout.gpioBase)) none where
  lt := by
    intro i k hk
    simp only [chipIndex] at hk
    split at hk
    · next hlt => exact Option.some.inj hk ▸ hlt
    · cases hk
  chosen := by
    intro levels k hk hlevels
    have hbank : gather (windowIndex layout levels) (select.map (· - layout.gpioBase)) = k := by
      refine gather_sample hin (hk.trans_le hlen) fun j g hj => ?_
      rw [hlevels j g hj]
      cases setType with
      | multi => exact absurd rfl hset
      | single => rfl
      | banked => rfl
    simp only [chipIndex, hbank, if_pos hk]

/-- The one bit high of a Multi set's is that of a chip the set has. -/
lemma chipIndex_multi_lt {bankBits : List ℕ} {s : MultiSelect} {n i k : ℕ} (hn : 2 ≤ n)
    (h : chipIndex bankBits (some s) n i = some k) : k < n := by
  simp only [chipIndex] at h
  split at h
  · cases h
    omega
  · cases h
    omega
  · split_ifs at h
    cases h
    omega
  · cases h

lemma selection (h : SelectGpios layout cs setType chips.length select)
    (hin : ∀ g ∈ select, layout.gpioBase ≤ g ∧ g < layout.gpioBase + layout.numAddrPins) :
    ∃ bankBits multi, bankBitPositions layout setType chips = .ok bankBits ∧
      multiSelect layout cs setType chips = .ok multi ∧
      Selection layout setType chips select bankBits multi := by
  generalize hn : chips.length = n at h
  cases h with
  | single =>
    refine ⟨[], none, by simp [bankBitPositions, hn]; rfl, by simp [multiSelect]; rfl, ?_⟩
    exact selection_bank (by decide) hin (by simp [hn])
  | @banked2 x1 hx1 =>
    have h1 := bitPosition_ok (hin x1 (by simp)).1
    refine ⟨[x1 - layout.gpioBase], none, by simp [bankBitPositions, hn, hx1, expect, h1],
      by simp [multiSelect]; rfl, ?_⟩
    exact selection_bank (by decide) hin (by simp [hn])
  | @banked n x1 x2 hor hx1 hx2 =>
    have h1 := bitPosition_ok (hin x1 (by simp)).1
    have h2 := bitPosition_ok (hin x2 (by simp)).1
    refine ⟨[x1 - layout.gpioBase, x2 - layout.gpioBase], none, ?_,
      by simp [multiSelect]; rfl, ?_⟩
    · rcases hor with rfl | rfl <;> simp [bankBitPositions, hn, hx1, hx2, expect, h1, h2]
    · exact selection_bank (by decide) hin (by simp [hn]; omega)
  | @multi2 line x1 hline hx1 =>
    have h0 := bitPosition_ok (hin line.gpio (by simp)).1
    have h1 := bitPosition_ok (hin x1 (by simp)).1
    refine ⟨[], some ⟨line.gpio - layout.gpioBase, x1 - layout.gpioBase, none⟩,
      by simp [bankBitPositions, hn]; rfl,
      by simp [multiSelect, hn, hline, hx1, expect, h0, h1],
      ⟨fun i k hk => chipIndex_multi_lt (by omega) hk, ?_⟩⟩
    · intro levels k hk hlevels
      have hcs1 := hlevels 0 line.gpio rfl
      have hx1 := hlevels 1 x1 rfl
      simp only [chipIndex, testBit_windowIndex (hin line.gpio (by simp)),
        testBit_windowIndex (hin x1 (by simp)), hcs1, hx1, selectLevel]
      rw [hn] at hk
      interval_cases k <;> rfl
  | @multi3 line x1 x2 hline hx1 hx2 =>
    have h0 := bitPosition_ok (hin line.gpio (by simp)).1
    have h1 := bitPosition_ok (hin x1 (by simp)).1
    have h2 := bitPosition_ok (hin x2 (by simp)).1
    refine ⟨[], some ⟨line.gpio - layout.gpioBase, x1 - layout.gpioBase,
        some (x2 - layout.gpioBase)⟩, by simp [bankBitPositions, hn]; rfl,
      by simp [multiSelect, hn, hline, hx1, hx2, expect, h0, h1, h2],
      ⟨fun i k hk => chipIndex_multi_lt (by omega) hk, ?_⟩⟩
    · intro levels k hk hlevels
      have hcs1 := hlevels 0 line.gpio rfl
      have hx1 := hlevels 1 x1 rfl
      have hx2 := hlevels 2 x2 rfl
      simp only [chipIndex, testBit_windowIndex (hin line.gpio (by simp)), Option.any_some,
        testBit_windowIndex (hin x1 (by simp)), testBit_windowIndex (hin x2 (by simp)), hcs1, hx1,
        hx2, selectLevel]
      rw [hn] at hk ⊢
      interval_cases k <;> rfl

namespace Servable

variable (h : Servable layout cs setType chips algDma select)
include h

lemma dataBits_perm : (dataBits cs).Perm (List.range (8 * bytesPerWord algDma)) := by
  have hmap := h.data.map (· - (cs.gpioBase + cs.baseDataPin))
  rwa [List.map_sub_range', Nat.sub_self, ← List.range_eq_range'] at hmap
  omega

lemma dataBits_ok :
    cs.dataPinGpios.mapM (bitPosition (cs.gpioBase + cs.baseDataPin)) = .ok (dataBits cs) :=
  mapM_ok fun g hg => by
    obtain ⟨i, -, rfl⟩ := List.mem_range'.mp (h.data.mem_iff.mp hg)
    exact bitPosition_ok (by omega)

lemma addrBits_ok : layout.addrPinGpios.mapM (bitPosition layout.gpioBase) =
    .ok (layout.addrPinGpios.map (· - layout.gpioBase)) :=
  mapM_ok fun g hg => bitPosition_ok (h.within g (List.mem_append_left _ hg)).1

lemma chipData_ok :
    chips.zipIdx.mapM imageData = .ok (chips.map fun chip => chip.data.getD []) := by
  have himage : ∀ p ∈ chips.zipIdx, imageData p = .ok (p.1.data.getD []) := by
    intro p hp
    obtain ⟨data, hdata, -⟩ := h.images p.1 (List.fst_mem_of_mem_zipIdx hp)
    simp [imageData, hdata]
  rw [mapM_ok himage]
  congr 1
  calc chips.zipIdx.map (fun p => p.1.data.getD [])
      = (chips.zipIdx.map Prod.fst).map fun chip => chip.data.getD [] := by rw [List.map_map]; rfl
    _ = chips.map fun chip => chip.data.getD [] := by rw [List.zipIdx_map_fst]

/-- What the host reads of a word of the table is the word before its bits were moved. -/
lemma readBack_mangleWord {w : ℕ} (hw : w < 2 ^ (8 * bytesPerWord algDma)) :
    readBack cs (mangleWord w (dataBits cs)) = w := by
  refine gather_scatter (h.dataBits_perm.nodup_iff.mpr List.nodup_range) ?_
  rwa [h.dataBits_perm.length_eq, List.length_range]

lemma mangleWord_lt (w : ℕ) : mangleWord w (dataBits cs) < 2 ^ (8 * bytesPerWord algDma) :=
  scatter_lt fun _ hp => List.mem_range.mp (h.dataBits_perm.mem_iff.mp hp)

end Servable

/-- The word of an index before its bits are moved: that of the chip it selects. -/
def indexWord (layout : AddrLayout) (chips : List Chip) (wordBytes : ℕ) (bankBits : List ℕ)
    (multi : Option MultiSelect) (i : ℕ) : ℕ :=
  match (chipIndex bankBits multi chips.length i).bind (chips[·]?) with
  | none => padWord wordBytes
  | some chip => servedWord wordBytes chip.chipType (chip.data.getD [])
      (gather i (layout.addrPinGpios.map (· - layout.gpioBase)))

lemma indexWord_lt (chips : List Chip) (wordBytes : ℕ) (bankBits : List ℕ)
    (multi : Option MultiSelect) (i : ℕ) :
    indexWord layout chips wordBytes bankBits multi i < 2 ^ (8 * wordBytes) := by
  unfold indexWord
  split
  · exact padWord_lt _
  · exact servedWord_lt _ _ _ _

/-- The table holds each index's word, its bits moved to the data GPIOs. -/
lemma buildRomImage_of_selection (h : Servable layout cs setType chips algDma select)
    {bankBits : List ℕ} {multi : Option MultiSelect}
    (hbank : bankBitPositions layout setType chips = .ok bankBits)
    (hmulti : multiSelect layout cs setType chips = .ok multi)
    (hsel : Selection layout setType chips select bankBits multi) :
    buildRomImage layout cs setType chips algDma =
      .ok (((List.range (tableEntries layout)).map fun i => mangleWord
        (indexWord layout chips (bytesPerWord algDma) bankBits multi i) (dataBits cs)).flatMap
          (wordBytesOf (bytesPerWord algDma))) := by
  have hw := bytesPerWord_eq algDma
  have hfits : ¬MAX_IMAGE_SIZE < tableEntries layout * bytesPerWord algDma := not_lt.mpr h.fits
  have himage : ∀ chip ∈ chips, (chip.data.getD []).length = chip.chipType.sizeBytes := by
    intro chip hc
    obtain ⟨data, hdata, hlen⟩ := h.images chip hc
    rw [hdata, Option.getD_some, hlen]
  unfold buildRomImage
  simp only [if_neg hfits, hbank, hmulti, h.addrBits_ok, h.dataBits_ok, h.chipData_ok, ok_bind]
  rw [mapM_ok (g := fun i => mangleWord
    (indexWord layout chips (bytesPerWord algDma) bankBits multi i) (dataBits cs))]
  · rfl
  · intro i _
    unfold indexWord
    cases hidx : chipIndex bankBits multi chips.length i with
    | none => rw [← padRaw_eq hw]; rfl
    | some k =>
      have hlt := hsel.lt i k hidx
      have hk : chips[k]? = some chips[k] := List.getElem?_eq_getElem hlt
      simp only [Option.bind_some, hk]
      rw [chipWord_eq hw himage hk]
      rfl

lemma buildRomImage_eq (h : Servable layout cs setType chips algDma select) :
    ∃ bankBits multi, Selection layout setType chips select bankBits multi ∧
      buildRomImage layout cs setType chips algDma =
        .ok (((List.range (tableEntries layout)).map fun i => mangleWord
          (indexWord layout chips (bytesPerWord algDma) bankBits multi i) (dataBits cs)).flatMap
            (wordBytesOf (bytesPerWord algDma))) := by
  obtain ⟨bankBits, multi, hbank, hmulti, hsel⟩ :=
    selection h.selects fun g hg => h.within g (List.mem_append_right _ hg)
  exact ⟨bankBits, multi, hsel, buildRomImage_of_selection h hbank hmulti hsel⟩

/-- The levels that drive the address `a` and choose chip `k`, over any others. -/
def drive (layout : AddrLayout) (setType : ChipSetType) (select : List ℕ) (rest : ℕ → Bool)
    (a k g : ℕ) : Bool :=
  if g ∈ layout.addrPinGpios then a.testBit (layout.addrPinGpios.idxOf g)
  else if g ∈ select then selectLevel setType k (select.idxOf g)
  else rest g

lemma idxOf_getElem? {l : List ℕ} (hn : l.Nodup) {i g : ℕ} (h : l[i]? = some g) :
    l.idxOf g = i := by
  obtain ⟨hi, rfl⟩ := List.getElem?_eq_some_iff.mp h
  exact hn.idxOf_getElem i hi

lemma drives_drive (h : Servable layout cs setType chips algDma select) (rest : ℕ → Bool)
    (a k : ℕ) : Drives layout setType select (drive layout setType select rest a k) a k := by
  obtain ⟨haddr, hselect, hdisj⟩ := List.nodup_append.mp h.nodup
  refine ⟨fun i g hg => ?_, fun j g hg => ?_⟩
  · rw [drive, if_pos (List.mem_of_getElem? hg), idxOf_getElem? haddr hg]
  · have hmem := List.mem_of_getElem? hg
    rw [drive, if_neg fun hin => hdisj g hin g hmem rfl, if_pos hmem, idxOf_getElem? hselect hg]

/-- **The table serves the right word**: it is built at its full size; whatever the window's other
lines do, the host driving an address and choosing a chip reads that chip's word there; and every
address of every chip can be driven so over any levels of the other lines. -/
theorem table_serves (h : Servable layout cs setType chips algDma select) :
    ∃ table, buildRomImage layout cs setType chips algDma = .ok table ∧
      table.length = romTableSize layout algDma ∧
      ∀ k chip data, chips[k]? = some chip → chip.data = some data →
        ∀ a < 2 ^ layout.addrPinGpios.length,
          (∀ levels, Drives layout setType select levels a k →
            readBack cs (imageWord (bytesPerWord algDma) table (windowIndex layout levels)) =
              servedWord (bytesPerWord algDma) chip.chipType data a) ∧
          ∀ rest : ℕ → Bool, ∃ levels, Drives layout setType select levels a k ∧
            ∀ g ∉ layout.addrPinGpios ++ select, levels g = rest g := by
  obtain ⟨bankBits, multi, hsel, htable⟩ := buildRomImage_eq h
  refine ⟨_, htable, ?_, fun k chip data hk hdata a ha => ⟨fun levels hd => ?_, fun rest => ?_⟩⟩
  · simp [wordBytesOf, romTableSize, List.length_flatMap, Function.comp_def]
  · have hlt : k < chips.length := (List.getElem?_eq_some_iff.mp hk).1
    have hword : indexWord layout chips (bytesPerWord algDma) bankBits multi
        (windowIndex layout levels) =
          servedWord (bytesPerWord algDma) chip.chipType data a := by
      have haddr : gather (windowIndex layout levels)
          (layout.addrPinGpios.map (· - layout.gpioBase)) = a :=
        gather_sample (fun g hg => h.within g (List.mem_append_left _ hg)) ha hd.address
      simp only [indexWord, hsel.chosen levels k hlt hd.chosen, Option.bind_some, hk, hdata,
        Option.getD_some, haddr]
    have hget : ((List.range (tableEntries layout)).map fun i => mangleWord (indexWord layout chips
        (bytesPerWord algDma) bankBits multi i) (dataBits cs))[windowIndex layout levels]? =
          some (mangleWord (servedWord (bytesPerWord algDma) chip.chipType data a)
            (dataBits cs)) := by
      have hi : windowIndex layout levels < tableEntries layout := sample_lt _ _ _
      rw [List.getElem?_map, List.getElem?_range hi, Option.map_some, hword]
    rw [imageWord_flatMap (bytesPerWord_eq algDma) hget (h.mangleWord_lt _),
      h.readBack_mangleWord (servedWord_lt _ _ _ _)]
  · refine ⟨drive layout setType select rest a k, drives_drive h rest a k, fun g hg => ?_⟩
    rw [List.mem_append, not_or] at hg
    rw [drive, if_neg hg.1, if_neg hg.2]

/-- The address window of a Multi set of two chips with ten address lines. -/
def multiLayout : AddrLayout where
  gpioBase := 0
  numAddrPins := 13
  x1Gpio := some 12
  x2Gpio := none
  addrPinGpios := [7, 6, 5, 4, 3, 2, 1, 0, 9, 8]
  excessAddrPinGpios := []

/-- Its select and data lines. -/
def multiCs : CsDataLayout where
  gpioBase := 0
  baseDataPin := 16
  numDataPins := 8
  dataPinGpios := [19, 18, 17, 16, 20, 21, 22, 23]
  baseCsPin := 11
  numCsPins := 2
  csIgnoreIndex := none
  selectLines := [⟨.oe, 11⟩, ⟨.x1, 12⟩]
  commonedLines := []
  algCs2 := none

/-- A 2708 and a 2704, which is half its size. -/
def multiChips : List Chip :=
  [⟨.chip2708, .ceOe, some (List.replicate 1024 0x11)⟩,
    ⟨.chip2704, .ceOeExplicit .ignore .activeLow, some (List.replicate 512 0x5A)⟩]

/-- The second chip's word is served at an address above its size. -/
theorem table_serves_multi : ∃ table,
    buildRomImage multiLayout multiCs .multi multiChips ⟨.bitMode8, 1⟩ = .ok table ∧
      ∀ levels, Drives multiLayout .multi [11, 12] levels 0x323 1 →
        readBack multiCs (imageWord 1 table (windowIndex multiLayout levels)) = 0x5A := by
  have hselects : SelectGpios multiLayout multiCs .multi 2 [(⟨.oe, 11⟩ : SelectLine).gpio, 12] :=
    .multi2 rfl rfl
  have hservable : Servable multiLayout multiCs .multi multiChips ⟨.bitMode8, 1⟩ [11, 12] :=
    { selects := hselects
      nodup := by decide
      within := by decide
      data := by decide
      images := by
        intro chip hc
        rcases List.mem_cons.mp hc with rfl | hc
        · exact ⟨_, rfl, List.length_replicate⟩
        · rw [List.mem_singleton.mp hc]
          exact ⟨_, rfl, List.length_replicate⟩
      fits := by decide }
  obtain ⟨table, htable, -, hserves⟩ := table_serves hservable
  refine ⟨table, htable, fun levels hd => ?_⟩
  rw [← show servedWord 1 .chip2704 (List.replicate 512 0x5A) 0x323 = 0x5A by decide +kernel]
  exact (hserves 1 _ _ rfl rfl 0x323 (by decide)).1 levels hd

end OneRom.RomImage
