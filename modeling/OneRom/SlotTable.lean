import OneRom.AddrMap
import OneRom.RomImage

/-!
The table of a slot that is built: what the layouts `build_rom_slot` derives make of
`build_rom_image`.

A slot's table is indexed by the first chip's address lines, and by the lines that choose among the
chips. `slotTable_serves` says that it is built and serves every chip, and `chip_whole_iff` which
of a chip's bytes are in it.
-/

namespace OneRom.SlotTable

open OneRom.AddrMap OneRom.AddrSearch OneRom.AlgConfig OneRom.BitLines OneRom.Bonds OneRom.Checks
open OneRom.ChipTypes OneRom.DeriveAddr OneRom.DeriveCs OneRom.Hw OneRom.Layout OneRom.Overrides
open OneRom.RomImage OneRom.RomSlot OneRom.SlotLayout

/-- A chip's image is as long as the chip's type says. -/
def Sized (chip : Chip) : Prop := ∃ data, chip.data = some data ∧ data.length = chip.chipType.sizeBytes

/-- As many chips as a set's table can be built of. -/
def CountOk (setType : ChipSetType) (n : ℕ) : Prop :=
  match setType with
  | .single => n = 1
  | .banked => 2 ≤ n ∧ n ≤ 4
  | .multi => 2 ≤ n ∧ n ≤ 3

section Layouts

variable {board : Board} {setType : ChipSetType} {chip0 : Chip} {chips : List Chip}
  {force16Bit : Bool} {slot : OneromRomSlot} {addr : AddrLayout} {cs : CsDataLayout}
  {ctx : SlotContext}

/-- X2 is used after X1. -/
lemma xGpios_eq (h : deriveAddrLayout ctx = .ok addr) (hset : ctx.setType ≠ .single) :
    ∃ x1, addr.x1Gpio = some x1 ∧ x1 ∈ ctx.board.gpiosForXPin 1 ∧
      (3 ≤ ctx.chipTypes.length →
        ∃ x2, addr.x2Gpio = some x2 ∧ x2 ∈ ctx.board.gpiosForXPin 2) := by
  obtain ⟨⟨gpios, hsmallest⟩, -⟩ := (deriveAddrLayout_smallest ctx).1 addr h
  obtain ⟨hchoice, -, -⟩ := hsmallest.reachable
  have hdrop := List.forall₂_drop ctx.addressLines.length hchoice
  rw [slotPins, ← length_linePins 0 ctx.addressLines, List.drop_left, length_linePins] at hdrop
  rw [hsmallest.layout_eq, layoutOf]
  dsimp only
  have hat : ∀ i, gpios[ctx.addressLines.length + i]? = (gpios.drop ctx.addressLines.length)[i]? :=
    fun i => (List.getElem?_drop).symm
  rw [← Nat.add_zero ctx.addressLines.length, hat, Nat.add_zero, hat]
  generalize gpios.drop ctx.addressLines.length = xs at hdrop
  unfold xPins at hdrop
  rw [if_neg hset] at hdrop
  split_ifs at hdrop with hlen
  · cases hdrop with
    | cons hx1 _ => exact ⟨_, rfl, hx1, fun h3 => by omega⟩
  · cases hdrop with
    | cons hx1 hrest =>
      cases hrest with
      | cons hx2 _ => exact ⟨_, rfl, hx1, fun _ => ⟨_, rfl, hx2⟩⟩

/-- The address lines of a set with X pins are in the socket. -/
lemma addr_pin (h : AddrOk ctx addr) (hset : ctx.setType ≠ .single) {g : ℕ}
    (hg : g ∈ addr.addrPinGpios) : ∃ n, g ∈ ctx.board.gpios (.socket n) := by
  obtain ⟨pin, -, p, hp, hmem⟩ := exists_left h.inRange hg
  cases hp with
  | socket hn => exact ⟨_, hmem⟩
  | flyLead hsingle => exact absurd hsingle hset

/-- A Multi set's first chip's select is in the socket. -/
lemma multiSpan_pin {g : ℕ} (hg : g ∈ multiSpanGpios ctx) :
    ∃ n, g ∈ ctx.board.gpios (.socket n) := by
  unfold multiSpanGpios at hg
  split at hg
  · obtain ⟨kind, -, hkind⟩ := List.mem_filterMap.mp hg
    obtain ⟨line, -, hkind⟩ := Option.bind_eq_some_iff.mp hkind
    obtain ⟨n, -, hhead⟩ := Option.bind_eq_some_iff.mp hkind
    exact ⟨n, List.mem_of_head? hhead⟩
  · cases hg

lemma ne_of_pins {n m g g' : ℕ} (hg : g ∈ board.gpios (.socket n)) (hg' : g' ∈ board.gpios (.x m)) :
    g ≠ g' := by
  rintro rfl
  cases Board.pin_eq hg hg'

lemma x1_ne_x2 {x1 x2 : ℕ} (h1 : x1 ∈ board.gpiosForXPin 1) (h2 : x2 ∈ board.gpiosForXPin 2) :
    x1 ≠ x2 := by
  rintro rfl
  cases Board.pin_eq (show x1 ∈ board.gpios (.x 1) from h1) (show x1 ∈ board.gpios (.x 2) from h2)

/-- The first line that selects. -/
lemma head_selectLines (h : CsOk ctx addr cs) :
    ∃ line, cs.selectLines.head? = some line ∧ line.gpio = firstSelect cs := by
  obtain ⟨line, hline, -⟩ := h.firstSelect_mem
  obtain ⟨first, rest, hcons⟩ := List.exists_cons_of_ne_nil (List.ne_nil_of_mem hline)
  exact ⟨first, by rw [hcons]; rfl, by rw [firstSelect, hcons]; rfl⟩

/-- The GPIOs that choose among a set's chips are apart from each other and from the address lines,
and within the window. -/
structure Chooses (addr : AddrLayout) (cs : CsDataLayout) (setType : ChipSetType) (n : ℕ)
    (select : List ℕ) : Prop where
  selects : SelectGpios addr cs setType n select
  nodup : select.Nodup
  apart : ∀ g ∈ select, g ∉ addr.addrPinGpios
  within : ∀ g ∈ select, addr.gpioBase ≤ g ∧ g < addr.gpioBase + addr.numAddrPins

lemma chooses (hboard : board ∈ boards)
    (h : buildRomSlot board setType chip0 chips force16Bit = .ok (slot, addr, cs))
    (hcount : CountOk setType (chips.length + 1)) :
    ∃ select, Chooses addr cs setType (chips.length + 1) select := by
  obtain ⟨ctx, hctx, haddr, hcs, hok⟩ := buildRomSlot_layouts h
  have hset : ctx.setType = setType := hok.setType_eq
  have htypes : ctx.chipTypes.length = chips.length + 1 := by rw [hok.chipTypes_eq]; simp
  have hx : ∀ {n x}, x ∈ ctx.board.gpiosForXPin n → ctx.setType ≠ .single → x ∉ addr.addrPinGpios :=
    fun hmem hne hin => by
      obtain ⟨n, hn⟩ := addr_pin hok.addrOk hne hin
      exact ne_of_pins hn (show _ ∈ ctx.board.gpios (.x _) from hmem) rfl
  have hwithin : ∀ {x}, x ∈ addr.x1Gpio.toList ++ addr.x2Gpio.toList →
      addr.gpioBase ≤ x ∧ x < addr.gpioBase + addr.numAddrPins := fun hmem =>
    hok.addrOk.within _ (List.mem_append_left _ (List.mem_append_right _ hmem))
  cases hsetType : setType with
  | single =>
    rw [hsetType] at hcount
    have hn : chips.length + 1 = 1 := hcount
    rw [hn]
    exact ⟨[], .single, List.nodup_nil, nofun, nofun⟩
  | banked =>
    rw [hsetType] at hcount
    obtain ⟨hlo, hhi⟩ : 2 ≤ chips.length + 1 ∧ chips.length + 1 ≤ 4 := hcount
    have hne : ctx.setType ≠ .single := by rw [hset, hsetType]; decide
    obtain ⟨x1, hx1, hmem1, hthree⟩ := xGpios_eq haddr hne
    have hin1 := hwithin (x := x1) (by simp [hx1])
    by_cases hn : chips.length + 1 = 2
    · rw [hn]
      exact ⟨[x1], .banked2 hx1, List.nodup_singleton _, by simpa using hx hmem1 hne, by simpa using hin1⟩
    · obtain ⟨x2, hx2, hmem2⟩ := hthree (by omega)
      have hin2 := hwithin (x := x2) (by simp [hx2])
      refine ⟨[x1, x2], .banked (by omega) hx1 hx2, by simpa using x1_ne_x2 hmem1 hmem2, ?_, ?_⟩
      · simpa using ⟨hx hmem1 hne, hx hmem2 hne⟩
      · simpa using ⟨hin1, hin2⟩
  | multi =>
    rw [hsetType] at hcount hset
    obtain ⟨hlo, hhi⟩ : 2 ≤ chips.length + 1 ∧ chips.length + 1 ≤ 3 := hcount
    have hne : ctx.setType ≠ .single := by rw [hset]; decide
    obtain ⟨x1, hx1, hmem1, hthree⟩ := xGpios_eq haddr hne
    obtain ⟨line, hline, hfirst⟩ := head_selectLines hok.csOk
    have hspan : line.gpio ∈ multiSpanGpios ctx := by
      rw [hfirst]
      exact selects_of_multi hset (selectsFixed (hok.board_eq ▸ hboard) hset hok.addrOk) hcs _
        List.mem_cons_self
    obtain ⟨n, hsocket⟩ := multiSpan_pin hspan
    have hout : line.gpio ∉ addr.addrPinGpios := hfirst ▸ firstSelect_notMem hset hok.addrOk hok.csOk
    have hin := hok.addrOk.within line.gpio (List.mem_append_right _ hspan)
    have hin1 := hwithin (x := x1) (by simp [hx1])
    by_cases hn : chips.length + 1 = 2
    · rw [hn]
      refine ⟨[line.gpio, x1], .multi2 hline hx1, by simpa using ne_of_pins hsocket hmem1, ?_, ?_⟩
      · simpa using ⟨hout, hx hmem1 hne⟩
      · simpa using ⟨hin, hin1⟩
    · have hn : chips.length + 1 = 3 := by omega
      obtain ⟨x2, hx2, hmem2⟩ := hthree (by omega)
      have hin2 := hwithin (x := x2) (by simp [hx2])
      rw [hn]
      refine ⟨[line.gpio, x1, x2], .multi3 hline hx1 hx2, ?_, ?_, ?_⟩
      · simpa using ⟨⟨ne_of_pins hsocket hmem1, ne_of_pins hsocket hmem2⟩, x1_ne_x2 hmem1 hmem2⟩
      · simpa using ⟨hout, hx hmem1 hne, hx hmem2 hne⟩
      · simpa using ⟨hin, hin1, hin2⟩

/-- The table of a slot on a board can be built, and serves. -/
lemma servable (hboard : board ∈ boards)
    (h : buildRomSlot board setType chip0 chips force16Bit = .ok (slot, addr, cs))
    (hsized : ∀ chip ∈ chip0 :: chips, Sized chip) {select : List ℕ}
    (hselect : Chooses addr cs setType (chips.length + 1) select) :
    Servable addr cs setType (chip0 :: chips) slot.alg.algDma select := by
  obtain ⟨ctx, hctx, haddr, hcs, hok⟩ := buildRomSlot_layouts h
  obtain ⟨hlen, -⟩ := byte_positions hok hboard (AddrMap.slotContext_offset hctx)
  have hnum : cs.numDataPins = 8 * bytesPerWord slot.alg.algDma := by
    have hrun := hok.csOk.dataRun.length_eq
    rw [List.length_range', hlen, wordSize_eq hok] at hrun
    rw [← hrun, bytesPerWord, hok.algOk.algDma]
    rfl
  refine
    { selects := hselect.selects
      nodup := ?_
      within := ?_
      data := hnum ▸ hok.csOk.dataRun
      images := hsized
      fits := hok.size ▸ hok.fits }
  · refine List.nodup_append.mpr ⟨addrPinGpios_nodup haddr, hselect.nodup, ?_⟩
    rintro g hg g' hg' rfl
    exact hselect.apart g hg' hg
  · intro g hg
    rcases List.mem_append.mp hg with hg | hg
    · exact hok.addrOk.within g (List.mem_append_left _ (List.mem_append_left _ hg))
    · exact hselect.within g hg

end Layouts

/-! ### The table -/

section Table

variable {board : Board} {setType : ChipSetType} {chip0 : Chip} {chips : List Chip}
  {force16Bit : Bool} {slot : OneromRomSlot} {addr : AddrLayout} {cs : CsDataLayout}

/-- A set that a table is built of has as many chips as it may have. -/
lemma countOk_of_built {all : List Chip} {algDma : OneromAlgDmaConfig} {table : List UInt8}
    (h : buildRomImage addr cs setType all algDma = .ok table) : CountOk setType all.length := by
  unfold buildRomImage at h
  dsimp only at h
  split_ifs at h
  · cases h
  obtain ⟨addrBits, -, h⟩ := bind_eq_ok.mp h
  obtain ⟨bankBits, hbank, -⟩ := bind_eq_ok.mp h
  unfold bankBitPositions at hbank
  dsimp only at hbank
  cases setType with
  | single =>
    dsimp only at hbank
    split_ifs at hbank with hn
    · cases hbank
    · exact not_not.mp hn
  | banked =>
    dsimp only at hbank
    obtain ⟨x1, -, hbank⟩ := bind_eq_ok.mp hbank
    obtain ⟨x1Bit, -, hbank⟩ := bind_eq_ok.mp hbank
    split at hbank
    · next hn => exact ⟨hn.ge, by omega⟩
    · next hn => exact ⟨by omega, by omega⟩
    · next hn => exact ⟨by omega, by omega⟩
    · cases hbank
  | multi =>
    dsimp only at hbank
    split_ifs at hbank with hn
    · cases hbank
    · exact ⟨by omega, by omega⟩

/-- As many chips as the kind of set may have make a table. -/
lemma slotTable_built (hboard : board ∈ boards)
    (h : buildRomSlot board setType chip0 chips force16Bit = .ok (slot, addr, cs))
    (hsized : ∀ chip ∈ chip0 :: chips, Sized chip) (hcount : CountOk setType (chips.length + 1)) :
    ∃ table, buildRomImage addr cs setType (chip0 :: chips) slot.alg.algDma = .ok table := by
  obtain ⟨select, hselect⟩ := chooses hboard h hcount
  obtain ⟨table, htable, -, -⟩ := table_serves (servable hboard h hsized hselect)
  exact ⟨table, htable⟩

/-- **Slots serve**: for every slot that is built on a board, with every chip's image sized, a table
is built exactly of as many chips as the kind of set may have. It has the slot's size, and whatever
levels the window's other lines have, the host that drives an address and chooses a chip reads
that chip's word there. Every chip can be chosen so at every address. -/
theorem slotTable_serves (hboard : board ∈ boards)
    (h : buildRomSlot board setType chip0 chips force16Bit = .ok (slot, addr, cs))
    (hsized : ∀ chip ∈ chip0 :: chips, Sized chip) :
    ((∃ table, buildRomImage addr cs setType (chip0 :: chips) slot.alg.algDma = .ok table) ↔
      CountOk setType (chips.length + 1)) ∧
    ∀ table, buildRomImage addr cs setType (chip0 :: chips) slot.alg.algDma = .ok table →
      table.length = slot.size ∧ ∃ select, Chooses addr cs setType (chips.length + 1) select ∧
        ∀ k chip data, (chip0 :: chips)[k]? = some chip → chip.data = some data →
          ∀ a < 2 ^ addr.addrPinGpios.length,
            (∀ levels, Drives addr setType select levels a k →
              readBack cs (imageWord (bytesPerWord slot.alg.algDma) table
                  (windowIndex addr levels)) =
                servedWord (bytesPerWord slot.alg.algDma) chip.chipType data a) ∧
            ∀ rest : ℕ → Bool, ∃ levels, Drives addr setType select levels a k ∧
              ∀ g ∉ addr.addrPinGpios ++ select, levels g = rest g := by
  have hsize : slot.size = romTableSize addr slot.alg.algDma := by
    obtain ⟨ctx, hok⟩ := buildRomSlot_ok h
    exact hok.size
  refine ⟨⟨fun hbuilt => ?_, slotTable_built hboard h hsized⟩, fun table htable => ?_⟩
  · obtain ⟨table, htable⟩ := hbuilt
    exact countOk_of_built htable
  · obtain ⟨select, hselect⟩ := chooses hboard h (countOk_of_built htable)
    obtain ⟨table', htable', hlen, hserves⟩ := table_serves (servable hboard h hsized hselect)
    obtain rfl : table' = table := Except.ok.inj (htable'.symm.trans htable)
    exact ⟨by rw [hlen, hsize], select, hselect, hserves⟩

/-- An image of a 2364. -/
def zeros : List UInt8 := List.replicate 8192 0

/-- An image of a 2316. -/
def ones : List UInt8 := List.replicate 2048 1

/-- A 2364 and a 2316 make a set. -/
def pair : Chip × Chip :=
  (⟨.chip2364, .chipSelect .activeLow none none none, some zeros⟩,
    ⟨.chip2316, .chipSelect .activeLow (some .ignore) (some .ignore) none, some ones⟩)

lemma pair_built : ∃ slot addr cs,
    buildRomSlot fire24C .multi pair.1 [pair.2] false = .ok (slot, addr, cs) ∧
      addr.addrPinGpios.length = 13 := ⟨_, _, _, rfl, rfl⟩

lemma pair_sized : ∀ chip ∈ [pair.1, pair.2], Sized chip := by
  intro chip hchip
  rcases List.mem_cons.mp hchip with rfl | hchip
  · exact ⟨zeros, rfl, List.length_replicate⟩
  · rw [List.mem_singleton.mp hchip]
    exact ⟨ones, rfl, List.length_replicate⟩

lemma fire24C_mem : fire24C ∈ boards := by simp [boards]

/-- The table of a 2364 and a 2316, and the 2316's word of address 5 in it. -/
theorem slotTable_serves_pair : ∃ slot addr cs table levels,
    buildRomSlot fire24C .multi pair.1 [pair.2] false = .ok (slot, addr, cs) ∧
      table.length = slot.size ∧
      readBack cs (imageWord (bytesPerWord slot.alg.algDma) table (windowIndex addr levels)) =
        servedWord (bytesPerWord slot.alg.algDma) .chip2316 ones 5 := by
  obtain ⟨slot, addr, cs, h, hlines⟩ := pair_built
  obtain ⟨hbuilt, hserves⟩ := slotTable_serves fire24C_mem h pair_sized
  obtain ⟨table, htable⟩ := hbuilt.mpr ⟨le_rfl, Nat.le_succ 2⟩
  obtain ⟨hlen, select, -, hchips⟩ := hserves table htable
  obtain ⟨hread, hdriven⟩ := hchips 1 pair.2 ones rfl rfl 5 (by rw [hlines]; decide)
  obtain ⟨levels, hdrives, -⟩ := hdriven fun _ => false
  exact ⟨slot, addr, cs, table, levels, h, hlen, hread levels hdrives⟩

/-! ### The bytes in it -/

/-- A table index selects chip `k`. -/
def Selects (addr : AddrLayout) (cs : CsDataLayout) (setType : ChipSetType) (all : List Chip)
    (i k : ℕ) : Prop :=
  ∃ bankBits multi, bankBitPositions addr setType all = .ok bankBits ∧
    multiSelect addr cs setType all = .ok multi ∧ chipIndex bankBits multi all.length i = some k

/-- What the host reads on the data lines of byte `lane` of a word. -/
def laneByte (wordBytes word lane : ℕ) : Option UInt8 := (wordBytesOf wordBytes word)[lane]?

/-- Byte `a` of chip `k`'s image is read at an index that selects the chip. -/
def Held (addr : AddrLayout) (cs : CsDataLayout) (setType : ChipSetType) (all : List Chip)
    (wordBytes : ℕ) (table : List UInt8) (k : ℕ) (data : List UInt8) (a : ℕ) : Prop :=
  ∃ i < tableEntries addr, Selects addr cs setType all i k ∧
    laneByte wordBytes (readBack cs (imageWord wordBytes table i)) (a % wordBytes) = data[a]?

lemma laneByte_imageWord {wordBytes lane w : ℕ} (hw : wordBytes = 1 ∨ wordBytes = 2)
    (hlane : lane < wordBytes) {data : List UInt8} (ha : w < data.length / wordBytes) :
    laneByte wordBytes (imageWord wordBytes data w) lane = data[wordBytes * w + lane]? := by
  have hmask : ∀ n, n &&& 0xFF = n % 256 := fun n => Nat.and_two_pow_sub_one_eq_mod n 8
  rcases hw with rfl | rfl
  · have ha : w < data.length := by simpa using ha
    obtain rfl : lane = 0 := by omega
    rw [imageWord_one (List.getElem?_eq_getElem ha), Nat.one_mul, Nat.add_zero,
      List.getElem?_eq_getElem ha]
    simp [laneByte, wordBytesOf, hmask]
  · have hx : data[w * 2]? = some data[w * 2] := List.getElem?_eq_getElem (by omega)
    have hy : data[w * 2 + 1]? = some data[w * 2 + 1] := List.getElem?_eq_getElem (by omega)
    rw [imageWord_two hx hy, Nat.mul_comm 2 w]
    generalize data[w * 2] = x at hx
    generalize data[w * 2 + 1] = y at hy
    have hlt := x.toNat_lt
    obtain rfl | rfl : lane = 0 ∨ lane = 1 := by omega
    · rw [Nat.add_zero, hx]
      simp only [laneByte, wordBytesOf, hmask, List.getElem?_map, Nat.shiftRight_zero, Nat.mul_zero,
        List.getElem?_range (show 0 < 2 by omega), Option.map_some, Option.some.injEq]
      apply UInt8.toNat_inj.mp
      rw [UInt8.toNat_ofNat']
      omega
    · rw [hy]
      simp only [laneByte, wordBytesOf, hmask, List.getElem?_map, Nat.shiftRight_eq_div_pow, Nat.mul_one,
        List.getElem?_range (show 1 < 2 by omega), Option.map_some, Option.some.injEq]
      apply UInt8.toNat_inj.mp
      rw [UInt8.toNat_ofNat', show (2 : ℕ) ^ 8 = 256 from rfl]
      have := y.toNat_lt
      omega

/-- What is read at the indices that select a chip is what it serves at the addresses. -/
lemma held_iff {all : List Chip} {algDma : OneromAlgDmaConfig} {select : List ℕ} {table : List UInt8}
    (h : Servable addr cs setType all algDma select)
    (htable : buildRomImage addr cs setType all algDma = .ok table) {k : ℕ} {chip : Chip}
    {data : List UInt8} (hk : all[k]? = some chip) (hdata : chip.data = some data) (a : ℕ) :
    Held addr cs setType all (bytesPerWord algDma) table k data a ↔
      ∃ w < 2 ^ addr.addrPinGpios.length,
        laneByte (bytesPerWord algDma) (servedWord (bytesPerWord algDma) chip.chipType data w)
          (a % bytesPerWord algDma) = data[a]? := by
  obtain ⟨bankBits, multi, hbank, hmulti, hsel⟩ :=
    selection h.selects fun g hg => h.within g (List.mem_append_right _ hg)
  have htable_eq := Except.ok.inj (htable.symm.trans (buildRomImage_of_selection h hbank hmulti hsel))
  -- what is read at an index is the word of the chip it selects
  have hread : ∀ i < tableEntries addr, chipIndex bankBits multi all.length i = some k →
      readBack cs (imageWord (bytesPerWord algDma) table i) =
        servedWord (bytesPerWord algDma) chip.chipType data
          (gather i (addr.addrPinGpios.map (· - addr.gpioBase))) := by
    intro i hi hchip
    have hword : indexWord addr all (bytesPerWord algDma) bankBits multi i =
        servedWord (bytesPerWord algDma) chip.chipType data
          (gather i (addr.addrPinGpios.map (· - addr.gpioBase))) := by
      rw [indexWord, hchip, Option.bind_some, hk]
      dsimp only
      rw [hdata, Option.getD_some]
    rw [htable_eq, imageWord_flatMap (bytesPerWord_eq algDma) _ (h.mangleWord_lt _),
      h.readBack_mangleWord (indexWord_lt _ _ _ _ _), hword]
    rw [List.getElem?_map, List.getElem?_range hi, Option.map_some]
  constructor
  · rintro ⟨i, hi, ⟨bankBits', multi', hbank', hmulti', hchip⟩, hlane⟩
    obtain rfl := Except.ok.inj (hbank.symm.trans hbank')
    obtain rfl := Except.ok.inj (hmulti.symm.trans hmulti')
    rw [hread i hi hchip] at hlane
    refine ⟨_, ?_, hlane⟩
    have hlt : gather i (addr.addrPinGpios.map (· - addr.gpioBase)) < _ := gather_lt
    rwa [List.length_map] at hlt
  · rintro ⟨w, hw, hlane⟩
    have hdrives := drives_drive h (fun _ => false) w k
    generalize drive addr setType select (fun _ => false) w k = levels at hdrives
    have hlt : k < all.length := (List.getElem?_eq_some_iff.mp hk).1
    have hchip := hsel.chosen levels k hlt hdrives.chosen
    have hi : windowIndex addr levels < tableEntries addr := sample_lt _ _ _
    have haddr : gather (windowIndex addr levels) (addr.addrPinGpios.map (· - addr.gpioBase)) = w :=
      gather_sample (fun g hg => h.within g (List.mem_append_left _ hg)) hw hdrives.address
    refine ⟨_, hi, ⟨bankBits, multi, hbank, hmulti, hchip⟩, ?_⟩
    rw [hread _ hi hchip, haddr]
    exact hlane

/-- The bytes of a chip that the first chip's address lines reach, as far as a table may go. -/
def reach (chip0 : ChipType) : ℕ := min (2 ^ chip0.addressPins.length) MAX_IMAGE_SIZE

lemma reach_eq {ctx : SlotContext} (hok : SlotOk board setType chip0 chips slot addr cs ctx)
    (haddr : deriveAddrLayout ctx = .ok addr) :
    bytesPerWord slot.alg.algDma * 2 ^ addr.addrPinGpios.length = reach chip0.chipType := by
  have hstart : ctx.addrLineStart ≤ ctx.chip0.addressPins.length := by
    unfold deriveAddrLayout at haddr
    rw [seq_eq_ok, refuse_eq_ok] at haddr
    exact not_lt.mp haddr.1
  have h8 : Nat.log2 (MAX_IMAGE_SIZE / 1) = 19 := by decide +kernel
  have h16 : Nat.log2 (MAX_IMAGE_SIZE / 2) = 18 := by decide +kernel
  have hlen : addr.addrPinGpios.length = ctx.numInRange := by
    rw [← hok.addrOk.inRange.length_eq, List.length_take, SlotContext.numInRange]
    omega
  have hmono : ∀ n, min (2 ^ n) MAX_IMAGE_SIZE = 2 ^ min n 19 := fun n =>
    ((pow_right_mono₀ (by decide : 1 ≤ 2)).map_min (b := 19)).symm
  rw [reach, hmono, ← hok.chip0_eq, hlen, SlotContext.numInRange, SlotContext.addressLines,
    List.length_drop, bytesPerWord, hok.algOk.algDma, buildAlgDma]
  unfold SlotContext.addrLineStart at hstart ⊢
  cases hmode : ctx.bitMode with
  | bitMode8 =>
    rw [if_neg (by decide), show BitModes.bitMode8.bytesPerWord = 1 from rfl, h8]
    simp
  | bitMode16 =>
    rw [hmode, if_pos rfl] at hstart
    rw [if_pos rfl, show BitModes.bitMode16.bytesPerWord = 2 from rfl, h16, ← Nat.pow_succ']
    congr 1
    omega

lemma two_dvd_sizeBytes (t : ChipType) : 2 ∣ t.sizeBytes := by
  cases t <;> decide

/-- **What a table holds**: of a chip whose image is within the reach of the first chip's address
lines it holds every byte, so of every chip of the first one's type that fits a table. Of a longer
image it holds what equals a byte within that reach on the same data lines. -/
theorem slotTable_holds (hboard : board ∈ boards)
    (h : buildRomSlot board setType chip0 chips force16Bit = .ok (slot, addr, cs))
    (hsized : ∀ chip ∈ chip0 :: chips, Sized chip) {table : List UInt8}
    (htable : buildRomImage addr cs setType (chip0 :: chips) slot.alg.algDma = .ok table) {k : ℕ}
    {chip : Chip} {data : List UInt8} (hk : (chip0 :: chips)[k]? = some chip)
    (hdata : chip.data = some data) :
    (data.length ≤ reach chip0.chipType → ∀ a < data.length,
      Held addr cs setType (chip0 :: chips) (bytesPerWord slot.alg.algDma) table k data a) ∧
    (chip.chipType = chip0.chipType → data.length ≤ MAX_IMAGE_SIZE →
      data.length ≤ reach chip0.chipType) ∧
    (reach chip0.chipType < data.length → ∀ a,
      Held addr cs setType (chip0 :: chips) (bytesPerWord slot.alg.algDma) table k data a ↔
        ∃ b < reach chip0.chipType,
          b % bytesPerWord slot.alg.algDma = a % bytesPerWord slot.alg.algDma ∧
            data[b]? = data[a]?) := by
  obtain ⟨select, hselect⟩ := chooses hboard h (countOk_of_built htable)
  have hserv := servable hboard h hsized hselect
  obtain ⟨ctx, hctx, haddr, -, hok⟩ := buildRomSlot_layouts h
  have hreach := reach_eq hok haddr
  have hw := bytesPerWord_eq slot.alg.algDma
  have hlen : data.length = chip.chipType.sizeBytes := by
    obtain ⟨data', hdata', hlen⟩ := hsized chip (List.mem_of_getElem? hk)
    cases hdata.symm.trans hdata'
    exact hlen
  have heven : bytesPerWord slot.alg.algDma ∣ data.length := by
    rw [hlen]
    rcases hw with hw | hw <;> rw [hw]
    · exact one_dvd _
    · exact two_dvd_sizeBytes _
  have hheld := held_iff hserv htable hk hdata
  generalize bytesPerWord slot.alg.algDma = wb at hreach hw heven hheld
  have hpos : 0 < wb := by omega
  -- a word within the image is served as it is
  have hword : ∀ w < data.length / wb, ∀ a, laneByte wb (servedWord wb chip.chipType data w) (a % wb) =
      data[wb * w + a % wb]? := fun w hlt a => by
    rw [servedWord, if_pos (hlen ▸ hlt), laneByte_imageWord hw (Nat.mod_lt _ hpos) hlt]
  refine ⟨fun hle a ha => ?_, fun htype hmax => ?_, fun hlt a => ?_⟩
  · have hdiv : a / wb < data.length / wb := Nat.div_lt_div_of_lt_of_dvd heven ha
    refine (hheld a).mpr ⟨a / wb, ?_, ?_⟩
    · rw [Nat.div_lt_iff_lt_mul hpos, Nat.mul_comm, hreach]
      omega
    · rw [hword _ hdiv, Nat.div_add_mod]
  · have hpins : chip0.chipType.chipPins ≠ 0 := (pins_of_offset (AddrMap.slotContext_offset hctx)).1
    rw [hlen, htype] at hmax ⊢
    exact le_min ((sizeBytes_le _).resolve_left hpins) hmax
  · have hall : ∀ w < 2 ^ addr.addrPinGpios.length, w < data.length / wb := fun w hw' => by
      rw [Nat.lt_div_iff_mul_lt' heven]
      calc wb * w < wb * 2 ^ addr.addrPinGpios.length := Nat.mul_lt_mul_of_pos_left hw' hpos
        _ < data.length := by rw [hreach]; exact hlt
    rw [hheld]
    constructor
    · rintro ⟨w, hw', hlane⟩
      rw [hword w (hall w hw')] at hlane
      refine ⟨wb * w + a % wb, ?_, ?_, hlane⟩
      · calc wb * w + a % wb < wb * w + wb := Nat.add_lt_add_left (Nat.mod_lt _ hpos) _
          _ = wb * (w + 1) := (Nat.mul_succ _ _).symm
          _ ≤ wb * 2 ^ addr.addrPinGpios.length := Nat.mul_le_mul_left _ hw'
          _ = reach chip0.chipType := hreach
      · rw [Nat.mul_add_mod, Nat.mod_mod]
    · rintro ⟨b, hb, hmod, hbyte⟩
      have hb' : b / wb < 2 ^ addr.addrPinGpios.length := by
        rw [Nat.div_lt_iff_lt_mul hpos, Nat.mul_comm, hreach]
        exact hb
      refine ⟨b / wb, hb', ?_⟩
      rw [hword _ (hall _ hb'), ← hmod, Nat.div_add_mod]
      exact hbyte

/-- Every byte of the 2316 beside a 2364 is in their table. -/
theorem slotTable_holds_pair : ∃ slot addr cs table,
    buildRomSlot fire24C .multi pair.1 [pair.2] false = .ok (slot, addr, cs) ∧
      ∀ a < 2048, Held addr cs .multi [pair.1, pair.2] (bytesPerWord slot.alg.algDma) table 1 ones
        a := by
  obtain ⟨slot, addr, cs, h, -⟩ := pair_built
  obtain ⟨table, htable⟩ := slotTable_built fire24C_mem h pair_sized ⟨le_rfl, Nat.le_succ 2⟩
  obtain ⟨hheld, -, -⟩ :=
    slotTable_holds fire24C_mem h pair_sized htable
      (show [pair.1, pair.2][1]? = some pair.2 from rfl) rfl
  have hones : ones.length = 2048 := List.length_replicate
  refine ⟨slot, addr, cs, table, h, fun a ha => hheld ?_ a (hones ▸ ha)⟩
  rw [hones]
  decide

end Table

end OneRom.SlotTable
