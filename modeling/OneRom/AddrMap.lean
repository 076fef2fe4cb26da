import OneRom.AddrSearch
import OneRom.Capture
import OneRom.Overrides

/-!
The mapping of logical addresses and bytes to a ROM table, and back.

Of a slot the generator makes for one of the boards, `pioDemangleAddr_map` and `pioDemangleData_map`
say that what is mapped is mapped back, of every address the table has an entry for.
-/

namespace OneRom.AddrMap

open OneRom.AddrSearch OneRom.AlgConfig OneRom.Bonds OneRom.Capture OneRom.Checks
open OneRom.ChipTypes OneRom.DeriveAddr OneRom.DeriveCs OneRom.Hw OneRom.Layout OneRom.Overrides
open OneRom.RomSlot OneRom.SlotLayout
open OneRom.PinMaps hiding xPins

/-- The logical byte address of an entry of the ROM table. With words of 16 bits the entry's lowest
bit is that of the address. -/
def pioDemangleAddr (slot : OneromRomSlot) (hw : OneromHardwareInfo) (physicalAddr : ℕ)
    (checkControlPins : Bool) : Except PinMaps.OraResult ℕ :=
  if slot.alg.algData.wordSize = 16 then
    (pioDemangleObservedAddr slot hw (physicalAddr >>> 1) checkControlPins).map fun logical =>
      (logical <<< 1 ||| physicalAddr &&& 1) % 2 ^ 32
  else pioDemangleObservedAddr slot hw physicalAddr checkControlPins

/-! ### Words of bits -/

section Words

variable {α : Type} {l : List α}

lemma testBit_bitAt (pos p : ℕ) : (bitAt pos).testBit p = (decide (pos < 32) && pos == p) := by
  rw [bitAt]
  split_ifs with h
  · rw [Nat.one_shiftLeft, Nat.testBit_two_pow, decide_eq_true h, Bool.true_and, Bool.eq_iff_iff]
    simp
  · simp [h]

lemma testBit_foldl_bitAt (l : List α) (f : α → Bool) (pos : α → ℕ) (acc p : ℕ) :
    (l.foldl (fun acc x => if f x then acc ||| bitAt (pos x) else acc) acc).testBit p =
      (acc.testBit p || l.any fun x => f x && (bitAt (pos x)).testBit p) := by
  induction l generalizing acc with
  | nil => simp
  | cons x l ih =>
    rw [List.foldl_cons, ih, List.any_cons, ← Bool.or_assoc]
    congr 1
    by_cases hx : f x
    · simp [hx, Nat.testBit_or]
    · simp [hx]

/-- A bit that is put at a place of its own is read back there. -/
lemma testBit_foldl_of_mem (f : α → Bool) (pos : α → ℕ) {x : α} (hx : x ∈ l) (hlt : pos x < 32)
    (hinj : ∀ y ∈ l, pos y = pos x → y = x) :
    (l.foldl (fun acc x => if f x then acc ||| bitAt (pos x) else acc) 0).testBit (pos x) = f x := by
  rw [testBit_foldl_bitAt, Nat.zero_testBit, Bool.false_or, Bool.eq_iff_iff, List.any_eq_true]
  constructor
  · rintro ⟨y, hy, hbit⟩
    simp only [testBit_bitAt, Bool.and_eq_true, beq_iff_eq] at hbit
    rw [← hinj y hy hbit.2.2]
    exact hbit.1
  · intro hf
    exact ⟨x, hx, by simp [hf, testBit_bitAt, hlt]⟩

lemma testBit_foldl_of_notMem (f : α → Bool) (pos : α → ℕ) {p : ℕ} (hout : ∀ x ∈ l, pos x ≠ p) :
    (l.foldl (fun acc x => if f x then acc ||| bitAt (pos x) else acc) 0).testBit p = false := by
  rw [testBit_foldl_bitAt, Nat.zero_testBit, Bool.false_or, List.any_eq_false]
  intro x hx
  simp [testBit_bitAt, hout x hx]

lemma foldl_bitAt_lt (f : α → Bool) (pos : α → ℕ) {k : ℕ} (h : ∀ x ∈ l, f x → pos x < k) :
    l.foldl (fun acc x => if f x then acc ||| bitAt (pos x) else acc) 0 < 2 ^ k := by
  refine Nat.lt_pow_two_of_testBit _ fun p hp => ?_
  rw [testBit_foldl_bitAt, Nat.zero_testBit, Bool.false_or, List.any_eq_false]
  intro x hx hbit
  simp only [testBit_bitAt, Bool.and_eq_true, beq_iff_eq] at hbit
  have := h x hx hbit.1
  omega

end Words

section Pins

variable {base n g p : ℕ} {pins : List ℕ} {level : ℕ → ℕ → Bool}

lemma scatterPins_eq (base : ℕ) (pins : List ℕ) (level : ℕ → ℕ → Bool) :
    scatterPins base pins level = pins.zipIdx.foldl (fun acc x =>
      if level x.1 x.2 then acc ||| bitAt (bitPos x.1 base) else acc) 0 := rfl

lemma gatherPins_eq (pins : List ℕ) (level : ℕ → Bool) :
    gatherPins pins level = pins.zipIdx.foldl (fun acc x =>
      if level x.1 then acc ||| bitAt x.2 else acc) 0 := rfl

/-- Positions of GPIOs differ as the GPIOs do. -/
lemma bitPos_inj {g' : ℕ} (hg : g < 256) (hg' : g' < 256) (hbase : base ≤ 256)
    (h : bitPos g base = bitPos g' base) : g = g' := by
  unfold bitPos at h
  omega

/-- A pin's bit is at its position. -/
lemma testBit_scatterPins (hn : pins[n]? = some g) (hnodup : pins.Nodup) (hbase : base ≤ 256)
    (hlt : ∀ g ∈ pins, g < 256) (hpos : bitPos g base < 32) :
    (scatterPins base pins level).testBit (bitPos g base) = level g n := by
  rw [scatterPins_eq]
  have hmem : (g, n) ∈ pins.zipIdx := List.mem_zipIdx_iff_getElem?.mpr hn
  refine testBit_foldl_of_mem (fun x : ℕ × ℕ => level x.1 x.2) (fun x => bitPos x.1 base) hmem hpos
    fun y hy hyp => ?_
  obtain ⟨g', n'⟩ := y
  have hn' : pins[n']? = some g' := List.mem_zipIdx_iff_getElem?.mp hy
  obtain rfl := bitPos_inj (hlt g' (List.mem_of_getElem? hn')) (hlt g (List.mem_of_getElem? hn))
    hbase hyp
  obtain ⟨hi, heq⟩ := List.getElem?_eq_some_iff.mp hn
  obtain ⟨hi', heq'⟩ := List.getElem?_eq_some_iff.mp hn'
  rw [Prod.mk.injEq]
  exact ⟨rfl, hnodup.getElem_inj_iff.mp (heq'.trans heq.symm)⟩

/-- There is no bit where no pin is. -/
lemma testBit_scatterPins_of_notMem (hbase : base ≤ 256) (hlt : ∀ g ∈ pins, g < 256) (hg : g < 256)
    (hout : g ∉ pins) : (scatterPins base pins level).testBit (bitPos g base) = false := by
  rw [scatterPins_eq]
  refine testBit_foldl_of_notMem (fun x : ℕ × ℕ => level x.1 x.2) (fun x => bitPos x.1 base)
    fun y hy hyp => ?_
  have hmem := List.fst_mem_of_mem_zipIdx hy
  exact hout (bitPos_inj (hlt _ hmem) hg hbase hyp ▸ hmem)

lemma scatterPins_lt {k : ℕ} (h : ∀ g ∈ pins, bitPos g base < k) :
    scatterPins base pins level < 2 ^ k := by
  rw [scatterPins_eq]
  exact foldl_bitAt_lt (fun x : ℕ × ℕ => level x.1 x.2) (fun x => bitPos x.1 base) fun x hx _ =>
    h x.1 (List.fst_mem_of_mem_zipIdx hx)

lemma testBit_gatherPins {level : ℕ → Bool} (hlen : pins.length ≤ 32) :
    (gatherPins pins level).testBit n = pins[n]?.any level := by
  rw [gatherPins_eq]
  cases hn : pins[n]? with
  | none =>
    refine testBit_foldl_of_notMem (fun x : ℕ × ℕ => level x.1) (fun x => x.2) fun x hx heq => ?_
    have hx := List.mem_zipIdx_iff_getElem?.mp hx
    rw [heq, hn] at hx
    cases hx
  | some g =>
    have hi := (List.getElem?_eq_some_iff.mp hn).1
    have hmem : (g, n) ∈ pins.zipIdx := List.mem_zipIdx_iff_getElem?.mpr hn
    refine testBit_foldl_of_mem (fun x : ℕ × ℕ => level x.1) (fun x => x.2) hmem
      (by dsimp only; omega) fun y hy heq => ?_
    have hy := List.mem_zipIdx_iff_getElem?.mp hy
    obtain ⟨g', n'⟩ := y
    obtain rfl : n' = n := heq
    rw [hn] at hy
    obtain rfl := Option.some.inj hy
    rfl

end Pins

/-! ### The slots of the boards -/

/-- The generator makes the slot for one of the boards. -/
def Served (slot : OneromRomSlot) : Prop :=
  ∃ board ∈ boards, ∃ setType chip0 chips force16Bit addr cs,
    buildRomSlot board setType chip0 chips force16Bit = .ok (slot, addr, cs)

/-- How many bits of an address aren't those of address lines. -/
def wordBits (slot : OneromRomSlot) : ℕ := if slot.alg.algData.wordSize = 16 then 1 else 0

def chipSize (slot : OneromRomSlot) : ℕ := (slot.roms.head?.map (·.chipSize)).getD 0

/-- What the maps of a slot rest on. The address lines' GPIOs differ, are in the window and aren't
forced, the select lines' are in it too and are no address lines', and the table has an entry for
each address of the window. -/
structure MapOk (slot : OneromRomSlot) : Prop where
  base : addrBase slot ≤ 48
  pins : ∀ g ∈ addrPins slot, g < 48 ∧ bitPos g (addrBase slot) < slot.alg.algAddr.numAddrPins ∧
    (v2GetGpioOverride slot g).forced = false
  nodup : (addrPins slot).Nodup
  select : slot.slotType = .multiRom → ∀ g ∈ firstRomPins slot, g < 48 ∧ g ∉ addrPins slot ∧
    bitPos g (addrBase slot) < slot.alg.algAddr.numAddrPins
  tableBits : slot.alg.algAddr.numRomTableBits = slot.alg.algAddr.numAddrPins + wordBits slot
  fits : slot.alg.algAddr.numRomTableBits ≤ 19
  size : chipSize slot ≤ 2 ^ 20
  lines : min (chipSize slot) (2 ^ slot.alg.algAddr.numRomTableBits) ≤
    2 ^ ((addrPins slot).length + wordBits slot)

section Slots

variable {board : Board} {setType : ChipSetType} {chip0 : Chip} {chips : List Chip}
  {force16Bit : Bool} {slot : OneromRomSlot} {addr : AddrLayout} {cs : CsDataLayout}
  {ctx : SlotContext}

lemma addressPins_nodup (t : ChipType) : t.addressPins.Nodup := by
  cases t <;> decide

/-- Address lines are at pins of their own. -/
lemma linePins_nodup {pins : List ℕ} (flyLeads : ℕ) (h : pins.Nodup) :
    (linePins ctx flyLeads pins).Nodup ∧
      (∀ n, Pin.socket n ∈ linePins ctx flyLeads pins → ∃ pin ∈ pins, ctx.socketPin pin = some n) ∧
      ∀ n, Pin.x n ∈ linePins ctx flyLeads pins → flyLeads < n := by
  induction pins generalizing flyLeads with
  | nil => simp [linePins]
  | cons pin pins ih =>
    obtain ⟨hout, h⟩ := List.nodup_cons.mp h
    unfold linePins
    cases hpin : ctx.socketPin pin with
    | some n =>
      obtain ⟨hnodup, hsocket, hx⟩ := ih flyLeads h
      refine ⟨List.nodup_cons.mpr ⟨fun hin => ?_, hnodup⟩, fun m hm => ?_, fun m hm => ?_⟩
      · obtain ⟨pin', hpin', heq⟩ := hsocket n hin
        exact hout (ctx.socketPin_inj hpin heq ▸ hpin')
      · rcases List.mem_cons.mp hm with heq | hm
        · cases heq
          exact ⟨pin, List.mem_cons_self, hpin⟩
        · obtain ⟨pin', hpin', heq⟩ := hsocket m hm
          exact ⟨pin', List.mem_cons_of_mem _ hpin', heq⟩
      · rcases List.mem_cons.mp hm with heq | hm
        · cases heq
        · exact hx m hm
    | none =>
      obtain ⟨hnodup, hsocket, hx⟩ := ih (flyLeads + 1) h
      refine ⟨List.nodup_cons.mpr ⟨fun hin => ?_, hnodup⟩, fun m hm => ?_, fun m hm => ?_⟩
      · exact absurd (hx _ hin) (lt_irrefl _)
      · rcases List.mem_cons.mp hm with heq | hm
        · cases heq
        · obtain ⟨pin', hpin', heq⟩ := hsocket m hm
          exact ⟨pin', List.mem_cons_of_mem _ hpin', heq⟩
      · rcases List.mem_cons.mp hm with heq | hm
        · cases heq
          omega
        · have := hx m hm
          omega

/-- The GPIOs of the address lines differ. -/
lemma addrPinGpios_nodup (h : deriveAddrLayout ctx = .ok addr) : addr.addrPinGpios.Nodup := by
  obtain ⟨⟨gpios, hsmallest⟩, -⟩ := (deriveAddrLayout_smallest ctx).1 addr h
  obtain ⟨hchoice, -, -⟩ := hsmallest.reachable
  have htake := List.forall₂_take ctx.addressLines.length hchoice
  rw [slotPins, ← length_linePins 0 ctx.addressLines, List.take_left] at htake
  have hpins : (linePins ctx 0 ctx.addressLines).Nodup := (linePins_nodup 0
    ((List.drop_sublist ctx.addrLineStart _).nodup (addressPins_nodup ctx.chip0))).1
  have hnodup := nodup_of_forall₂ htake hpins fun p q g hp hq => Board.pin_eq hp hq
  rw [hsmallest.layout_eq, layoutOf]
  refine (List.Sublist.nodup ?_ hnodup)
  rw [length_linePins]
  exact List.take_sublist_take_left (min_le_left _ _)

/-- A Multi set's select is a control line's, so its GPIO is no address line's. -/
lemma firstSelect_notMem (hmulti : ctx.setType = .multi) (haddr : AddrOk ctx addr)
    (hcs : CsOk ctx addr cs) : firstSelect cs ∉ addr.addrPinGpios := by
  obtain ⟨lines, hlines, -, select, hselect, heq⟩ := hcs.lines
  have hplace : ∃ a, SelectPlace ctx a ∧ At ctx a (firstSelect cs) := by
    unfold selectCandidates at hlines
    rw [hmulti] at hlines
    cases hmcc : ctx.multiCsConfig with
    | none =>
      rw [hmcc] at hlines
      cases hlines
    | some mcc =>
      rw [hmcc] at hlines
      obtain ⟨first, hfirst, hrest⟩ := bind_eq_ok.mp hlines
      obtain ⟨commoned, -, hrest⟩ := bind_eq_ok.mp hrest
      obtain ⟨ignored, -, hrest⟩ := bind_eq_ok.mp hrest
      obtain ⟨x1, -, hrest⟩ := bind_eq_ok.mp hrest
      obtain ⟨x2, -, hrest⟩ := bind_eq_ok.mp hrest
      cases pure_eq_ok.mp hrest
      obtain ⟨line, -, hsel, hat⟩ := multiLine_place hfirst
      rw [List.cons_append] at hselect
      cases hselect with
      | cons hline _ =>
        rw [firstSelect, heq]
        exact ⟨_, hsel, hat _ hline.2⟩
  intro hin
  obtain ⟨a, ha, hag⟩ := hplace
  obtain ⟨pin, hpin, hg⟩ := exists_left haddr.inRange hin
  obtain ⟨b, hb, hbg⟩ := place_of_addressAt (List.mem_of_mem_take hpin) hg
  exact selectPlace_ne ha hb (at_inj hag hbg)

/-- On a board with X pins each pin of the socket has one GPIO. -/
lemma selectsFixed (hboard : ctx.board ∈ boards) (hmulti : ctx.setType = .multi)
    (haddr : AddrOk ctx addr) : SelectsFixed ctx := by
  have hxpins : Pin.x 1 ∈ xPins ctx := by
    unfold xPins
    rw [if_neg (by rw [hmulti]; decide)]
    split_ifs <;> simp
  obtain ⟨g, -, hg⟩ := exists_left haddr.x.flip hxpins
  obtain ⟨entry, hentry, -⟩ := mem_find_getD (show g ∈ ctx.board.gpios (.x 1) from hg)
  intro mcc _ kind _ line n _ _
  unfold Board.gpiosForSocketPin
  cases hfind : ctx.board.socketPinMap.find? (·.1 == n) with
  | none => simp
  | some pin =>
    exact (single_of_xPins _ hboard (List.ne_nil_of_mem hentry) pin
      (List.mem_of_find?_eq_some hfind)).le

lemma wordSize_eq (h : SlotOk board setType chip0 chips slot addr cs ctx) :
    slot.alg.algData.wordSize = 8 * ctx.bitMode.bytesPerWord := by
  rw [h.algOk.algData]
  unfold buildAlgData
  cases ctx.bitMode with
  | bitMode8 => rfl
  | bitMode16 =>
    dsimp only
    split_ifs <;> rfl

lemma wordBits_eq (h : SlotOk board setType chip0 chips slot addr cs ctx) :
    wordBits slot = ctx.addrLineStart := by
  rw [wordBits, wordSize_eq h, SlotContext.addrLineStart]
  cases ctx.bitMode <;> simp [BitModes.bytesPerWord]

lemma tableBits_eq (h : SlotOk board setType chip0 chips slot addr cs ctx) :
    slot.alg.algAddr.numRomTableBits = slot.alg.algAddr.numAddrPins + wordBits slot := by
  rw [wordBits, wordSize_eq h, h.algOk.algAddr, buildAlgAddr, wordSize_eq h]
  cases ctx.bitMode <;> simp [BitModes.bytesPerWord]

lemma tableBits_le (h : SlotOk board setType chip0 chips slot addr cs ctx) :
    slot.alg.algAddr.numRomTableBits ≤ 19 := by
  have hsize : slot.size = 2 ^ slot.alg.algAddr.numRomTableBits := by
    rw [tableBits_eq h, numAddrPins_eq h, wordBits_eq h, h.size, romTableSize, tableEntries,
      bytesPerWord, h.algOk.algDma, buildAlgDma, SlotContext.addrLineStart, Nat.pow_add]
    cases ctx.bitMode <;> rfl
  have hfits : 2 ^ slot.alg.algAddr.numRomTableBits ≤ 2 ^ 19 := hsize ▸ h.fits
  exact (Nat.pow_le_pow_iff_right (by decide)).mp hfits

lemma chipSize_eq (h : SlotOk board setType chip0 chips slot addr cs ctx) :
    chipSize slot = ctx.chip0.sizeBytes := by
  rw [chipSize, h.roms, h.chip0_eq]
  rfl

/-- A chip has an address for each of its bytes. -/
lemma sizeBytes_le (t : ChipType) : t.chipPins = 0 ∨ t.sizeBytes ≤ 2 ^ t.addressPins.length := by
  cases t <;> decide

lemma sizeBytes_le_max (t : ChipType) : t.sizeBytes ≤ 2 ^ 20 := by
  cases t <;> decide

lemma length_addrPins (h : SlotOk board setType chip0 chips slot addr cs ctx) :
    (addrPins slot).length = ctx.numInRange := by
  rw [addrPins_eq h, ← h.addrOk.inRange.length_eq, List.length_take, SlotContext.numInRange]
  omega

/-- An address of the chip that the table has room for is one of the lines'. -/
lemma lines_le (h : SlotOk board setType chip0 chips slot addr cs ctx)
    (hpins : ctx.chip0.chipPins ≠ 0) :
    min (chipSize slot) (2 ^ slot.alg.algAddr.numRomTableBits) ≤
      2 ^ ((addrPins slot).length + wordBits slot) := by
  have hsize := (sizeBytes_le ctx.chip0).resolve_left hpins
  have htable := tableBits_le h
  have h8 : Nat.log2 (MAX_IMAGE_SIZE / 1) = 19 := by decide +kernel
  have h16 : Nat.log2 (MAX_IMAGE_SIZE / 2) = 18 := by decide +kernel
  -- the lines are all those of the chip, or as many as the largest table has bits
  have hlen : ctx.chip0.addressPins.length ≤ (addrPins slot).length + wordBits slot ∨
      slot.alg.algAddr.numRomTableBits ≤ (addrPins slot).length + wordBits slot := by
    rw [length_addrPins h, wordBits_eq h, SlotContext.numInRange, SlotContext.addressLines,
      List.length_drop]
    unfold SlotContext.addrLineStart
    cases ctx.bitMode with
    | bitMode8 =>
      rw [if_neg (by decide), show BitModes.bitMode8.bytesPerWord = 1 from rfl, h8]
      omega
    | bitMode16 =>
      rw [if_pos rfl, show BitModes.bitMode16.bytesPerWord = 2 from rfl, h16]
      omega
  rw [chipSize_eq h]
  rcases hlen with hlen | hlen
  · exact (min_le_left _ _).trans (hsize.trans (Nat.pow_le_pow_right (by decide) hlen))
  · exact (min_le_right _ _).trans (Nat.pow_le_pow_right (by decide) hlen)

lemma pins_of_offset {a b : ℕ} {offset : ℤ} (h : socketPinOffset a b = some offset) :
    a ≠ 0 ∧ (a = 40 → b = 40 ∧ offset = 0) := by
  unfold socketPinOffset at h
  split at h <;> simp_all

lemma slotContext_offset (h : slotContext board setType chip0 chips force16Bit = .ok ctx) :
    socketPinOffset chip0.chipType.chipPins board.chipPins = some ctx.pinOffset := by
  unfold slotContext at h
  split at h
  · cases h
  · next offset hoffset =>
    obtain ⟨mcc, -, h⟩ := bind_eq_ok.mp h
    cases pure_eq_ok.mp h
    exact hoffset

lemma mapOk (h : Served slot) : MapOk slot := by
  obtain ⟨board, hboard, setType, chip0, chips, force16Bit, addr, cs, h⟩ := h
  obtain ⟨ctx, hctx, haddr, hcs, hok⟩ := buildRomSlot_layouts h
  obtain ⟨hwindow, hend⟩ := window_bounds hok.window
  have hpos : ∀ {g : ℕ}, g < 48 → (bitPos g (addrBase slot) < slot.alg.algAddr.numAddrPins ↔
      addr.gpioBase ≤ g ∧ g < addr.gpioBase + addr.numAddrPins) := fun hg => by
    rw [addrBase_eq hok, numAddrPins_eq hok]
    exact bitPos_lt_iff (by omega) hg hwindow
  have hpins : ctx.chip0.chipPins ≠ 0 := by
    rw [hok.chip0_eq]
    exact (pins_of_offset (slotContext_offset hctx)).1
  exact
    { base := by rw [addrBase_eq hok]; omega
      pins := by
        intro g hg
        rw [addrPins_eq hok] at hg
        have hin := addr_lt hok hg
        have hused : g ∈ usedGpios addr cs slot.alg.algData := by
          simp only [usedGpios, List.mem_append]
          tauto
        exact ⟨by omega, (hpos (by omega)).mpr hin, override_of_used hok hused⟩
      nodup := by
        rw [addrPins_eq hok]
        exact addrPinGpios_nodup haddr
      select := by
        intro htype g hg
        have hmulti := (multiRom_iff hok).mp htype
        have hchecked := firstRomPins_mem hok hmulti hg
        have hcs2 : cs.algCs2 = none := by
          by_contra hne
          obtain ⟨cs2, hcs2⟩ := Option.ne_none_iff_exists'.mp hne
          rw [firstRomPins, hok.algOk.algCs, buildAlgCs, hcs2] at hg
          cases hg
        rw [checkedGpios, hcs2, if_neg (by simp), if_pos hmulti] at hchecked
        obtain rfl := List.mem_singleton.mp hchecked
        have hlt := (firstSelect_bounds hok).2.1
        have hmulti' := hok.setType_eq.trans hmulti
        refine ⟨hlt, ?_, (hpos hlt).mpr ?_⟩
        · rw [addrPins_eq hok]
          exact firstSelect_notMem hmulti' hok.addrOk hok.csOk
        · exact ((deriveAddrLayout_smallest ctx).1 addr haddr).2 cs hmulti'
            (selectsFixed (hok.board_eq ▸ hboard) hmulti' hok.addrOk) hcs _ List.mem_cons_self
      tableBits := tableBits_eq hok
      fits := tableBits_le hok
      size := by
        rw [chipSize_eq hok]
        exact sizeBytes_le_max _
      lines := lines_le hok hpins }

end Slots

/-! ### Addresses -/

section Addresses

variable {slot : OneromRomSlot} {a : ℕ}

/-- The word address of a logical address. -/
def wordAddr (slot : OneromRomSlot) (a : ℕ) : ℕ :=
  if slot.alg.algData.wordSize = 16 then a >>> 1 else a

/-- What the address and the select lines of a word address read. -/
def mapWord (slot : OneromRomSlot) (word : ℕ) : ℕ :=
  (scatterPins (addrBase slot) (addrPins slot) fun gpio n =>
      (v2GetGpioOverride slot gpio).apply (word.testBit n)) |||
    if slot.slotType = .multiRom then
      scatterPins (addrBase slot) (firstRomPins slot) fun gpio _ =>
        v2GetGpioOverride slot gpio ≠ .low
    else 0

lemma pioMapAddrToPhys_eq (slot : OneromRomSlot) (a : ℕ) :
    pioMapAddrToPhys slot a =
      if slot.alg.algData.wordSize = 16 then
        (mapWord slot (wordAddr slot a) <<< 1 ||| a &&& 1) % 2 ^ 32
      else mapWord slot (wordAddr slot a) := rfl

lemma apply_apply {ov : GpioOverride} (h : ov.forced = false) (level : Bool) :
    ov.apply (ov.apply level) = level := by
  cases ov with
  | normal => rfl
  | invert => exact Bool.not_not level
  | low => cases h
  | high => cases h

/-- An address line's bit is at its position. -/
lemma testBit_mapWord (h : MapOk slot) {word n g : ℕ} (hn : (addrPins slot)[n]? = some g) :
    (mapWord slot word).testBit (bitPos g (addrBase slot)) =
      (v2GetGpioOverride slot g).apply (word.testBit n) := by
  have hfits := h.fits
  have htable := h.tableBits
  have hbase := h.base
  obtain ⟨hg, hpos, -⟩ := h.pins g (List.mem_of_getElem? hn)
  have hline : (scatterPins (addrBase slot) (addrPins slot) fun gpio n =>
      (v2GetGpioOverride slot gpio).apply (word.testBit n)).testBit (bitPos g (addrBase slot)) =
        (v2GetGpioOverride slot g).apply (word.testBit n) :=
    testBit_scatterPins hn h.nodup (by omega)
      (fun g hg => by have := (h.pins g hg).1; omega) (by omega)
  rw [mapWord, Nat.testBit_or, hline]
  split_ifs with hmulti
  · -- a Multi set's select is at a position of its own
    have hselect : (scatterPins (addrBase slot) (firstRomPins slot) fun gpio _ =>
        v2GetGpioOverride slot gpio ≠ .low).testBit (bitPos g (addrBase slot)) = false :=
      testBit_scatterPins_of_notMem (by omega)
        (fun g hg => by have := (h.select hmulti g hg).1; omega) (by omega)
        (fun hin => (h.select hmulti g hin).2.1 (List.mem_of_getElem? hn))
    rw [hselect, Bool.or_false]
  · rw [Nat.zero_testBit, Bool.or_false]

lemma mapWord_lt (h : MapOk slot) (word : ℕ) :
    mapWord slot word < 2 ^ slot.alg.algAddr.numAddrPins := by
  refine Nat.or_lt_two_pow (scatterPins_lt fun g hg => (h.pins g hg).2.1) ?_
  split_ifs with hmulti
  · exact scatterPins_lt fun g hg => (h.select hmulti g hg).2.2
  · exact Nat.two_pow_pos _

/-- The window holds the address lines. -/
lemma length_addrPins_le (h : MapOk slot) :
    (addrPins slot).length ≤ slot.alg.algAddr.numAddrPins := by
  have hmap : ((addrPins slot).map (bitPos · (addrBase slot))).Nodup :=
    h.nodup.map_on fun g hg g' hg' => bitPos_inj (by have := (h.pins g hg).1; omega)
      (by have := (h.pins g' hg').1; omega) (by have := h.base; omega)
  have hsub : (addrPins slot).map (bitPos · (addrBase slot)) ⊆
      List.range slot.alg.algAddr.numAddrPins := fun p hp => by
    obtain ⟨g, hg, rfl⟩ := List.mem_map.mp hp
    exact List.mem_range.mpr (h.pins g hg).2.1
  have hcard := (List.subperm_of_subset hmap hsub).length_le
  rwa [List.length_map, List.length_range] at hcard

/-- The address lines of a word say what was mapped. -/
lemma gather_mapWord (h : MapOk slot) {word : ℕ} (hword : word < 2 ^ (addrPins slot).length) :
    (gatherPins (addrPins slot) fun gpio => (v2GetGpioOverride slot gpio).apply
      (readBit (mapWord slot word) (bitPos gpio (addrBase slot)))) = word := by
  have hfits := h.fits
  have htable := h.tableBits
  have hlen := length_addrPins_le h
  refine Nat.eq_of_testBit_eq fun n => ?_
  rw [testBit_gatherPins (by omega)]
  cases hn : (addrPins slot)[n]? with
  | none =>
    have hle := List.getElem?_eq_none_iff.mp hn
    rw [Nat.testBit_lt_two_pow (hword.trans_le (Nat.pow_le_pow_right (by decide) hle))]
    rfl
  | some g =>
    obtain ⟨-, hpos, hforced⟩ := h.pins g (List.mem_of_getElem? hn)
    rw [Option.any_some, readBit, decide_eq_true (by omega), Bool.true_and, testBit_mapWord h hn,
      apply_apply hforced]

/-- A word's address with the bit that says which of its bytes. -/
lemma shift_or_eq (a b : ℕ) : a <<< 1 ||| b &&& 1 = 2 * a + b % 2 := by
  have hlow : b &&& 1 < 2 ^ 1 := Nat.and_lt_two_pow b (by decide)
  rw [← Nat.shiftLeft_add_eq_or_of_lt hlow, Nat.shiftLeft_eq, Nat.and_one_is_mod]
  omega

lemma wordAddr_lt (h : MapOk slot) (hsize : a < chipSize slot)
    (htable : a < 2 ^ slot.alg.algAddr.numRomTableBits) :
    wordAddr slot a < 2 ^ (addrPins slot).length := by
  have hlt := (lt_min hsize htable).trans_le h.lines
  unfold wordBits at hlt
  unfold wordAddr
  split_ifs with hword
  · rw [if_pos hword, Nat.pow_succ] at hlt
    rw [Nat.shiftRight_eq_div_pow]
    omega
  · rwa [if_neg hword, Nat.add_zero] at hlt

/-- An address has an entry in the ROM table. -/
lemma pioMapAddrToPhys_lt (h : MapOk slot) (a : ℕ) :
    pioMapAddrToPhys slot a < 2 ^ slot.alg.algAddr.numRomTableBits := by
  have hlt := mapWord_lt h (wordAddr slot a)
  rw [pioMapAddrToPhys_eq, h.tableBits, wordBits]
  split_ifs with hword
  · refine (Nat.mod_le _ _).trans_lt ?_
    rw [shift_or_eq, Nat.pow_succ]
    omega
  · exact hlt

/-- **An address is mapped back**, where it is one of the chip that the table has an entry for. -/
lemma pioDemangleAddr_map (h : MapOk slot) (hw : OneromHardwareInfo) (hsize : a < chipSize slot)
    (htable : a < 2 ^ slot.alg.algAddr.numRomTableBits) :
    pioDemangleAddr slot hw (pioMapAddrToPhys slot a) false = .ok a := by
  have hback := gather_mapWord h (wordAddr_lt h hsize htable)
  rw [pioDemangleAddr, pioMapAddrToPhys_eq]
  split_ifs with hword
  · have hlt := mapWord_lt h (wordAddr slot a)
    have hsmall : 2 ^ slot.alg.algAddr.numAddrPins ≤ 2 ^ 19 :=
      Nat.pow_le_pow_right (by decide) (by have := h.tableBits; have := h.fits; omega)
    have htableSmall : 2 ^ slot.alg.algAddr.numRomTableBits ≤ 2 ^ 19 :=
      Nat.pow_le_pow_right (by decide) h.fits
    have hdiv : (2 * mapWord slot (wordAddr slot a) + a % 2) >>> 1 =
        mapWord slot (wordAddr slot a) := by
      rw [Nat.shiftRight_eq_div_pow]
      omega
    have hmod : (2 * mapWord slot (wordAddr slot a) + a % 2) % 2 = a % 2 := by omega
    rw [shift_or_eq, Nat.mod_eq_of_lt (by omega), hdiv, pioDemangleObservedAddr,
      if_neg (by simp), hback]
    have hword' : wordAddr slot a = a / 2 := by
      rw [wordAddr, if_pos hword, Nat.shiftRight_eq_div_pow, Nat.pow_one]
    change Except.ok ((wordAddr slot a <<< 1 ||| _ &&& 1) % 2 ^ 32) = .ok a
    rw [shift_or_eq, hmod, hword', show 2 * (a / 2) + a % 2 = a by omega,
      Nat.mod_eq_of_lt (by omega)]
  · rw [pioDemangleObservedAddr, if_neg (by simp), hback, wordAddr, if_neg hword]

/-- What is mapped back is an address that the table has an entry for. -/
lemma lt_of_pioDemangleAddr (h : MapOk slot) {hw : OneromHardwareInfo} {word : ℕ}
    (hback : pioDemangleAddr slot hw word false = .ok a) :
    a < 2 ^ slot.alg.algAddr.numRomTableBits := by
  have hlen := length_addrPins_le h
  have hgather : ∀ f : ℕ → Bool, gatherPins (addrPins slot) f < 2 ^ slot.alg.algAddr.numAddrPins :=
    fun f => by
      rw [gatherPins_eq]
      refine foldl_bitAt_lt (fun x : ℕ × ℕ => f x.1) (fun x => x.2) fun x hx _ => ?_
      have := (List.getElem?_eq_some_iff.mp (List.mem_zipIdx_iff_getElem?.mp hx)).1
      omega
  have hfits := h.fits
  rw [h.tableBits, wordBits]
  unfold pioDemangleAddr at hback
  split_ifs at hback ⊢ with hword
  · rw [pioDemangleObservedAddr, if_neg (by simp)] at hback
    obtain rfl := Except.ok.inj hback
    refine (Nat.mod_le _ _).trans_lt ?_
    rw [shift_or_eq, Nat.pow_succ]
    have := hgather fun gpio => (v2GetGpioOverride slot gpio).apply
      (readBit (word >>> 1) (bitPos gpio (addrBase slot)))
    omega
  · rw [pioDemangleObservedAddr, if_neg (by simp)] at hback
    obtain rfl := Except.ok.inj hback
    exact hgather _

/-- Addresses of the chip have entries of their own. -/
lemma pioMapAddrToPhys_inj (h : MapOk slot) {a' : ℕ}
    (ha : a < min (chipSize slot) (2 ^ slot.alg.algAddr.numRomTableBits))
    (ha' : a' < min (chipSize slot) (2 ^ slot.alg.algAddr.numRomTableBits))
    (heq : pioMapAddrToPhys slot a = pioMapAddrToPhys slot a') : a = a' := by
  rw [lt_min_iff] at ha ha'
  have hback := pioDemangleAddr_map h ⟨[], []⟩ ha.1 ha.2
  rw [heq, pioDemangleAddr_map h ⟨[], []⟩ ha'.1 ha'.2] at hback
  exact (Except.ok.inj hback).symm

end Addresses

/-! ### Bytes -/

/-- What the data maps of a slot rest on. The data lines' GPIOs differ and aren't forced, and those
of a byte are at the positions of a byte. -/
structure DataOk (slot : OneromRomSlot) : Prop where
  base : dataBase slot ≤ 48
  pins : ∀ x ∈ dataPins slot, x.1 < 48 ∧ x.2 < 32 ∧ (v2GetGpioOverride slot x.1).forced = false
  apart : ∀ x ∈ dataPins slot, ∀ y ∈ dataPins slot, x.1 = y.1 ∨ x.2 = y.2 → x = y
  byte : ∀ d < 8, ∃ g, (g, d) ∈ dataPins slot ∧ bitPos g (dataBase slot) < 8

section Bytes

variable {slot : OneromRomSlot} {b : ℕ}

lemma pioMapDataToPhys_eq (slot : OneromRomSlot) (b : ℕ) :
    pioMapDataToPhys slot b = (dataPins slot).foldl (fun acc x =>
      if (v2GetGpioOverride slot x.1).apply (b.testBit x.2) then
        acc ||| bitAt (bitPos x.1 (dataBase slot))
      else acc) 0 := rfl

lemma pioDemangleData_eq (slot : OneromRomSlot) (b : ℕ) :
    pioDemangleData slot b = (dataPins slot).foldl (fun acc x =>
      if (v2GetGpioOverride slot x.1).apply
          (readBit (b % 256) (bitPos x.1 (dataBase slot))) then acc ||| bitAt x.2
      else acc) 0 % 256 := rfl

/-- **A byte is mapped back.** -/
lemma pioDemangleData_map (h : DataOk slot) (hb : b < 256) :
    pioDemangleData slot (pioMapDataToPhys slot b % 256) = b := by
  have hbase := h.base
  refine Nat.eq_of_testBit_eq fun d => ?_
  rw [pioDemangleData_eq, Nat.mod_mod, show 256 = 2 ^ 8 from rfl, Nat.testBit_mod_two_pow]
  by_cases hd : d < 8
  · obtain ⟨g, hmem, hpos⟩ := h.byte d hd
    obtain ⟨hg, hbit, hforced⟩ := h.pins _ hmem
    have hread := testBit_foldl_of_mem (fun x : ℕ × ℕ => (v2GetGpioOverride slot x.1).apply
        (readBit (pioMapDataToPhys slot b % 2 ^ 8) (bitPos x.1 (dataBase slot)))) (fun x => x.2)
      hmem hbit fun y hy heq => h.apart y hy _ hmem (Or.inr heq)
    have hput := testBit_foldl_of_mem
      (fun x : ℕ × ℕ => (v2GetGpioOverride slot x.1).apply (b.testBit x.2))
      (fun x => bitPos x.1 (dataBase slot)) hmem (by dsimp only; omega) fun y hy heq =>
        h.apart y hy _ hmem (Or.inl (bitPos_inj (by have := (h.pins y hy).1; omega)
          (by dsimp only; omega) (by omega) heq))
    rw [decide_eq_true hd, Bool.true_and]
    refine hread.trans ?_
    dsimp only at hput ⊢
    rw [readBit, decide_eq_true (by omega), Bool.true_and, Nat.testBit_mod_two_pow,
      decide_eq_true hpos, Bool.true_and, pioMapDataToPhys_eq, hput, apply_apply hforced]
  · have hle : 2 ^ 8 ≤ 2 ^ d := Nat.pow_le_pow_right (by decide) (not_lt.mp hd)
    rw [decide_eq_false hd, Bool.false_and, Nat.testBit_lt_two_pow (by omega)]

end Bytes

section DataSlots

variable {board : Board} {setType : ChipSetType} {chip0 : Chip} {chips : List Chip}
  {force16Bit : Bool} {slot : OneromRomSlot} {addr : AddrLayout} {cs : CsDataLayout}
  {ctx : SlotContext}

/-- A chip has a byte's data lines, or is one with words of 16 bits in a socket of 40 pins. -/
lemma dataPins_cases (t : ChipType) : t.chipPins = 0 ∨
    t.supportsBitMode 16 = false ∧ t.dataPins.length = 8 ∨
      t.supportsBitMode 16 = true ∧ t.chipPins = 40 ∧ t.dataPins = data40 := by
  cases t <;> decide

/-- On the boards with 40 pins data line `d` of a byte is at GPIO `d`, and there is a `/BYTE` pin. -/
lemma data40_gpios : ∀ board ∈ boards, board.chipPins = 40 → board.pinByte ≠ GPIO_NONE ∧
    ∀ d < 8, board.gpiosForSocketPin (data40.getD d 0) = [d] := by
  decide +kernel

lemma dataPins_eq (h : SlotOk board setType chip0 chips slot addr cs ctx)
    (hlen : cs.dataPinGpios.length = slot.alg.algData.wordSize) :
    dataPins slot = cs.dataPinGpios.zipIdx := by
  have hbase := h.csOk.base
  have hwithin := h.csOk.dataWithin
  rw [dataPins, pinMap_eq h, ← hlen, buildRomPinMap]
  dsimp only
  rw [pinArray, List.take_left, List.filter_eq_self]
  intro x hx
  have hmem := h.csOk.dataRun.subset (List.fst_mem_of_mem_zipIdx hx)
  rw [List.mem_range'_1] at hmem
  have hnone : GPIO_NONE = 255 := rfl
  rw [decide_eq_true_eq]
  omega

lemma dataBase_eq (h : SlotOk board setType chip0 chips slot addr cs ctx) :
    dataBase slot = cs.gpioBase + cs.baseDataPin := by
  have hbase := h.csOk.base
  have hwithin := h.csOk.dataWithin
  have hsum : slot.alg.algData.gpioBase + slot.alg.algData.baseDataPin =
      cs.gpioBase + cs.baseDataPin := by
    rw [h.algOk.algData]
    unfold buildAlgData
    cases ctx.bitMode with
    | bitMode8 => rfl
    | bitMode16 =>
      dsimp only
      split_ifs <;> rfl
  rw [dataBase, hsum, Nat.mod_eq_of_lt (by omega)]

/-- The words of a slot have a bit for each of the chip's data lines, and the data lines of a byte
are at the positions of a byte. -/
lemma byte_positions (h : SlotOk board setType chip0 chips slot addr cs ctx)
    (hboard : board ∈ boards)
    (hoffset : socketPinOffset chip0.chipType.chipPins board.chipPins = some ctx.pinOffset) :
    cs.dataPinGpios.length = slot.alg.algData.wordSize ∧
      ∀ d < 8, ∃ g, cs.dataPinGpios[d]? = some g ∧ bitPos g (dataBase slot) < 8 := by
  obtain ⟨hpins, h40⟩ := pins_of_offset hoffset
  have hlen := h.csOk.data.length_eq
  have hnum : cs.dataPinGpios.length = cs.numDataPins := by
    rw [h.csOk.dataRun.length_eq, List.length_range']
  have hmem : ∀ g ∈ cs.dataPinGpios, cs.gpioBase + cs.baseDataPin ≤ g ∧
      g < cs.gpioBase + cs.baseDataPin + cs.numDataPins := fun g hg =>
    List.mem_range'_1.mp (h.csOk.dataRun.subset hg)
  have hbase := h.csOk.base
  have hwithin := h.csOk.dataWithin
  rw [wordSize_eq h, h.bitMode_eq, dataBase_eq h]
  rw [h.chip0_eq] at hlen
  rcases dataPins_cases chip0.chipType with hzero | ⟨hno16, hdata⟩ | ⟨h16, hpins40, hdata⟩
  · exact absurd hzero hpins
  · have hmode : bitModeFor chip0.chipType board = .bitMode8 := by
      simp [bitModeFor, hno16]
    rw [hmode]
    refine ⟨by rw [← hlen, hdata]; rfl, fun d hd => ?_⟩
    have hd' : d < cs.dataPinGpios.length := by omega
    obtain ⟨hle, hlt⟩ := hmem _ (List.getElem_mem hd')
    refine ⟨_, List.getElem?_eq_getElem hd', ?_⟩
    rw [bitPos_of_le hle (by omega)]
    omega
  · obtain ⟨hboard40, hzero⟩ := h40 hpins40
    obtain ⟨hbyte, hgpios⟩ := data40_gpios board hboard hboard40
    have hmode : bitModeFor chip0.chipType board = .bitMode16 := by
      simp [bitModeFor, h16, hbyte]
    rw [hmode]
    have hlen16 : cs.dataPinGpios.length = 16 := by rw [← hlen, hdata]; rfl
    -- data line `d` of a byte is at GPIO `d`, and so the run begins with GPIO 0
    have hat : ∀ d < 8, cs.dataPinGpios[d]? = some d := fun d hd => by
      have hd' : d < cs.dataPinGpios.length := by omega
      have hdata' := h.csOk.data
      rw [h.chip0_eq, hdata] at hdata'
      obtain ⟨n, hn, hg⟩ := hdata'.get (i := d) (show d < 16 by omega) hd'
      have hpin : n = data40.getD d 0 := by
        unfold SlotContext.socketPin at hn
        rw [hzero] at hn
        dsimp only at hn
        split_ifs at hn
        rw [List.getD_eq_getElem _ _ (show d < 16 by omega)]
        have heq := Option.some.inj hn
        simp only [add_zero, Int.toNat_natCast, List.get_eq_getElem] at heq
        exact heq.symm
      rw [h.board_eq, hpin, hgpios d hd, List.mem_singleton] at hg
      rw [List.getElem?_eq_getElem hd']
      exact congrArg some hg
    have hfirst := (hmem 0 (List.mem_of_getElem? (hat 0 (by decide)))).1
    refine ⟨hlen16, fun d hd => ⟨d, hat d hd, ?_⟩⟩
    rw [bitPos_of_le (by omega) (by omega)]
    omega

lemma dataOk (h : Served slot) : DataOk slot := by
  obtain ⟨board, hboard, setType, chip0, chips, force16Bit, addr, cs, h⟩ := h
  obtain ⟨ctx, hctx, -, -, hok⟩ := buildRomSlot_layouts h
  obtain ⟨hlen, hbyte⟩ := byte_positions hok hboard (slotContext_offset hctx)
  have hbase := hok.csOk.base
  have hwithin := hok.csOk.dataWithin
  have hnodup : cs.dataPinGpios.Nodup := hok.csOk.dataRun.nodup_iff.mpr List.nodup_range'
  have hnum : cs.dataPinGpios.length = cs.numDataPins := by
    rw [hok.csOk.dataRun.length_eq, List.length_range']
  exact
    { base := by rw [dataBase_eq hok]; omega
      pins := by
        rintro ⟨g, d⟩ hx
        rw [dataPins_eq hok hlen] at hx
        have hmem := List.fst_mem_of_mem_zipIdx hx
        have hd := (List.getElem?_eq_some_iff.mp (List.mem_zipIdx_iff_getElem?.mp hx)).1
        have hrange := List.mem_range'_1.mp (hok.csOk.dataRun.subset hmem)
        refine ⟨by dsimp only at *; omega, by dsimp only at *; omega, override_of_used hok ?_⟩
        simp only [usedGpios, List.mem_append]
        tauto
      apart := by
        rintro ⟨g, d⟩ hx ⟨g', d'⟩ hy heq
        rw [dataPins_eq hok hlen, List.mem_zipIdx_iff_getElem?] at hx hy
        rcases heq with rfl | rfl
        · obtain ⟨hi, heq⟩ := List.getElem?_eq_some_iff.mp hx
          obtain ⟨hi', heq'⟩ := List.getElem?_eq_some_iff.mp hy
          rw [Prod.mk.injEq]
          exact ⟨rfl, hnodup.getElem_inj_iff.mp (heq.trans heq'.symm)⟩
        · rw [Prod.mk.injEq]
          exact ⟨Option.some.inj (hx.symm.trans hy), rfl⟩
      byte := by
        intro d hd
        obtain ⟨g, hg, hpos⟩ := hbyte d hd
        refine ⟨g, ?_, hpos⟩
        rw [dataPins_eq hok hlen]
        exact List.mem_zipIdx_iff_getElem?.mpr hg }

end DataSlots

end OneRom.AddrMap
