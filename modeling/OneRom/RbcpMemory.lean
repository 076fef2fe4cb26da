import OneRom.RbcpHandshake
import OneRom.Through

/-!
What a session does to the RAM slots. Each is an array of the chip's bytes, and the plugin's writes
are writes of those bytes: into the region of the session, and where a command of the modify group
says. Where the region is within the chip, nothing else is changed.
-/

namespace OneRom.Rbcp

open OneRom.Fallible OneRom.Listener OneRom.Through
open OneRom.AddrMap (Served chipSize mapOk dataOk pioMapAddrToPhys_lt pioDemangleData_map)
open OneRom.PinMaps
open OneRom.RamSlot (Memory Runtime Span byteAt byteAt_eq byteAt_inj slotInfo slotStart spanWrites
  writeBytes write_ok oraGetRamSlotCount oraGetRamSlotInfo oraGetActiveRamSlot
  pioGetRomRegionSize)

variable [Firmware]

/-! ### Cells -/

/-- A byte of the chip in a RAM slot. -/
abbrev Cell := UInt8 × ℕ

/-- The bytes of the chip that the table has entries for. -/
def cellCount (rt : Runtime) : ℕ := min (chipSize rt.currentSlot) (pioGetRomRegionSize rt)

def cellPlace (rt : Runtime) (cell : Cell) : ℕ :=
  slotStart rt cell.1 + pioMapAddrToPhys rt.currentSlot cell.2

omit [Firmware] in
lemma cellCount_lt {rt : Runtime} (h : Served rt.currentSlot) : cellCount rt < 2 ^ 32 :=
  ((min_le_right _ _).trans (RamSlot.regionSize_eq (mapOk h)).2).trans_lt (by decide)

omit [Firmware] in
/-- Bytes have entries of their own. -/
lemma cellPlace_inj {rt : Runtime} (h : Served rt.currentSlot) {c d : Cell}
    (hc : c.2 < cellCount rt) (hd : d.2 < cellCount rt) (heq : cellPlace rt c = cellPlace rt d) :
    c = d := by
  have hlt := cellCount_lt h
  have hlen : (UInt32.ofNat (cellCount rt)).toNat = cellCount rt := UInt32.toNat_ofNat_of_lt' hlt
  -- the span of all bytes of a slot
  have hplace : ∀ e : Cell, e.2 < cellCount rt →
      byteAt rt (slotInfo rt e.1) ⟨e.1, 0, UInt32.ofNat (cellCount rt)⟩ e.2 = cellPlace rt e := by
    intro e he
    have hat := (byteAt_eq (mapOk h) ⟨e.1, 0, UInt32.ofNat (cellCount rt)⟩ e.2).1
    rw [hat]
    show _ + pioMapAddrToPhys _ ((0 + e.2) % 2 ^ 32) = _
    rw [Nat.zero_add, Nat.mod_eq_of_lt (he.trans hlt)]
    rfl
  have hinside : ∀ e : Cell, RamSlot.Inside rt ⟨e.1, 0, UInt32.ofNat (cellCount rt)⟩ := by
    intro e
    show 0 + (UInt32.ofNat (cellCount rt)).toNat ≤ _
    rw [hlen, Nat.zero_add]
    exact le_refl _
  rw [← hplace c hc, ← hplace d hd] at heq
  obtain ⟨hslot, haddr⟩ := byteAt_inj (mapOk h) (hinside c) (hinside d)
    (hlen.symm ▸ hc) (hlen.symm ▸ hd) heq
  exact Prod.ext hslot (by simpa using haddr)

/-- The RAM slots, as arrays of the chip's bytes. -/
def slotBytes (rt : Runtime) (h : Served rt.currentSlot) : Store Cell ℕ UInt8 UInt8 where
  valid cell := cell.2 < cellCount rt
  place := cellPlace rt
  encode val := UInt8.ofNat (pioMapDataToPhys rt.currentSlot val.toNat)
  decode val := UInt8.ofNat (pioDemangleData rt.currentSlot val.toNat)
  place_inj := cellPlace_inj h
  decode_encode val := by
    rw [UInt8.toNat_ofNat', pioDemangleData_map (dataOk h) val.toNat_lt, UInt8.ofNat_toNat]

/-- A byte of the chip in a RAM slot, as it is read. -/
def readCell (p : Plugin) (cell : Cell) : UInt8 :=
  UInt8.ofNat (pioDemangleData p.rt.currentSlot (p.mem (cellPlace p.rt cell)).toNat)

/-- From `p` to `q` some bytes have been written, one after the other. -/
structure Laid (p q : Plugin) (writes : List (Cell × UInt8)) : Prop where
  valid : ∀ write ∈ writes, write.1.2 < cellCount p.rt
  device : q.rt.currentSlot = p.rt.currentSlot
  read : ∀ cell : Cell, cell.2 < cellCount p.rt →
    readCell q cell = lay (readCell p) writes cell

lemma readCell_congr {p q : Plugin} (hmem : q.mem = p.mem)
    (hdevice : q.rt.currentSlot = p.rt.currentSlot) (cell : Cell) :
    readCell q cell = readCell p cell := by
  unfold readCell cellPlace slotStart pioGetRomRegionSize
  rw [hmem, hdevice]

omit [Firmware] in
lemma cellCount_congr {rt rt' : Runtime} (h : rt'.currentSlot = rt.currentSlot) :
    cellCount rt' = cellCount rt := by
  unfold cellCount pioGetRomRegionSize
  rw [h]

namespace Laid

variable {p q r : Plugin} {writes writes' : List (Cell × UInt8)}

lemma same (hmem : q.mem = p.mem) (hdevice : q.rt.currentSlot = p.rt.currentSlot) :
    Laid p q [] where
  valid _ hwrite := absurd hwrite List.not_mem_nil
  device := hdevice
  read cell _ := readCell_congr hmem hdevice cell

lemma trans (h : Laid p q writes) (h' : Laid q r writes') : Laid p r (writes ++ writes') where
  valid write hwrite := by
    rcases List.mem_append.mp hwrite with hwrite | hwrite
    · exact h.valid write hwrite
    · exact cellCount_congr h.device ▸ h'.valid write hwrite
  device := h'.device.trans h.device
  read cell hcell := by
    rw [h'.read cell (cellCount_congr h.device ▸ hcell), lay_append]
    exact lay_congr _ (h.read cell hcell)

lemma of_writes (h : Served p.rt.currentSlot)
    (hmem : q.mem = lay p.mem (writes.map (slotBytes p.rt h).entry))
    (hdevice : q.rt.currentSlot = p.rt.currentSlot)
    (hvalid : ∀ write ∈ writes, write.1.2 < cellCount p.rt) : Laid p q writes where
  valid := hvalid
  device := hdevice
  read cell hcell := by
    have hread : (slotBytes p.rt h).read (lay p.mem _) cell = _ :=
      (slotBytes p.rt h).read_lay hvalid hcell
    rw [← hmem] at hread
    rw [show lay (readCell p) writes cell = _ from hread.symm]
    unfold readCell cellPlace slotStart pioGetRomRegionSize
    rw [hdevice]
    rfl

/-- Bytes that aren't written keep what they held. -/
lemma kept (h : Laid p q writes) {cell : Cell} (hcell : cell.2 < cellCount p.rt)
    (hout : cell ∉ writes.map Prod.fst) : readCell q cell = readCell p cell := by
  rw [h.read cell hcell, lay_of_notMem hout]

end Laid

/-! ### Writes -/

/-- Bytes of a slot, from an address on. -/
def spanCells (slot : UInt8) (start : ℕ) (bytes : List UInt8) : List (Cell × UInt8) :=
  (List.range bytes.length).map fun i => ((slot, start + i), bytes.getD i 0)

omit [Firmware] in
lemma mem_spanCells {slot : UInt8} {start : ℕ} {bytes : List UInt8} {write : Cell × UInt8}
    (h : write ∈ spanCells slot start bytes) :
    write.1.1 = slot ∧ start ≤ write.1.2 ∧ write.1.2 < start + bytes.length := by
  obtain ⟨i, hi, rfl⟩ := List.mem_map.mp h
  have hi := List.mem_range.mp hi
  exact ⟨rfl, Nat.le_add_right _ _, Nat.add_lt_add_left hi _⟩

lemma reprogram_laid {p q : Plugin} {slot : UInt8} {offset : ℕ} {bytes : List UInt8}
    (hp : Served p.rt.currentSlot) (h : reprogram p slot offset bytes = some q)
    (hend : offset + bytes.length ≤ cellCount p.rt) : Laid p q (spanCells slot offset bytes) := by
  have hlt := cellCount_lt hp
  have hsize : UInt32.size = 2 ^ 32 := rfl
  have hoffset : (UInt32.ofNat offset).toNat = offset := UInt32.toNat_ofNat_of_lt' (by omega)
  have hlen : (UInt32.ofNat bytes.length).toNat = bytes.length :=
    UInt32.toNat_ofNat_of_lt' (by omega)
  have hmem : q.mem = writeBytes p.mem (spanWrites p.rt (slotInfo p.rt slot)
      ⟨slot, UInt32.ofNat offset, UInt32.ofNat bytes.length⟩ (bytes.getD · 0)) := by
    unfold reprogram at h
    split at h
    · next mem hmem =>
      cases h
      exact (write_ok.mp hmem).2.2
    · cases h
  refine Laid.of_writes hp ?_ (by rw [reprogram_eq_some h]) fun write hwrite => ?_
  · rw [hmem, spanCells, List.map_map]
    refine congrArg (lay p.mem) ?_
    unfold spanWrites
    rw [hlen]
    refine List.map_congr_left fun i hi => ?_
    have hi := List.mem_range.mp hi
    have hplace := (byteAt_eq (mapOk hp)
      ⟨slot, UInt32.ofNat offset, UInt32.ofNat bytes.length⟩ i).1
    dsimp only at hplace
    rw [hoffset, Nat.mod_eq_of_lt (by omega)] at hplace
    rw [hplace]
    rfl
  · have hcell := (mem_spanCells hwrite).2.2
    omega

/-- The bytes that a write into the back-channel is one of. -/
def BackWrite.cells (base : ℕ) : BackWrite → List (Cell × UInt8)
  | .header slot offset val => [((slot, base + offset), val)]
  | .data slot offset bytes => spanCells slot (base + HDR_SIZE + offset) bytes

def backCells (base : ℕ) (writes : List BackWrite) : List (Cell × UInt8) :=
  writes.flatMap (·.cells base)

omit [Firmware] in
lemma backCells_append (base : ℕ) (writes writes' : List BackWrite) :
    backCells base (writes ++ writes') = backCells base writes ++ backCells base writes' :=
  List.flatMap_append

/-- The region is within the chip. -/
def Fits (p : Plugin) : Prop :=
  p.cfg.regionOffset + HDR_SIZE + p.cfg.dataSize ≤ cellCount p.rt

/-- A byte of the region, in one slot or another. -/
def InRegion (cfg : RbcpCfg) (cell : Cell) : Prop :=
  cfg.regionOffset ≤ cell.2 ∧ cell.2 < cfg.regionOffset + HDR_SIZE + cfg.dataSize

lemma headed_laid {p : Plugin} (hp : Served p.rt.currentSlot) (hfits : Fits p) (slot : UInt8)
    {writes : List (ℕ × UInt8)} (h : ∀ write ∈ writes, write.1 < HDR_SIZE) :
    Laid p (headed slot writes p) (backCells p.cfg.regionOffset (headers slot writes)) := by
  have hcells : backCells p.cfg.regionOffset (headers slot writes) =
      writes.map fun write => ((slot, p.cfg.regionOffset + write.1), write.2) := by
    unfold backCells headers
    rw [List.flatMap_map, List.map_eq_flatMap]
    rfl
  rw [hcells]
  refine Laid.of_writes hp ?_ rfl fun write hwrite => ?_
  · rw [List.map_map]
    rfl
  · obtain ⟨w, hw, rfl⟩ := List.mem_map.mp hwrite
    have hlt := h w hw
    unfold Fits at hfits
    dsimp only
    omega

/-! ### The back-channel -/

/-- The write is within the region. -/
def BackWrite.Inside (cfg : RbcpCfg) : BackWrite → Prop
  | .header _ offset _ => offset < HDR_SIZE
  | .data _ offset bytes => offset + bytes.length ≤ cfg.dataSize

omit [Firmware] in
lemma inRegion_of_mem_backCells {cfg : RbcpCfg} {writes : List BackWrite}
    (h : ∀ w ∈ writes, w.Inside cfg) {write : Cell × UInt8}
    (hwrite : write ∈ backCells cfg.regionOffset writes) : InRegion cfg write.1 := by
  obtain ⟨w, hw, hwrite⟩ := List.mem_flatMap.mp hwrite
  have hinside := h w hw
  cases w with
  | header slot offset val =>
    rw [List.mem_singleton.mp hwrite]
    have hlt : offset < HDR_SIZE := hinside
    exact ⟨Nat.le_add_right _ _, by dsimp only; omega⟩
  | data slot offset bytes =>
    obtain ⟨-, hstart, hend⟩ := mem_spanCells hwrite
    have hlt : offset + bytes.length ≤ cfg.dataSize := hinside
    exact ⟨by omega, by omega⟩

/-- From `p` to `q` some bytes of the region have been written, as the trace says. -/
structure Answered (p q : Plugin) (data : List BackWrite) : Prop where
  trace : q.backWrites = p.backWrites ++ data
  inside : ∀ w ∈ data, w.Inside p.cfg
  laid : Laid p q (backCells p.cfg.regionOffset data)

lemma Answered.quiet {p q : Plugin} (htrace : q.backWrites = p.backWrites) (hmem : q.mem = p.mem)
    (hdevice : q.rt.currentSlot = p.rt.currentSlot) : Answered p q [] :=
  ⟨by rw [htrace, List.append_nil], fun _ hw => absurd hw List.not_mem_nil, .same hmem hdevice⟩

lemma Answered.trans {p q r : Plugin} {data data' : List BackWrite} (h : Answered p q data)
    (h' : Answered q r data') (hcfg : q.cfg = p.cfg) : Answered p r (data ++ data') := by
  refine ⟨by rw [h'.trace, h.trace, List.append_assoc], fun w hw => ?_, ?_⟩
  · rcases List.mem_append.mp hw with hw | hw
    · exact h.inside w hw
    · exact hcfg ▸ h'.inside w hw
  · rw [backCells_append]
    have hlaid := h'.laid
    rw [hcfg] at hlaid
    exact h.laid.trans hlaid

lemma dataWrite_answered {p : Plugin} (hp : Served p.rt.currentSlot) (hfits : Fits p)
    (slot : UInt8) (dataOffset : ℕ) (bytes : List UInt8) :
    ∃ data, Answered p (dataWrite slot dataOffset bytes p) data := by
  unfold dataWrite
  split
  · exact ⟨[], .quiet rfl rfl rfl⟩
  next hoffset =>
  dsimp only
  have hlen : dataOffset + (bytes.take (p.cfg.dataSize - dataOffset)).length ≤ p.cfg.dataSize := by
    rw [List.length_take]
    omega
  split
  · exact ⟨[], .quiet rfl rfl rfl⟩
  next q hq =>
    unfold Fits at hfits
    have hlaid := reprogram_laid hp hq (by omega)
    refine ⟨[.data slot dataOffset (bytes.take (p.cfg.dataSize - dataOffset))], ?_, ?_, ?_⟩
    · rw [reprogram_eq_some hq]
    · intro w hw
      rw [List.mem_singleton.mp hw]
      exact hlen
    · have hcells : backCells p.cfg.regionOffset
          [.data slot dataOffset (bytes.take (p.cfg.dataSize - dataOffset))] =
          spanCells slot (p.cfg.regionOffset + HDR_SIZE + dataOffset)
            (bytes.take (p.cfg.dataSize - dataOffset)) := List.append_nil _
      rw [hcells]
      exact ⟨hlaid.valid, hlaid.device, hlaid.read⟩

/-- The acts that write no more than the back-channel. -/
def quietKinds : List Kind := [.answer, .switch, .exit, .discard, .commit, .pipe, .gpio, .led]

lemma Act.answered {k : Kind} {p q : Plugin} (h : Act k p q) (hk : k ∈ quietKinds)
    (hp : Served p.rt.currentSlot) (hfits : Fits p) :
    ∃ data, Answered p q data ∧ q.cfg = p.cfg := by
  have hkept := h.kept
  have hcfg : q.cfg = p.cfg := by
    refine (hkept.cfg fun hmem => ?_).1
    simp only [List.mem_cons, List.not_mem_nil, or_false] at hmem
    rcases hmem with rfl | rfl <;> exact absurd hk (by decide)
  cases h with
  | answer dataOffset bytes =>
    obtain ⟨data, hdata⟩ := dataWrite_answered hp hfits p.activeSlot dataOffset bytes
    exact ⟨data, hdata, hcfg⟩
  | poke | load | restore | enter | entered | header | stage | nvPoke | reset =>
    exact absurd hk (by decide)
  | _ =>
    exact ⟨[], .quiet (hkept.backWrites (by decide)) (hkept.mem (by decide)) hkept.device.1, hcfg⟩

lemma Work.answered {kinds : List Kind} {p q : Plugin} (h : Work kinds p q)
    (hkinds : ∀ k ∈ kinds, k ∈ quietKinds) (hp : Served p.rt.currentSlot) (hfits : Fits p) :
    ∃ data, Answered p q data ∧ q.cfg = p.cfg := by
  induction h with
  | refl => exact ⟨[], .quiet rfl rfl rfl, rfl⟩
  | tail _ hstep ih =>
    obtain ⟨data, hanswered, hcfg⟩ := ih
    obtain ⟨k, hk, hact⟩ := hstep
    have hdevice := hanswered.laid.device
    obtain ⟨more, hmore, hcfg'⟩ := hact.answered (hkinds k hk) (hdevice ▸ hp) (by
      unfold Fits at hfits ⊢
      rw [hcfg, cellCount_congr hdevice]
      exact hfits)
    exact ⟨data ++ more, hanswered.trans hmore hcfg, hcfg'.trans hcfg⟩

/-! ### Stores -/

/-- The bytes of the chip in an image, for a slot. -/
def imageCells (p : Plugin) (ramSlot flashSlot : UInt8) : List (Cell × UInt8) :=
  match Firmware.flashImage flashSlot.toNat with
  | none => []
  | some (_, data) =>
    (List.range (cellCount p.rt)).map fun a =>
      ((ramSlot, a), UInt8.ofNat (pioDemangleData p.rt.currentSlot
        (data (pioMapAddrToPhys p.rt.currentSlot a)).toNat))

/-- What the host says is to be stored in the RAM slots. -/
def Frame.stores (p : Plugin) (frame : Frame) : List (Cell × UInt8) :=
  match Cmd.ofCode frame.group frame.cmd, frame.args with
  | some .slotPoke, [byte, a0, a1, a2, target] => [((target, word24 a0 a1 a2), byte)]
  | some .slotPokeAllByte, [byte, target] =>
    (List.range' 0 (Firmware.chipSizeFromType Firmware.romType)).map fun a => ((target, a), byte)
  | some .loadSlot, [ramSlot, flashSlot] => imageCells p ramSlot flashSlot
  | some .loadAndExit, [ramSlot, flashSlot] => imageCells p ramSlot flashSlot
  | some .exitCmdRespRestore, [b0, b1, b2, b3, b4, b5, b6, b7, count] =>
    spanCells p.activeSlot p.cfg.regionOffset
      ([b0, b1, b2, b3, b4, b5, b6, b7].take count.toNat)
  | _, _ => []

/-- A handler's stores are made where it succeeds. -/
def Stored (p : Plugin) (stores : List (Cell × UInt8)) (r : Bool × Plugin) : Prop :=
  Laid p r.2 (if r.1 then stores else [])

lemma Stored.refuse {p : Plugin} {stores : List (Cell × UInt8)} : Stored p stores (false, p) :=
  Laid.same rfl rfl

lemma namingSlot_stored {p : Plugin} {slot : UInt8} {stores : List (Cell × UInt8)} {step : Step}
    (h : hostSlotValid p slot → Stored p stores (step p)) :
    Stored p stores (namingSlot slot step p) := by
  unfold namingSlot
  split
  · exact .refuse
  · by_cases hslot : hostSlotValid p slot
    · rw [if_neg (not_not.mpr hslot)]
      exact h hslot
    · rw [if_pos hslot]
      exact .refuse

lemma slotPoke_stored {p : Plugin} {byte : UInt8} {addr : ℕ} {target : UInt8}
    (hp : Served p.rt.currentSlot) (haddr : addr < cellCount p.rt) :
    Stored p [((target, addr), byte)] (slotPoke byte addr target p) := by
  refine namingSlot_stored fun _ => ?_
  unfold trying
  split
  · exact .refuse
  · next q hq => exact reprogram_laid hp hq haddr

lemma hostSlotValid.lt {p : Plugin} {slot : UInt8} (h : hostSlotValid p slot) :
    slot.toNat < oraGetRamSlotCount p.rt := by
  unfold hostSlotValid hostSlotCount at h
  dsimp only at h
  split at h <;> omega

lemma reprogram_ok {p : Plugin} {slot : UInt8} {offset : ℕ} (hp : Served p.rt.currentSlot)
    (hslot : slot.toNat < oraGetRamSlotCount p.rt) (byte : UInt8)
    (hoffset : offset < cellCount p.rt) : ∃ q, reprogram p slot offset [byte] = some q := by
  have hlt := cellCount_lt hp
  have hsize : UInt32.size = 2 ^ 32 := rfl
  have hnat : (UInt32.ofNat offset).toNat = offset := UInt32.toNat_ofNat_of_lt' (by omega)
  have haccepted : RamSlot.Accepted p.rt ⟨slot, UInt32.ofNat offset, 1⟩ := by
    refine ⟨hslot, show (1 : UInt32) ≠ 0 by decide, ?_⟩
    show ((UInt32.ofNat offset).toNat + 1) % 2 ^ 32 ≤ _
    have hregion : cellCount p.rt ≤ pioGetRomRegionSize p.rt := min_le_right _ _
    rw [hnat, Nat.mod_eq_of_lt (by omega)]
    omega
  have hwrite : RamSlot.pioReprogramRamRomSlot p.rt p.mem ⟨slot, UInt32.ofNat offset, 1⟩
      (some ([byte].getD · 0)) 1 = .ok _ :=
    write_ok.mpr ⟨haccepted, fun hguarded => absurd hguarded.1 (by decide), rfl⟩
  unfold reprogram
  rw [show UInt32.ofNat [byte].length = 1 from rfl, hwrite]
  exact ⟨_, rfl⟩

/-- Bytes of the chip are all poked. -/
lemma pokeFrom_stored {target : UInt8} (byte : UInt8) (n i : ℕ) {p : Plugin}
    (hp : Served p.rt.currentSlot) (hslot : target.toNat < oraGetRamSlotCount p.rt)
    (hend : i + n ≤ cellCount p.rt) :
    (pokeFrom target byte n i p).1 = true ∧ Laid p (pokeFrom target byte n i p).2
      ((List.range' i n).map fun a => ((target, a), byte)) := by
  induction n generalizing i p with
  | zero => exact ⟨rfl, Laid.same rfl rfl⟩
  | succ n ih =>
    obtain ⟨q, hq⟩ := reprogram_ok hp hslot byte (show i < cellCount p.rt by omega)
    have hlaid := reprogram_laid hp hq (by rw [List.length_singleton]; omega)
    have hframe := reprogram_eq_some hq
    obtain ⟨hok, hrest⟩ := ih (i + 1) (p := q) (by rw [hframe]; exact hp)
      (by rw [hframe]; exact hslot) (by rw [hframe]; show i + 1 + n ≤ cellCount p.rt; omega)
    unfold pokeFrom
    rw [hq, List.range'_succ]
    exact ⟨hok, hlaid.trans hrest⟩

lemma slotPokeAllByte_stored {p : Plugin} {byte target : UInt8} (hp : Served p.rt.currentSlot)
    (h : Firmware.chipSizeFromType Firmware.romType ≤ cellCount p.rt) :
    Stored p ((List.range' 0 (Firmware.chipSizeFromType Firmware.romType)).map
      fun a => ((target, a), byte)) (slotPokeAllByte byte target p) := by
  refine namingSlot_stored fun hslot => ?_
  split
  · exact .refuse
  dsimp only
  split
  · exact .refuse
  obtain ⟨hok, hlaid⟩ := pokeFrom_stored byte
    (Firmware.chipSizeFromType Firmware.romType) 0 hp hslot.lt (by omega)
  rw [Stored, if_pos hok]
  exact hlaid

omit [Firmware] in
/-- A byte is in its slot, and in no other. -/
lemma cellPlace_bounds {rt : Runtime} (h : Served rt.currentSlot) (cell : Cell) (slot : UInt8) :
    (slotStart rt slot ≤ cellPlace rt cell ∧
      cellPlace rt cell < slotStart rt slot + pioGetRomRegionSize rt) ↔ cell.1 = slot := by
  have hphys := pioMapAddrToPhys_lt (mapOk h) cell.2
  rw [← (RamSlot.regionSize_eq (mapOk h)).1] at hphys
  unfold cellPlace slotStart
  constructor
  · rintro ⟨hstart, hend⟩
    refine UInt8.toNat_inj.mp (le_antisymm ?_ ?_)
    · by_contra hlt
      have hmul := Nat.mul_le_mul_right (pioGetRomRegionSize rt) (not_le.mp hlt)
      rw [Nat.succ_mul] at hmul
      omega
    · by_contra hlt
      have hmul := Nat.mul_le_mul_right (pioGetRomRegionSize rt) (not_le.mp hlt)
      rw [Nat.succ_mul] at hmul
      omega
  · rintro rfl
    exact ⟨by omega, by omega⟩

/-- A slot that is loaded has the image's bytes. -/
lemma copyFlashToRam_laid {p q : Plugin} {flashSlot ramSlot : UInt8} (hp : Served p.rt.currentSlot)
    (h : copyFlashToRam p flashSlot ramSlot = some q) :
    Laid p q (imageCells p ramSlot flashSlot) := by
  unfold copyFlashToRam at h
  split at h
  next size data info hflash hinfo =>
    obtain ⟨hslot, rfl⟩ := oraGetRamSlotInfo_ok.mp hinfo
    split at h
    · cases h
    next hsize =>
    have hsize : size = pioGetRomRegionSize p.rt := not_not.mp hsize
    have hstart : (RamSlot.SRAM_BASE + ramSlot.toNat * pioGetRomRegionSize p.rt) % 2 ^ 32 =
        slotStart p.rt ramSlot := Nat.mod_eq_of_lt ((slot_lt hp hslot.le).trans (by decide))
    cases h
    rw [imageCells, hflash]
    refine ⟨fun write hwrite => ?_, rfl, fun cell hcell => ?_⟩
    · obtain ⟨a, ha, rfl⟩ := List.mem_map.mp hwrite
      exact List.mem_range.mp ha
    · have hbounds := cellPlace_bounds hp cell ramSlot
      unfold readCell fill
      dsimp only
      rw [hstart, hsize]
      by_cases hthis : cell.1 = ramSlot
      · rw [if_pos (hbounds.mpr hthis)]
        subst hthis
        have hmem : (cell, UInt8.ofNat (pioDemangleData p.rt.currentSlot
            (data (pioMapAddrToPhys p.rt.currentSlot cell.2)).toNat)) ∈
            (List.range (cellCount p.rt)).map fun a => ((cell.1, a),
              UInt8.ofNat (pioDemangleData p.rt.currentSlot
                (data (pioMapAddrToPhys p.rt.currentSlot a)).toNat)) :=
          List.mem_map.mpr ⟨cell.2, List.mem_range.mpr hcell, rfl⟩
        rw [lay_of_mem ?_ hmem]
        · unfold cellPlace
          rw [Nat.add_sub_cancel_left]
        · rw [List.map_map]
          exact List.nodup_range.map_on fun a _ b _ hab => congrArg Prod.snd hab
      · rw [if_neg fun hin => hthis (hbounds.mp hin), lay_of_notMem]
        intro hmem
        rw [List.map_map] at hmem
        obtain ⟨a, -, rfl⟩ := List.mem_map.mp hmem
        exact hthis rfl
  · cases h

lemma loadSlot_stored {p : Plugin} {ramSlot flashSlot : UInt8} (hp : Served p.rt.currentSlot) :
    Stored p (imageCells p ramSlot flashSlot) (loadSlot ramSlot flashSlot p) := by
  unfold loadSlot
  split
  · exact .refuse
  · refine namingSlot_stored fun _ => ?_
    unfold trying
    split
    · exact .refuse
    · next q hq => exact copyFlashToRam_laid hp hq

lemma andExit_stored {p : Plugin} {stores : List (Cell × UInt8)} (step : Step)
    (h : Stored p stores (step p)) : Stored p stores (andExit step p) :=
  ⟨h.valid, h.device, h.read⟩

/-- The bytes put back are in the region. -/
lemma exitCmdRespRestore_stored {p : Plugin} {bytes : List UInt8} {count : UInt8}
    (hp : Served p.rt.currentSlot) (hfits : p.active = true → Fits p) :
    Stored p (spanCells p.activeSlot p.cfg.regionOffset (bytes.take count.toNat))
      (exitCmdRespRestore bytes count p) := by
  unfold exitCmdRespRestore
  by_cases hactive : p.active = true
  swap
  · rw [if_pos hactive]
    exact .refuse
  rw [if_neg (not_not.mpr hactive)]
  dsimp only
  split
  · exact Laid.same rfl rfl
  next hcount =>
  split
  · exact Laid.same rfl rfl
  next q hq =>
    have hfits := hfits hactive
    have hsize : HDR_SIZE = 8 := rfl
    have hlen : (bytes.take count.toNat).length ≤ count.toNat := List.length_take_le _ _
    unfold Fits at hfits
    have hlaid := reprogram_laid (p := { p with active := false }) hp hq (by
      show p.cfg.regionOffset + (bytes.take count.toNat).length ≤ cellCount p.rt
      omega)
    have hleft : Laid p { p with active := false } [] := .same rfl rfl
    exact hleft.trans hlaid

/-! ### Commands -/

/-- The frame neither enters a session nor stages bytes of NV storage in a slot. -/
def Frame.Plain (frame : Frame) : Prop :=
  Cmd.ofCode frame.group frame.cmd ∉
    [some .enterCmdResp, some .nvPokeBegin, some .nvPoke, some .nvPokeCommitByte]

/-- What it pokes are bytes of the chip. -/
def Frame.InChip (rt : Runtime) (frame : Frame) : Prop :=
  match Cmd.ofCode frame.group frame.cmd, frame.args with
  | some .slotPoke, [_, a0, a1, a2, _] => word24 a0 a1 a2 < cellCount rt
  | some .slotPokeAllByte, _ => Firmware.chipSizeFromType Firmware.romType ≤ cellCount rt
  | _, _ => True

lemma Frame.inChip_congr {rt rt' : Runtime} (h : rt'.currentSlot = rt.currentSlot)
    (frame : Frame) : frame.InChip rt' ↔ frame.InChip rt := by
  unfold Frame.InChip
  rw [cellCount_congr h]

lemma Frame.stores_eq_nil {frame : Frame} {c : Cmd} (p : Plugin)
    (hcode : Cmd.ofCode frame.group frame.cmd = some c)
    (hc : c ∉ [.slotPoke, .slotPokeAllByte, .loadSlot, .loadAndExit, .exitCmdRespRestore]) :
    frame.stores p = [] := by
  unfold Frame.stores
  rw [hcode]
  cases c <;> first
    | rfl
    | exact absurd (by decide) hc

/-- The commands whose handlers store bytes. -/
lemma exec_stored {p : Plugin} {frame : Frame} {c : Cmd} {ok : Bool} {t : Scene UInt8 Plugin}
    (hp : Sound p) (hfits : p.active = true → Fits p) (h : frame.Whole)
    (hcode : Cmd.ofCode frame.group frame.cmd = some c) (hchip : frame.InChip p.rt)
    (hc : c ∈ [Cmd.slotPoke, .slotPokeAllByte, .loadSlot, .loadAndExit, .exitCmdRespRestore])
    (hrun : c.exec ⟨frame.args, p⟩ = (.ok ok, t)) : Stored p (frame.stores p) (ok, t.state) := by
  unfold Frame.Whole argBytes at h
  rw [hcode] at h
  unfold Frame.InChip at hchip
  unfold Frame.stores
  rw [hcode] at hchip ⊢
  simp only [List.mem_cons, List.not_mem_nil, or_false] at hc
  rcases hc with rfl | rfl | rfl | rfl | rfl
  · match hargs : frame.args, h with
    | [byte, a0, a1, a2, target], _ =>
      rw [hargs] at hrun hchip
      cases hrun
      exact slotPoke_stored hp.served hchip
  · match hargs : frame.args, h with
    | [byte, target], _ =>
      rw [hargs] at hrun hchip
      cases hrun
      exact slotPokeAllByte_stored hp.served hchip
  · match hargs : frame.args, h with
    | [ramSlot, flashSlot], _ =>
      rw [hargs] at hrun
      cases hrun
      exact loadSlot_stored hp.served
  · match hargs : frame.args, h with
    | [ramSlot, flashSlot], _ =>
      rw [hargs] at hrun
      cases hrun
      exact andExit_stored (loadSlot ramSlot flashSlot) (loadSlot_stored hp.served)
  · match hargs : frame.args, h with
    | [b0, b1, b2, b3, b4, b5, b6, b7, count], _ =>
      rw [hargs] at hrun
      cases hrun
      exact exitCmdRespRestore_stored hp.served hfits

/-- What a command's work does to the RAM slots: it writes data of the answer, or it stores what the
host says. -/
lemma dispatched_laid {p : Plugin} {frame : Frame} (hp : Sound p)
    (hfits : p.active = true → Fits p) (h : frame.Whole) (hplain : frame.Plain)
    (hchip : frame.InChip p.rt) : ∃ data,
      (dispatched p frame).2.backWrites = p.backWrites ++ data ∧
        (∀ w ∈ data, w.Inside p.cfg) ∧ (p.active = false → data = []) ∧
        Laid p (dispatched p frame).2 (backCells p.cfg.regionOffset data ++
          if (dispatched p frame).1 then frame.stores p else []) := by
  have hquiet : ∀ {q : Plugin} {ok : Bool}, q.backWrites = p.backWrites →
      Laid p q (if ok then frame.stores p else []) → ∃ data,
        q.backWrites = p.backWrites ++ data ∧ (∀ w ∈ data, w.Inside p.cfg) ∧
          (p.active = false → data = []) ∧ Laid p q (backCells p.cfg.regionOffset data ++
            if ok then frame.stores p else []) := fun htrace hlaid =>
    ⟨[], by rw [htrace, List.append_nil], fun _ hw => absurd hw List.not_mem_nil, fun _ => rfl,
      hlaid⟩
  rcases dispatched_cases p h with hrefused | ⟨c, hcode, hin, ⟨t, hrun, hstate⟩, hworked⟩
  · rw [hrefused]
    exact hquiet rfl (Laid.same rfl rfl)
  by_cases hstores : c ∈
    [Cmd.slotPoke, .slotPokeAllByte, .loadSlot, .loadAndExit, .exitCmdRespRestore]
  · have hstored := exec_stored hp hfits h hcode hchip hstores hrun
    rw [hstate] at hstored
    have hkinds : ∀ k ∈ [Kind.header, .answer], k ∉ c.done ∧ k ∉ c.failed := by
      simp only [List.mem_cons, List.not_mem_nil, or_false] at hstores
      rcases hstores with rfl | rfl | rfl | rfl | rfl <;> decide
    exact hquiet (Work.backWrites_eq hworked (Cmd.notMem_kinds (hkinds _ (by simp)) _)
      (Cmd.notMem_kinds (hkinds _ (by simp)) _)) hstored
  rw [Frame.stores_eq_nil p hcode hstores] at hquiet ⊢
  simp only [ite_self, List.append_nil] at hquiet ⊢
  by_cases hanswers : Kind.answer ∈ c.done ++ c.failed
  · have hsession : c.inSession = true ∧ ∀ k ∈ c.done ++ c.failed, k ∈ quietKinds := by
      unfold Frame.Plain at hplain
      rw [hcode] at hplain
      cases c <;> first
        | exact absurd hanswers (by decide)
        | decide
    have hkinds : ∀ ok : Bool, ∀ k ∈ (if ok then c.done else c.failed), k ∈ quietKinds := by
      intro ok k hk
      refine hsession.2 k (List.mem_append.mpr ?_)
      split at hk
      · exact Or.inl hk
      · exact Or.inr hk
    have hactive := hin hsession.1
    obtain ⟨data, hanswered, -⟩ := Work.answered hworked (hkinds _) hp.served (hfits hactive)
    exact ⟨data, hanswered.trace, hanswered.inside,
      fun hidle => absurd (hidle.symm.trans hactive) Bool.false_ne_true, hanswered.laid⟩
  · have hmemory : ∀ k ∈ [Kind.answer, .poke, .load, .restore, .header, .stage, .nvPoke],
        k ∉ c.done ∧ k ∉ c.failed := by
      unfold Frame.Plain at hplain
      rw [hcode] at hplain
      cases c <;> first
        | exact absurd (by decide) hanswers
        | exact absurd (by decide) hstores
        | exact absurd (by decide) hplain
        | decide
    have hkept : ∀ k ∈ [Kind.answer, .poke, .load, .restore, .header, .stage, .nvPoke], _ :=
      fun k hk => Cmd.notMem_kinds (hmemory k hk) (dispatched p frame).1
    refine @hquiet _ false (Work.backWrites_eq hworked (hkept _ (by simp)) (hkept _ (by simp)))
      (Laid.same ?_ ?_)
    · exact Work.same Plugin.mem (fun k hk p q hact => hact.kept.mem fun hmem => hkept k hmem hk)
        hworked
    · exact Work.same (fun q => q.rt.currentSlot) (fun k _ p q hact => hact.kept.device.1) hworked

/-- What is stored is stored before anything is left for flash. -/
lemma stores_deferred {p : Plugin} {frame : Frame} (h : frame.Whole)
    (hdeferred : p.nvDeferred = .none) :
    (if (dispatched p frame).1 then frame.stores p else []) =
      if (finishDeferred (dispatched p frame).1 (dispatched p frame).2).1 then frame.stores p
      else [] := by
  rcases dispatched_cases p h with hrefused | ⟨c, hcode, -, -, hworked⟩
  · rw [hrefused, @finishDeferred_none _ (false, p) hdeferred]
  · by_cases hstores : c ∈
      [Cmd.slotPoke, .slotPokeAllByte, .loadSlot, .loadAndExit, .exitCmdRespRestore]
    · have hkinds : ∀ k ∈ [Kind.commit, .discard, .reset], k ∉ c.done ∧ k ∉ c.failed := by
        simp only [List.mem_cons, List.not_mem_nil, or_false] at hstores
        rcases hstores with rfl | rfl | rfl | rfl | rfl <;> decide
      have hkept : (dispatched p frame).2.nvDeferred = p.nvDeferred :=
        Work.same Plugin.nvDeferred (fun k hk p q hact => hact.kept.deferred fun hmem =>
          Cmd.notMem_kinds (hkinds k hmem) _ hk) hworked
      rw [finishDeferred_none (hkept.trans hdeferred)]
    · rw [Frame.stores_eq_nil p hcode hstores, ite_self, ite_self]

/-- A session's settings last as long as it does. -/
lemma dispatched_cfg {p : Plugin} {frame : Frame} (hactive : p.active = true) (h : frame.Whole)
    (hstill : (dispatched p frame).2.active = true) : (dispatched p frame).2.cfg = p.cfg := by
  rcases dispatched_cases p h with hrefused | ⟨c, hcode, -, ⟨t, hrun, hstate⟩, hworked⟩
  · rw [hrefused]
  · by_cases henter : c = .enterCmdResp
    · subst henter
      have hkept := (Cmd.enterCmdResp_refused _ _ _ _ hrun hactive).2
      rw [← hstate, hkept]
    by_cases hreset : c = .rbcpReset
    · subst hreset
      have hinit : initRbcp p = t.state := congrArg (fun r => r.2.state) hrun
      rw [← hstate, ← hinit] at hstill
      cases hstill
    have hkinds : ∀ k ∈ [Kind.enter, .reset], k ∉ c.done ∧ k ∉ c.failed := by
      cases c <;> first
        | exact absurd rfl henter
        | exact absurd rfl hreset
        | decide
    have hsettings := Work.settings_eq hworked (Cmd.notMem_kinds (hkinds .enter (by simp)) _)
      (Cmd.notMem_kinds (hkinds .reset (by simp)) _)
    exact (Prod.mk.inj hsettings).1

lemma Laid.congr {p q q' : Plugin} {writes : List (Cell × UInt8)} (h : Laid p q writes)
    (hmem : q'.mem = q.mem) (hdevice : q'.rt.currentSlot = q.rt.currentSlot) :
    Laid p q' writes := by
  have htrans := h.trans (Laid.same hmem hdevice)
  rwa [List.append_nil] at htrans

/-- What a command does to the RAM slots from its header to its answer. -/
structure Performed (p : Plugin) (frame : Frame) (q : Plugin) (before after : List BackWrite) :
    Prop where
  trace : q.backWrites = p.backWrites ++ before ++ after
  inside : ∀ w ∈ before ++ after, w.Inside p.cfg
  idle : p.active = false → before = [] ∧ after = []
  laid : Laid p q (backCells p.cfg.regionOffset before ++
    (if succeeds p frame then frame.stores p else []) ++ backCells p.cfg.regionOffset after)
  cfg : p.active = true → q.active = true → q.cfg = p.cfg

omit [Firmware] in
lemma beginWrites_lt (cfg : RbcpCfg) (tokenLsb tokenMsb group cmd : UInt8) :
    ∀ write ∈ beginWrites cfg tokenLsb tokenMsb group cmd, write.1 < HDR_SIZE := by
  intro write hwrite
  simp only [beginWrites, List.mem_cons, List.not_mem_nil, or_false] at hwrite
  rcases hwrite with rfl | rfl | rfl | rfl | rfl <;> (dsimp only; decide)

omit [Firmware] in
lemma endWrites_lt (cfg : RbcpCfg) (ok : Bool) :
    ∀ write ∈ endWrites cfg ok false, write.1 < HDR_SIZE := by
  intro write hwrite
  simp only [endWrites, Bool.false_eq_true, if_false, List.append_nil, List.mem_append,
    List.mem_singleton] at hwrite
  rcases hwrite with rfl | rfl <;> (dsimp only; decide)

omit [Firmware] in
lemma inside_headers {cfg : RbcpCfg} {slot : UInt8} {writes : List (ℕ × UInt8)}
    (h : ∀ write ∈ writes, write.1 < HDR_SIZE) : ∀ w ∈ headers slot writes, w.Inside cfg := by
  intro w hw
  obtain ⟨write, hwrite, rfl⟩ := List.mem_map.mp hw
  exact h write hwrite

/-- A command that answers nothing. -/
lemma performed_of_end {p : Plugin} {frame : Frame} (hp : Ready p)
    (hfits : p.active = true → Fits p) (h : frame.Whole) (hplain : frame.Plain)
    (hchip : frame.InChip p.rt) (hsilent : p.active = true → cmdIsSilent frame.group frame.cmd = true)
    (hend : ∃ nvState nvDeferred, endCommand frame.group frame.cmd p.active (worked p frame) =
      { (worked p frame).2 with nvState, nvDeferred }) :
    ∃ before after, Performed p frame (perform p frame) before after := by
  obtain ⟨data, htrace, hinside, hidle, hlaid⟩ := dispatched_laid hp.sound hfits h hplain hchip
  rw [stores_deferred h hp.deferred] at hlaid
  have hworked : worked p frame =
      finishDeferred (dispatched p frame).1 (dispatched p frame).2 := by
    rw [worked, beginCommand_silent hsilent]
  obtain ⟨nvState', nvDeferred, hend⟩ := hend
  obtain ⟨nvState, nv, nvWrites, -, hfinished⟩ :=
    finishDeferred_eq (dispatched p frame).1 (dispatched p frame).2
  refine ⟨data, [], ?_, ?_, fun hp' => ⟨hidle hp', rfl⟩, ?_, fun hactive hstill => ?_⟩
  · rw [perform_eq h, hend, hworked, hfinished, List.append_nil]
    exact htrace
  · rw [List.append_nil]
    exact hinside
  · rw [perform_eq h, hend, succeeds, hworked]
    rw [show backCells p.cfg.regionOffset [] = [] from rfl, List.append_nil]
    exact hlaid.congr (by rw [hfinished]) (by rw [hfinished])
  · rw [perform_eq h, hend, hworked, hfinished] at hstill ⊢
    exact dispatched_cfg hactive h hstill

/-- The header of a command that is answered. -/
lemma beginCommand_laid {p : Plugin} {group cmd : UInt8} (hp : Sound p) (hactive : p.active = true)
    (hfits : Fits p) (hsilent : cmdIsSilent group cmd = false) :
    Laid p (beginCommand group cmd p) (backCells p.cfg.regionOffset (headers p.activeSlot
      (beginWrites p.cfg (beginCommand group cmd p).tokenLsb (beginCommand group cmd p).tokenMsb
        group cmd))) := by
  have hbegin := beginCommand_headed hp hactive hsilent
  have htoken : (beginCommand group cmd p).tokenLsb = (nextToken p).tokenLsb ∧
      (beginCommand group cmd p).tokenMsb = (nextToken p).tokenMsb := by
    rw [hbegin]
    exact ⟨rfl, rfl⟩
  obtain ⟨lsb, msb, hnext⟩ := nextToken_eq p
  have hfits' : Fits (nextToken p) := by rw [hnext]; exact hfits
  have hserved : Served (nextToken p).rt.currentSlot := by rw [hnext]; exact hp.served
  have hcfg : (nextToken p).cfg = p.cfg := by rw [hnext]
  have hleft : Laid p (nextToken p) [] := by rw [hnext]; exact .same rfl rfl
  have hright := headed_laid hserved hfits' p.activeSlot
    (beginWrites_lt p.cfg (nextToken p).tokenLsb (nextToken p).tokenMsb group cmd)
  rw [hcfg] at hright
  rw [htoken.1, htoken.2, hbegin]
  exact hleft.trans hright

lemma performed_of_answer {p : Plugin} {frame : Frame} (hp : Ready p) (hactive : p.active = true)
    (hfits : Fits p) (h : frame.Whole) (hplain : frame.Plain) (hchip : frame.InChip p.rt)
    (hsilent : cmdIsSilent frame.group frame.cmd = false) :
    ∃ before after, Performed p frame (perform p frame) before after := by
  have hopened := beginCommand_opened hp.sound hactive hsilent
  have hb := hp.sound.opened hopened
  have hheader := beginCommand_laid hp.sound hactive hfits hsilent
  generalize hbegin : beginCommand frame.group frame.cmd p = b at hopened hb hheader
  obtain ⟨tokenLsb, tokenMsb, mem, backWrites, hframe⟩ := hopened.rest
  have hfits' : Fits b := by rw [hframe]; exact hfits
  have hstores : frame.stores b = frame.stores p := by rw [hframe]; rfl
  have hchip' : frame.InChip b.rt := by rw [hframe]; exact hchip
  have hcfg : b.cfg = p.cfg := by rw [hframe]
  have hbactive : b.active = true := by rw [hframe]; exact hactive
  obtain ⟨data, htrace, hinside, -, hlaid⟩ := dispatched_laid hb (fun _ => hfits') h hplain hchip'
  rw [stores_deferred h (by rw [hframe]; exact hp.deferred), hstores, hcfg] at hlaid
  have hanswering := dispatched_answering hb hbactive h hsilent
  have hcfg' : (dispatched b frame).2.cfg = p.cfg :=
    (Prod.mk.inj hanswering.settings).1.trans hcfg
  have hworked : worked p frame = finishDeferred (dispatched b frame).1 (dispatched b frame).2 := by
    rw [worked, hbegin]
  obtain ⟨nvState, nv, nvWrites, -, hfinished⟩ :=
    finishDeferred_eq (dispatched b frame).1 (dispatched b frame).2
  rw [← hworked] at hlaid hfinished
  have hu : Sound (worked p frame).2 := by
    rw [hfinished]
    exact ⟨hanswering.sound.served, hanswering.sound.slot, hanswering.sound.region⟩
  have hmiddle : Laid p (worked p frame).2 _ :=
    (hheader.trans hlaid).congr (by rw [hfinished]) (by rw [hfinished])
  have hucfg : (worked p frame).2.cfg = p.cfg := by rw [hfinished]; exact hcfg'
  have hclosing := headed_laid hu.served (by
    unfold Fits at hfits ⊢
    rw [hucfg, cellCount_congr hmiddle.device]
    exact hfits) (worked p frame).2.activeSlot (endWrites_lt p.cfg (succeeds p frame))
  rw [hucfg] at hclosing
  obtain ⟨nvState', nvDeferred, hend, -⟩ := settled_eq (headed (worked p frame).2.activeSlot
    (endWrites p.cfg (succeeds p frame) false) (worked p frame).2)
  have hperform := perform_eq (p := p) h
  rw [hactive, endCommand_answered hsilent hu, hucfg, show (worked p frame).1 = succeeds p frame
    from rfl, hend] at hperform
  have hall : Laid p (perform p frame) _ :=
    (hmiddle.trans hclosing).congr (by rw [hperform]) (by rw [hperform])
  refine ⟨headers p.activeSlot (beginWrites p.cfg b.tokenLsb b.tokenMsb frame.group frame.cmd) ++
    data, headers (worked p frame).2.activeSlot (endWrites p.cfg (succeeds p frame) false),
    ?_, ?_, fun hidle => absurd (hidle.symm.trans hactive) Bool.false_ne_true, ?_, fun _ _ => ?_⟩
  · rw [hperform]
    show (worked p frame).2.backWrites ++ _ = _
    rw [hfinished]
    show (dispatched b frame).2.backWrites ++ _ = _
    rw [htrace, hopened.trace, List.append_assoc p.backWrites]
  · intro w hw
    rcases List.mem_append.mp hw with hw | hw
    · rcases List.mem_append.mp hw with hw | hw
      · exact inside_headers (beginWrites_lt _ _ _ _ _) w hw
      · exact hcfg ▸ hinside w hw
    · exact inside_headers (endWrites_lt _ _) w hw
  · rw [backCells_append]
    simp only [List.append_assoc] at hall ⊢
    exact hall
  · rw [hperform]
    exact hucfg

lemma perform_performed {p : Plugin} {frame : Frame} (hp : Ready p)
    (hfits : p.active = true → Fits p) (h : frame.Whole) (hplain : frame.Plain)
    (hchip : frame.InChip p.rt) : ∃ before after, Performed p frame (perform p frame) before after := by
  cases hactive : p.active with
  | true =>
    rcases Bool.eq_false_or_eq_true (cmdIsSilent frame.group frame.cmd) with hsilent | hsilent
    · refine performed_of_end hp hfits h hplain hchip (fun _ => hsilent) ?_
      obtain ⟨nvState, nvDeferred, hend, -⟩ := settled_eq (worked p frame).2
      rw [hactive, endCommand_silent hsilent, hend]
      exact ⟨_, _, rfl⟩
    · exact performed_of_answer hp hactive (hfits hactive) h hplain hchip hsilent
  | false =>
    have hsilent : p.active = true → cmdIsSilent frame.group frame.cmd = true := fun h =>
      absurd (hactive.symm.trans h) Bool.false_ne_true
    refine performed_of_end hp hfits h hplain hchip hsilent ?_
    have hidle := (dispatched_idle hactive h fun henter => hplain (by
      rw [henter]
      exact List.mem_cons_self)).1
    obtain ⟨nvState, nv, nvWrites, -, hfinished⟩ :=
      finishDeferred_eq (dispatched p frame).1 (dispatched p frame).2
    have hworked : (worked p frame).2.active = false := by
      rw [worked, beginCommand_silent hsilent, hfinished]
      exact hidle
    rw [hactive, endCommand_idle hworked]
    exact ⟨_, _, rfl⟩

/-! ### Runs -/

/-- What the host has stored, in the frames that succeeded. -/
def storedBy : Plugin → List Frame → List (Cell × UInt8)
  | _, [] => []
  | p, frame :: done =>
    (if succeeds p frame then frame.stores p else []) ++ storedBy (perform p frame) done

/-- What a session does to a byte of the chip. -/
structure SessionCell (cfg : RbcpCfg) (p q : Plugin) (stored : List (Cell × UInt8))
    (writes : List BackWrite) (cell : Cell) : Prop where
  /-- Outside the region it is what was last stored in it. -/
  outside : ¬InRegion cfg cell → readCell q cell = lay (readCell p) stored cell
  /-- In the region it is what the trace says, unless it is stored over. -/
  inside : cell ∉ stored.map Prod.fst →
    readCell q cell = lay (readCell p) (backCells cfg.regionOffset writes) cell

lemma perform_sessionCell {cfg : RbcpCfg} {p q : Plugin} {frame : Frame}
    {before after : List BackWrite} (h : Performed p frame q before after)
    (hcfg : p.active = true → p.cfg = cfg) {cell : Cell} (hcell : cell.2 < cellCount p.rt) :
    SessionCell cfg p q (if succeeds p frame then frame.stores p else []) (before ++ after)
      cell := by
  have hread := h.laid.read cell hcell
  rcases Bool.eq_false_or_eq_true p.active with hactive | hidle
  · rw [← hcfg hactive]
    have hout : ∀ writes : List BackWrite, (∀ w ∈ writes, w ∈ before ++ after) →
        ¬InRegion p.cfg cell → cell ∉ (backCells p.cfg.regionOffset writes).map Prod.fst := by
      intro writes hsub hregion hmem
      obtain ⟨write, hwrite, rfl⟩ := List.mem_map.mp hmem
      exact hregion (inRegion_of_mem_backCells (fun w hw => h.inside w (hsub w hw)) hwrite)
    refine ⟨fun hregion => ?_, fun hstored => ?_⟩
    · rw [hread, lay_between (hout _ (fun w => List.mem_append_left _) hregion)
        (hout _ (fun w => List.mem_append_right _) hregion)]
    · rw [hread, lay_around hstored, ← backCells_append]
  · obtain ⟨rfl, rfl⟩ := h.idle hidle
    have hnil : ∀ base, backCells base [] = [] := fun _ => rfl
    rw [hnil, List.nil_append, List.append_nil] at hread
    refine ⟨fun _ => hread, fun hstored => ?_⟩
    rw [hread, lay_of_notMem hstored]
    rfl

lemma SessionCell.trans {cfg : RbcpCfg} {p q r : Plugin} {stored stored' : List (Cell × UInt8)}
    {writes writes' : List BackWrite} {cell : Cell} (h : SessionCell cfg p q stored writes cell)
    (h' : SessionCell cfg q r stored' writes' cell) :
    SessionCell cfg p r (stored ++ stored') (writes ++ writes') cell := by
  refine ⟨fun hregion => ?_, fun hstored => ?_⟩
  · rw [h'.outside hregion, lay_append]
    exact lay_congr _ (h.outside hregion)
  · rw [List.map_append, List.mem_append, not_or] at hstored
    rw [h'.inside hstored.2, backCells_append, lay_append]
    exact lay_congr _ (h.inside hstored.1)

lemma perform_store {cfg : RbcpCfg} {p : Plugin} (hp : Ready p)
    (hfits : p.active = true → Fits p ∧ p.cfg = cfg) {done : List Frame}
    (h : ∀ frame ∈ done, frame.Whole) (hplain : ∀ frame ∈ done, frame.Plain)
    (hchip : ∀ frame ∈ done, frame.InChip p.rt) : ∃ writes,
      (done.foldl perform p).backWrites = p.backWrites ++ writes ∧
        ∀ cell : Cell, cell.2 < cellCount p.rt →
          SessionCell cfg p (done.foldl perform p) (storedBy p done) writes cell := by
  induction done generalizing p with
  | nil => exact ⟨[], (List.append_nil _).symm, fun cell _ => ⟨fun _ => rfl, fun _ => rfl⟩⟩
  | cons frame done ih =>
    have hframe := h frame List.mem_cons_self
    obtain ⟨before, after, hperformed⟩ := perform_performed hp (fun hactive => (hfits hactive).1)
      hframe (hplain frame List.mem_cons_self) (hchip frame List.mem_cons_self)
    have hdevice := hperformed.laid.device
    have hnext : (perform p frame).active = true →
        Fits (perform p frame) ∧ (perform p frame).cfg = cfg := by
      intro hstill
      have hactive : p.active = true := by
        by_contra hidle
        have hidle' := (perform_idle (Bool.not_eq_true _ |>.mp hidle) hframe fun henter =>
          hplain frame List.mem_cons_self (henter ▸ List.mem_cons_self)).1
        exact absurd (hidle'.symm.trans hstill) Bool.false_ne_true
      obtain ⟨hfits, hcfg⟩ := hfits hactive
      have hkept := hperformed.cfg hactive hstill
      refine ⟨?_, hkept.trans hcfg⟩
      unfold Fits at hfits ⊢
      rw [hkept, cellCount_congr hdevice]
      exact hfits
    have hchip' : ∀ f ∈ done, f.InChip (perform p frame).rt := fun f hf =>
      (Frame.inChip_congr hdevice f).mpr (hchip f (List.mem_cons_of_mem _ hf))
    obtain ⟨writes, htrace, hrest⟩ := ih (perform_ready hp hframe) hnext
      (fun f hf => h f (List.mem_cons_of_mem _ hf))
      (fun f hf => hplain f (List.mem_cons_of_mem _ hf)) hchip'
    refine ⟨before ++ after ++ writes, ?_, fun cell hcell => ?_⟩
    · rw [List.foldl_cons, htrace, hperformed.trace]
      simp only [List.append_assoc]
    · exact (perform_sessionCell hperformed (fun hactive => (hfits hactive).2) hcell).trans
        (hrest cell (cellCount_congr hdevice ▸ hcell))

/-- The device in a session, with a region of 64 bytes at the start of the slot. -/
def bareSession (rt : Runtime) : @Plugin bareFirmware :=
  letI := bareFirmware
  { bareDevice rt with
    active := true
    cfg := ⟨0, RBCP_DEFAULT_COMPLETE, RBCP_DEFAULT_STATUS_OK, 0, 64, 56⟩ }

omit [Firmware] in
/-- A session on a 2316. -/
lemma bareSession_ready : ∃ slot addr cs,
    RomSlot.buildRomSlot Hw.fire24A .single RamSlot.chip2316 [] false = .ok (slot, addr, cs) ∧
      letI := bareFirmware
      Ready (bareSession (RamSlot.runtime slot)) ∧ Fits (bareSession (RamSlot.runtime slot)) ∧
        cellCount (RamSlot.runtime slot) = 2048 := by
  have hbuild : ∃ slot addr cs,
      RomSlot.buildRomSlot Hw.fire24A .single RamSlot.chip2316 [] false = .ok (slot, addr, cs) ∧
        chipSize slot = 2048 ∧ slot.alg.algAddr.numRomTableBits = 15 := ⟨_, _, _, rfl, rfl, rfl⟩
  obtain ⟨slot, addr, cs, hslot, hsize, hbits⟩ := hbuild
  have hserved : Served (RamSlot.runtime slot).currentSlot :=
    ⟨Hw.fire24A, List.mem_cons_self, .single, RamSlot.chip2316, [], false, addr, cs, hslot⟩
  have hregion : pioGetRomRegionSize (RamSlot.runtime slot) = 0x8000 := by
    rw [pioGetRomRegionSize, RamSlot.runtime, hbits]
    rfl
  have hcells : cellCount (RamSlot.runtime slot) = 2048 := by
    rw [cellCount, hregion, show chipSize (RamSlot.runtime slot).currentSlot = 2048 from hsize]
    rfl
  have hfirst := oraGetRamSlotCount_pos (RamSlot.runtime slot)
  let _ := bareFirmware
  refine ⟨slot, addr, cs, hslot, ⟨⟨hserved, hfirst, fun _ => ?_⟩, fun _ => ?_, rfl, fun _ => rfl⟩,
    ?_, hcells⟩
  · show 0 + HDR_SIZE + 56 ≤ pioGetRomRegionSize (RamSlot.runtime slot)
    rw [hregion]
    decide
  · refine oraGetActiveRamSlot_of hserved hfirst ?_
    show RamSlot.SRAM_BASE = RamSlot.SRAM_BASE + 0 * _
    rw [Nat.zero_mul, Nat.add_zero]
  · show 0 + HDR_SIZE + 56 ≤ cellCount (RamSlot.runtime slot)
    rw [hcells]
    decide

/-- A byte of another slot is poked, and the device is asked for the protocol's version. -/
def pokeSession : List UInt8 := [0x02, 0x00, 0xAB, 0x00, 0x04, 0x00, 0x01, 0x01, 0x06]

end OneRom.Rbcp
