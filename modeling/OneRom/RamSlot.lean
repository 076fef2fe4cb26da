import OneRom.AddrMap

/-!
The RAM slots, which a plugin reads and patches while they are served.

A slot is a copy of the ROM table, and a logical byte of the chip is at the table's entry for its
address. `ramSlot_iff` says which reads and writes are those of a store of the chip's bytes.
-/

namespace OneRom.RamSlot

open OneRom.AddrMap OneRom.Hw OneRom.PinMaps OneRom.RomSlot OneRom.SlotLayout

def SRAM_BASE : ℕ := 0x20000000
def ORA_MAX_RAM_SLOTS : ℕ := 255

inductive OraResult
  | invalidArg | invalidSlot | slotActive | noSlotActive | internalError
  deriving DecidableEq, Repr

/-! ### The device -/

/-- What serving has set up, and the region that the linker leaves for RAM slots. -/
structure Runtime where
  currentSlot : OneromRomSlot
  ramRomImageSize : ℕ
  /-- The address of the ROM table that is served. -/
  romTable : ℕ

def pioGetRomRegionSize (rt : Runtime) : ℕ :=
  (1 <<< rt.currentSlot.alg.algAddr.numRomTableBits) % 2 ^ 32

def oraGetRamSlotCount (rt : Runtime) : ℕ :=
  let regionSize := pioGetRomRegionSize rt
  if regionSize = 0 then 1
  else
    let count := rt.ramRomImageSize / regionSize
    if count < 1 then 1 else if ORA_MAX_RAM_SLOTS < count then ORA_MAX_RAM_SLOTS else count

structure RamSlotInfo where
  addr : ℕ
  size : ℕ

def oraGetRamSlotInfo (rt : Runtime) (ramSlot : ℕ) : Except OraResult RamSlotInfo :=
  if oraGetRamSlotCount rt ≤ ramSlot then .error .invalidSlot
  else
    let regionSize := pioGetRomRegionSize rt
    .ok ⟨(SRAM_BASE + ramSlot * regionSize) % 2 ^ 32, regionSize⟩

def oraGetActiveRamSlot (rt : Runtime) : Except OraResult ℕ :=
  if rt.romTable = 0 ∨ rt.romTable = 0xFFFFFFFF then .error .noSlotActive
  else
    let regionSize := pioGetRomRegionSize rt
    let sramLimit := (SRAM_BASE + regionSize * oraGetRamSlotCount rt) % 2 ^ 32
    if rt.romTable < SRAM_BASE ∨ sramLimit ≤ rt.romTable then .error .internalError
    else if (rt.romTable - SRAM_BASE) % regionSize ≠ 0 then .error .internalError
    else .ok ((rt.romTable - SRAM_BASE) / regionSize % 256)

/-! ### Reads and writes -/

/-- The bytes of memory by address. -/
abbrev Memory := ℕ → UInt8

/-- Some bytes of a RAM slot, from a logical offset on. -/
structure Span where
  ramSlot : UInt8
  offset : UInt32
  len : UInt32

/-- The address in memory of a span's byte. Offsets are 32 bits wide. -/
def byteAt (rt : Runtime) (info : RamSlotInfo) (s : Span) (i : ℕ) : ℕ :=
  info.addr + pioMapAddrToPhys rt.currentSlot ((s.offset.toNat + i) % 2 ^ 32)

/-- The slot of a span, unless it has no bytes or passes the end of the slot. -/
def spanSlot (rt : Runtime) (s : Span) : Except OraResult RamSlotInfo := do
  let info ← oraGetRamSlotInfo rt s.ramSlot.toNat
  if info.size < (s.offset.toNat + s.len.toNat) % 2 ^ 32 then .error .invalidArg else .ok info

/-- `false` is a buffer that isn't there. -/
def pioReadRamRomSlot (rt : Runtime) (mem : Memory) (s : Span) (buf : Bool) :
    Except OraResult (List UInt8) :=
  if buf = false ∨ s.len = 0 then .error .invalidArg
  else do
    let info ← spanSlot rt s
    return (List.range s.len.toNat).map fun i =>
      UInt8.ofNat (pioDemangleData rt.currentSlot (mem (byteAt rt info s i)).toNat)

/-- The writes of a span's bytes, each to its address. -/
def spanWrites (rt : Runtime) (info : RamSlotInfo) (s : Span) (data : ℕ → UInt8) :
    List (ℕ × UInt8) :=
  (List.range s.len.toNat).map fun i =>
    (byteAt rt info s i, UInt8.ofNat (pioMapDataToPhys rt.currentSlot (data i).toNat))

def writeBytes (mem : Memory) (writes : List (ℕ × UInt8)) : Memory :=
  writes.foldl (fun mem write => Function.update mem write.1 write.2) mem

/-- `none` is a buffer that isn't there. -/
def pioReprogramRamRomSlot (rt : Runtime) (mem : Memory) (s : Span) (data : Option (ℕ → UInt8))
    (allowActive : UInt8) : Except OraResult Memory :=
  match data with
  | none => .error .invalidArg
  | some data =>
    if s.len = 0 then .error .invalidArg
    else do
      let info ← spanSlot rt s
      if allowActive = 0 ∧ oraGetActiveRamSlot rt = .ok s.ramSlot.toNat then .error .slotActive
      else return writeBytes mem (spanWrites rt info s data)

/-! ### A store of bytes -/

/-- The first byte of memory that is the slot's. -/
def slotStart (rt : Runtime) (ramSlot : UInt8) : ℕ :=
  SRAM_BASE + ramSlot.toNat * pioGetRomRegionSize rt

/-- The slot exists, and the bytes are bytes of the chip. -/
def InChip (rt : Runtime) (s : Span) : Prop :=
  s.ramSlot.toNat < oraGetRamSlotCount rt ∧ s.len ≠ 0 ∧
    s.offset.toNat + s.len.toNat ≤ chipSize rt.currentSlot

/-- No byte is in both. -/
def Apart (s t : Span) : Prop :=
  s.ramSlot ≠ t.ramSlot ∨ s.offset.toNat + s.len.toNat ≤ t.offset.toNat ∨
    t.offset.toNat + t.len.toNat ≤ s.offset.toNat

/-- A write `w`, a read `r` and an address `a` are those of a store of the chip's bytes. -/
structure ByteStore (rt : Runtime) (hw : OneromHardwareInfo) (mem : Memory) (w r : Span)
    (data : ℕ → UInt8) (allowActive : UInt8) (a : ℕ) : Prop where
  writes : (∃ mem', pioReprogramRamRomSlot rt mem w (some data) allowActive = .ok mem') ↔
    InChip rt w
  reads : (∃ bytes, pioReadRamRomSlot rt mem r true = .ok bytes) ↔ InChip rt r
  written : ∀ mem', pioReprogramRamRomSlot rt mem w (some data) allowActive = .ok mem' →
    pioReadRamRomSlot rt mem' w true = .ok ((List.range w.len.toNat).map data)
  kept : ∀ mem', pioReprogramRamRomSlot rt mem w (some data) allowActive = .ok mem' →
    Apart w r → pioReadRamRomSlot rt mem' r true = pioReadRamRomSlot rt mem r true
  framed : ∀ mem', pioReprogramRamRomSlot rt mem w (some data) allowActive = .ok mem' →
    ∀ x, x < slotStart rt w.ramSlot ∨ slotStart rt w.ramSlot + pioGetRomRegionSize rt ≤ x →
      mem' x = mem x
  mapped : a < chipSize rt.currentSlot →
    pioDemangleAddr rt.currentSlot hw (pioMapAddrToPhys rt.currentSlot a) false = .ok a

/-- The write is refused for the sake of the slot that is served. -/
def Guarded (rt : Runtime) (w : Span) (allowActive : UInt8) : Prop :=
  allowActive = 0 ∧ oraGetActiveRamSlot rt = .ok w.ramSlot.toNat

/-- Where the slot exists and there are bytes, the span ends within both the chip and the region and
isn't guarded, or it ends past the chip and is guarded or past the region, in 32 bits. -/
def BoundAgrees (rt : Runtime) (s : Span) (guarded : Prop) : Prop :=
  s.ramSlot.toNat < oraGetRamSlotCount rt → s.len ≠ 0 →
    let last := s.offset.toNat + s.len.toNat
    last ≤ chipSize rt.currentSlot ∧ last ≤ pioGetRomRegionSize rt ∧ ¬guarded ∨
      chipSize rt.currentSlot < last ∧ (pioGetRomRegionSize rt < last % 2 ^ 32 ∨ guarded)

section Memory

variable {mem : Memory} {writes : List (ℕ × UInt8)} {x : ℕ} {b : UInt8}

lemma writeBytes_of_notMem (h : x ∉ writes.map (·.1)) : writeBytes mem writes x = mem x := by
  induction writes generalizing mem with
  | nil => rfl
  | cons write writes ih =>
    rw [List.map_cons, List.mem_cons, not_or] at h
    rw [writeBytes, List.foldl_cons, ← writeBytes, ih h.2, Function.update_of_ne h.1]

/-- Where no address is written twice, each has what was written to it. -/
lemma writeBytes_of_mem (hnodup : (writes.map (·.1)).Nodup) (h : (x, b) ∈ writes) :
    writeBytes mem writes x = b := by
  induction writes generalizing mem with
  | nil => cases h
  | cons write writes ih =>
    rw [List.map_cons, List.nodup_cons] at hnodup
    rw [writeBytes, List.foldl_cons, ← writeBytes]
    rcases List.mem_cons.mp h with rfl | h
    · rw [writeBytes_of_notMem hnodup.1, Function.update_self]
    · exact ih hnodup.2 h

end Memory

section Device

variable {rt : Runtime} {mem mem' : Memory} {s t w r : Span} {data : ℕ → UInt8}
  {allowActive : UInt8} {i j : ℕ}

/-- The slot's bytes, where the firmware finds them. -/
def slotInfo (rt : Runtime) (ramSlot : UInt8) : RamSlotInfo :=
  ⟨slotStart rt ramSlot % 2 ^ 32, pioGetRomRegionSize rt⟩

/-- The firmware's check. -/
def Accepted (rt : Runtime) (s : Span) : Prop :=
  s.ramSlot.toNat < oraGetRamSlotCount rt ∧ s.len ≠ 0 ∧
    (s.offset.toNat + s.len.toNat) % 2 ^ 32 ≤ pioGetRomRegionSize rt

lemma spanSlot_ok {info : RamSlotInfo} : spanSlot rt s = .ok info ↔
    s.ramSlot.toNat < oraGetRamSlotCount rt ∧
      (s.offset.toNat + s.len.toNat) % 2 ^ 32 ≤ pioGetRomRegionSize rt ∧
      info = slotInfo rt s.ramSlot := by
  unfold spanSlot oraGetRamSlotInfo
  by_cases hslot : oraGetRamSlotCount rt ≤ s.ramSlot.toNat
  · rw [if_pos hslot]
    refine iff_of_false (fun h => by cases h) fun h => ?_
    omega
  · rw [if_neg hslot]
    change (if pioGetRomRegionSize rt < (s.offset.toNat + s.len.toNat) % 2 ^ 32 then
      Except.error OraResult.invalidArg else Except.ok (slotInfo rt s.ramSlot)) = .ok info ↔ _
    split_ifs with hbound
    · refine iff_of_false (fun h => by cases h) fun h => ?_
      omega
    · rw [Except.ok.injEq]
      constructor
      · rintro rfl
        exact ⟨by omega, by omega, rfl⟩
      · rintro ⟨-, -, rfl⟩
        rfl

/-- What a read returns. -/
def bytesOf (rt : Runtime) (mem : Memory) (s : Span) : List UInt8 :=
  (List.range s.len.toNat).map fun i =>
    UInt8.ofNat (pioDemangleData rt.currentSlot (mem (byteAt rt (slotInfo rt s.ramSlot) s i)).toNat)

lemma read_ok {bytes : List UInt8} :
    pioReadRamRomSlot rt mem s true = .ok bytes ↔ Accepted rt s ∧ bytes = bytesOf rt mem s := by
  unfold pioReadRamRomSlot Accepted
  by_cases hlen : s.len = 0
  · rw [if_pos (Or.inr hlen)]
    exact iff_of_false (fun h => by cases h) fun h => h.1.2.1 hlen
  · rw [if_neg (by simpa using hlen), Checks.bind_eq_ok]
    constructor
    · rintro ⟨info, hinfo, h⟩
      obtain ⟨hslot, hbound, rfl⟩ := spanSlot_ok.mp hinfo
      exact ⟨⟨hslot, hlen, hbound⟩, (Checks.pure_eq_ok.mp h).symm⟩
    · rintro ⟨⟨hslot, -, hbound⟩, rfl⟩
      exact ⟨_, spanSlot_ok.mpr ⟨hslot, hbound, rfl⟩, rfl⟩

/-- A read that is refused doesn't depend on what is stored. -/
lemma read_of_not_accepted (h : ¬Accepted rt s) (mem mem' : Memory) :
    pioReadRamRomSlot rt mem s true = pioReadRamRomSlot rt mem' s true := by
  unfold pioReadRamRomSlot
  by_cases hlen : s.len = 0
  · rw [if_pos (Or.inr hlen), if_pos (Or.inr hlen)]
  · rw [if_neg (by simpa using hlen), if_neg (by simpa using hlen)]
    cases hspan : spanSlot rt s with
    | error e => rfl
    | ok info =>
      obtain ⟨hslot, hbound, -⟩ := spanSlot_ok.mp hspan
      exact absurd ⟨hslot, hlen, hbound⟩ h

lemma write_ok : pioReprogramRamRomSlot rt mem w (some data) allowActive = .ok mem' ↔
    Accepted rt w ∧ ¬Guarded rt w allowActive ∧
      mem' = writeBytes mem (spanWrites rt (slotInfo rt w.ramSlot) w data) := by
  unfold pioReprogramRamRomSlot Accepted
  dsimp only
  by_cases hlen : w.len = 0
  · rw [if_pos hlen]
    exact iff_of_false (fun h => by cases h) fun h => h.1.2.1 hlen
  · rw [if_neg hlen, Checks.bind_eq_ok]
    constructor
    · rintro ⟨info, hinfo, h⟩
      obtain ⟨hslot, hbound, rfl⟩ := spanSlot_ok.mp hinfo
      split_ifs at h with hguard
      exact ⟨⟨hslot, hlen, hbound⟩, hguard, (Checks.pure_eq_ok.mp h).symm⟩
    · rintro ⟨⟨hslot, -, hbound⟩, hguard, rfl⟩
      refine ⟨_, spanSlot_ok.mpr ⟨hslot, hbound, rfl⟩, ?_⟩
      exact if_neg hguard

/-! ### Entries -/

lemma regionSize_eq (h : MapOk rt.currentSlot) :
    pioGetRomRegionSize rt = 2 ^ rt.currentSlot.alg.algAddr.numRomTableBits ∧
      pioGetRomRegionSize rt ≤ 2 ^ 19 := by
  have hle : 2 ^ rt.currentSlot.alg.algAddr.numRomTableBits ≤ 2 ^ 19 :=
    Nat.pow_le_pow_right (by decide) h.fits
  have heq : pioGetRomRegionSize rt = 2 ^ rt.currentSlot.alg.algAddr.numRomTableBits := by
    rw [pioGetRomRegionSize, Nat.one_shiftLeft, Nat.mod_eq_of_lt (by omega)]
  exact ⟨heq, heq ▸ hle⟩

lemma slotStart_lt (h : MapOk rt.currentSlot) (ramSlot : UInt8) :
    slotStart rt ramSlot < 2 ^ 32 := by
  have hle := (regionSize_eq h).2
  have hslot : ramSlot.toNat ≤ 255 := by
    have := ramSlot.toNat_lt
    omega
  have hmul := Nat.mul_le_mul hslot hle
  have hbase : SRAM_BASE = 0x20000000 := rfl
  unfold slotStart
  omega

/-- An entry is in its slot's region. -/
lemma byteAt_eq (h : MapOk rt.currentSlot) (s : Span) (i : ℕ) :
    byteAt rt (slotInfo rt s.ramSlot) s i = slotStart rt s.ramSlot +
      pioMapAddrToPhys rt.currentSlot ((s.offset.toNat + i) % 2 ^ 32) ∧
      pioMapAddrToPhys rt.currentSlot ((s.offset.toNat + i) % 2 ^ 32) < pioGetRomRegionSize rt := by
  rw [byteAt, slotInfo, Nat.mod_eq_of_lt (slotStart_lt h _), (regionSize_eq h).1]
  exact ⟨rfl, pioMapAddrToPhys_lt h _⟩

/-- A span that ends within both the chip and the region. -/
def Inside (rt : Runtime) (s : Span) : Prop :=
  s.offset.toNat + s.len.toNat ≤ min (chipSize rt.currentSlot) (pioGetRomRegionSize rt)

/-- Bytes of the chip have entries of their own. -/
lemma byteAt_inj (h : MapOk rt.currentSlot) (hs : Inside rt s) (ht : Inside rt t)
    (hi : i < s.len.toNat) (hj : j < t.len.toNat)
    (heq : byteAt rt (slotInfo rt s.ramSlot) s i = byteAt rt (slotInfo rt t.ramSlot) t j) :
    s.ramSlot = t.ramSlot ∧ s.offset.toNat + i = t.offset.toNat + j := by
  obtain ⟨hregion, hle⟩ := regionSize_eq h
  obtain ⟨hsAt, hsLt⟩ := byteAt_eq h s i
  obtain ⟨htAt, htLt⟩ := byteAt_eq h t j
  unfold Inside at hs ht
  rw [hsAt, htAt, slotStart, slotStart, Nat.mul_comm _ (pioGetRomRegionSize rt),
    Nat.mul_comm _ (pioGetRomRegionSize rt)] at heq
  set p := pioMapAddrToPhys rt.currentSlot ((s.offset.toNat + i) % 2 ^ 32) with hp
  set q := pioMapAddrToPhys rt.currentSlot ((t.offset.toNat + j) % 2 ^ 32) with hq
  set region := pioGetRomRegionSize rt
  -- the region and the place in it are the quotient and the remainder
  have hsum : region * s.ramSlot.toNat + p = region * t.ramSlot.toNat + q := by omega
  have hslot : s.ramSlot.toNat = t.ramSlot.toNat := by
    have hdiv := congrArg (· / region) hsum
    simpa [Nat.mul_add_div (show 0 < region by omega), Nat.div_eq_of_lt hsLt,
      Nat.div_eq_of_lt htLt] using hdiv
  have hplace : p = q := by
    rw [hslot] at hsum
    omega
  refine ⟨UInt8.toNat_inj.mp hslot, ?_⟩
  have hlt : s.offset.toNat + i < min (chipSize rt.currentSlot) region := by omega
  have hlt' : t.offset.toNat + j < min (chipSize rt.currentSlot) region := by omega
  rw [hp, hq, Nat.mod_eq_of_lt (by omega), Nat.mod_eq_of_lt (by omega)] at hplace
  rw [hregion] at hlt hlt'
  exact pioMapAddrToPhys_inj h hlt hlt' hplace

lemma spanWrites_nodup (h : MapOk rt.currentSlot) (hs : Inside rt s) :
    ((spanWrites rt (slotInfo rt s.ramSlot) s data).map (·.1)).Nodup := by
  rw [spanWrites, List.map_map]
  refine List.nodup_range.map_on fun i hi j hj heq => ?_
  have := (byteAt_inj h hs hs (List.mem_range.mp hi) (List.mem_range.mp hj) heq).2
  omega

/-- What is written is read. -/
lemma bytesOf_written (h : MapOk rt.currentSlot) (hdata : DataOk rt.currentSlot)
    (hs : Inside rt s) :
    bytesOf rt (writeBytes mem (spanWrites rt (slotInfo rt s.ramSlot) s data)) s =
      (List.range s.len.toNat).map data := by
  refine List.map_congr_left fun i hi => ?_
  have hmem : (byteAt rt (slotInfo rt s.ramSlot) s i,
      UInt8.ofNat (pioMapDataToPhys rt.currentSlot (data i).toNat)) ∈
        spanWrites rt (slotInfo rt s.ramSlot) s data := List.mem_map.mpr ⟨i, hi, rfl⟩
  rw [writeBytes_of_mem (spanWrites_nodup h hs) hmem, UInt8.toNat_ofNat',
    pioDemangleData_map hdata (data i).toNat_lt, UInt8.ofNat_toNat]

/-- What is written elsewhere isn't. -/
lemma bytesOf_kept (h : MapOk rt.currentSlot) (hs : Inside rt s) (ht : Inside rt t)
    (hapart : Apart s t) :
    bytesOf rt (writeBytes mem (spanWrites rt (slotInfo rt s.ramSlot) s data)) t =
      bytesOf rt mem t := by
  refine List.map_congr_left fun j hj => ?_
  have hj := List.mem_range.mp hj
  have hout : byteAt rt (slotInfo rt t.ramSlot) t j ∉
      (spanWrites rt (slotInfo rt s.ramSlot) s data).map (·.1) := fun hin => by
    rw [spanWrites, List.map_map, List.mem_map] at hin
    obtain ⟨i, hi, heq⟩ := hin
    have hi := List.mem_range.mp hi
    obtain ⟨hslot, hoffset⟩ := byteAt_inj h hs ht hi hj heq
    rcases hapart with hne | hend | hend
    · exact hne hslot
    · omega
    · omega
  rw [writeBytes_of_notMem hout]

lemma writeBytes_framed (h : MapOk rt.currentSlot) {x : ℕ}
    (hx : x < slotStart rt s.ramSlot ∨ slotStart rt s.ramSlot + pioGetRomRegionSize rt ≤ x) :
    writeBytes mem (spanWrites rt (slotInfo rt s.ramSlot) s data) x = mem x := by
  refine writeBytes_of_notMem fun hin => ?_
  rw [spanWrites, List.map_map, List.mem_map] at hin
  obtain ⟨i, -, heq⟩ := hin
  obtain ⟨hat, hlt⟩ := byteAt_eq h s i
  have hx' : byteAt rt (slotInfo rt s.ramSlot) s i = x := heq
  omega

/-! ### The bound -/

/-- The firmware's check is that of the chip's bytes where the bounds agree. -/
lemma accepted_iff (h : MapOk rt.currentSlot) {guarded : Prop} :
    (Accepted rt s ∧ ¬guarded ↔ InChip rt s) ↔ BoundAgrees rt s guarded := by
  have hsize := h.size
  unfold Accepted InChip BoundAgrees
  by_cases hslot : s.ramSlot.toNat < oraGetRamSlotCount rt
  · by_cases hlen : s.len = 0
    · simp [hlen]
    · by_cases hguarded : guarded
      · simp only [hslot, hlen, hguarded, not_true_eq_false, ne_eq, not_false_eq_true, true_and,
          and_false, or_true, and_true, forall_const, false_iff, not_le, false_or]
      · simp only [hslot, hlen, hguarded, ne_eq, not_false_eq_true, true_and, and_true, or_false,
          forall_const]
        omega
  · simp [hslot]

/-- A span that is accepted is one of bytes of the chip, where the bounds agree. -/
lemma inside {guarded : Prop} (hagrees : BoundAgrees rt s guarded)
    (haccepted : Accepted rt s) (hguarded : ¬guarded) : Inside rt s := by
  obtain ⟨hslot, hlen, hbound⟩ := haccepted
  rcases hagrees hslot hlen with ⟨hchip, hregion, -⟩ | ⟨-, hout | hout⟩
  · exact le_min hchip hregion
  · omega
  · exact absurd hout hguarded

end Device

/-- **Reads and writes are those of a store of the chip's bytes** exactly where the bound that is
checked agrees with the chip's size, and addresses are mapped back exactly where the table has an
entry for them. -/
theorem ramSlot_iff {rt : Runtime} (hserved : Served rt.currentSlot) (hw : OneromHardwareInfo)
    (mem : Memory) (w r : Span) (data : ℕ → UInt8) (allowActive : UInt8) (a : ℕ) :
    ByteStore rt hw mem w r data allowActive a ↔
      BoundAgrees rt w (Guarded rt w allowActive) ∧ BoundAgrees rt r False ∧
        (a < chipSize rt.currentSlot → a < pioGetRomRegionSize rt) := by
  have h := mapOk hserved
  have hwrites : (∃ mem', pioReprogramRamRomSlot rt mem w (some data) allowActive = .ok mem') ↔
      Accepted rt w ∧ ¬Guarded rt w allowActive := by
    simp only [write_ok, exists_and_left, exists_eq, and_true]
  have hreads : (∃ bytes, pioReadRamRomSlot rt mem r true = .ok bytes) ↔
      Accepted rt r ∧ ¬False := by
    simp only [read_ok, exists_and_left, exists_eq, and_true, not_false_eq_true]
  rw [← accepted_iff h, ← accepted_iff h, ← hwrites, ← hreads, (regionSize_eq h).1]
  constructor
  · intro hstore
    exact ⟨hstore.writes, hstore.reads, fun ha => lt_of_pioDemangleAddr h (hstore.mapped ha)⟩
  · rintro ⟨hwrite, hread, ha⟩
    have hagrees := hwrite
    have hagrees' := hread
    rw [hwrites, accepted_iff h] at hagrees
    rw [hreads, accepted_iff h] at hagrees'
    exact
      { writes := hwrite
        reads := hread
        written := by
          intro mem' hok
          obtain ⟨haccepted, hguard, rfl⟩ := write_ok.mp hok
          refine read_ok.mpr ⟨haccepted, ?_⟩
          rw [bytesOf_written h (dataOk hserved) (inside hagrees haccepted hguard)]
        kept := by
          intro mem' hok hapart
          obtain ⟨haccepted, hguard, rfl⟩ := write_ok.mp hok
          by_cases hr : Accepted rt r
          · rw [read_ok.mpr ⟨hr, rfl⟩, read_ok.mpr ⟨hr, rfl⟩,
              bytesOf_kept h (inside hagrees haccepted hguard) (inside hagrees' hr not_false)
                hapart]
          · exact read_of_not_accepted hr _ _
        framed := by
          intro mem' hok x hx
          obtain ⟨-, -, rfl⟩ := write_ok.mp hok
          exact writeBytes_framed h hx
        mapped := fun hchip => pioDemangleAddr_map h hw hchip (ha hchip) }

/-- A 2316 is 2K, and its table on a fire-24-a is 32K. -/
def chip2316 : Chip :=
  ⟨.chip2316, .chipSelect .activeLow (some .activeLow) (some .activeLow) none, none⟩

/-- The first RAM slot is served. -/
def runtime (slot : OneromRomSlot) : Runtime := ⟨slot, 0x80000, SRAM_BASE⟩

/-- A write past the chip's end is accepted, and changes the chip's first byte. -/
theorem ramSlot_past_chip : ∃ slot addr cs,
    buildRomSlot fire24A .single chip2316 [] false = .ok (slot, addr, cs) ∧
      (∃ mem', pioReprogramRamRomSlot (runtime slot) (fun _ => 0) ⟨1, 2048, 1⟩
          (some fun _ => 0xFF) 0 = .ok mem' ∧
        pioReadRamRomSlot (runtime slot) (fun _ => 0) ⟨1, 0, 1⟩ true = .ok [0] ∧
        pioReadRamRomSlot (runtime slot) mem' ⟨1, 0, 1⟩ true = .ok [0xFF]) ∧
      ¬ByteStore (runtime slot) ⟨[], []⟩ (fun _ => 0) ⟨1, 2048, 1⟩ ⟨1, 0, 1⟩ (fun _ => 0xFF) 0
        0 := by
  refine ⟨_, _, _, rfl, ⟨_, rfl, by decide +kernel, by decide +kernel⟩, fun hstore => ?_⟩
  have hin := hstore.writes.mp ⟨_, rfl⟩
  exact absurd hin.2.2 (by decide +kernel)

/-- A write of the chip's last bytes, and a read of its first. -/
theorem ramSlot_2316 : ∃ slot addr cs,
    buildRomSlot fire24A .single chip2316 [] false = .ok (slot, addr, cs) ∧
      ByteStore (runtime slot) ⟨[], []⟩ (fun _ => 0) ⟨1, 2040, 8⟩ ⟨0, 0, 2048⟩ (fun _ => 0xFF) 1
        2047 := by
  have hbuild : ∃ slot addr cs,
      buildRomSlot fire24A .single chip2316 [] false = .ok (slot, addr, cs) ∧
        chipSize slot = 2048 ∧ slot.alg.algAddr.numRomTableBits = 15 := ⟨_, _, _, rfl, rfl, rfl⟩
  obtain ⟨slot, addr, cs, hslot, hsize, hbits⟩ := hbuild
  have hserved : Served (runtime slot).currentSlot :=
    ⟨fire24A, List.mem_cons_self, .single, chip2316, [], false, addr, cs, hslot⟩
  have hsize' : chipSize (runtime slot).currentSlot = 2048 := hsize
  have hregion : pioGetRomRegionSize (runtime slot) = 0x8000 := by
    rw [pioGetRomRegionSize, runtime, hbits]
    rfl
  have hactive : ¬Guarded (runtime slot) ⟨1, 2040, 8⟩ 1 := fun hguard =>
    absurd hguard.1 (by decide)
  refine ⟨slot, addr, cs, hslot, (ramSlot_iff hserved _ _ _ _ _ _ _).mpr ⟨?_, ?_, ?_⟩⟩
  · intro _ _
    rw [hsize', hregion]
    exact Or.inl ⟨by decide, by decide, hactive⟩
  · intro _ _
    rw [hsize', hregion]
    exact Or.inl ⟨by decide, by decide, not_false⟩
  · rw [hsize', hregion]
    decide

end OneRom.RamSlot
