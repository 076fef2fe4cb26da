import Mathlib

/-!
The answer that describes all flash slots.

It is a preamble and records of 32 bytes, as many as the data section of the back-channel has room
for. `flashSlotInfoAll_iff` says for which sections the plugin writes it.
-/

namespace OneRom.FlashSlotInfo

/-! ### The flash slots -/

structure FlashSlot where
  /-- The bytes before the NUL. -/
  name : Option (List UInt8)
  romType : ℕ

/-- The slots that aren't plugins. Their number is a byte. -/
structure FlashSlots where
  slots : List FlashSlot
  count : slots.length ≤ 255

def FlashSlots.total (s : FlashSlots) : UInt8 := UInt8.ofNat s.slots.length

/-- A slot's record: its type, and its name in 31 bytes of which the last is NUL. -/
def flashSlotRecord (slot : FlashSlot) : List UInt8 :=
  let name := (slot.name.getD []).take 30
  UInt8.ofNat (slot.romType % 256) :: (name ++ List.replicate (31 - name.length) 0)

/-! ### The back-channel -/

/-- The bytes of the RAM slot that is served, by their offsets. -/
abbrev Memory := ℕ → UInt8

/-- Where the data section is in the RAM slot, and how long it is. -/
structure BackChannel where
  start : ℕ
  dataSize : ℕ

/-- The memory with some bytes from an offset on. -/
def writeAt (mem : Memory) (start : ℕ) (bytes : List UInt8) : Memory := fun x =>
  if start ≤ x ∧ x < start + bytes.length then bytes.getD (x - start) 0 else mem x

/-- A write into the data section, clamped to it. `none` is an access past the end of the
buffer. -/
def dataWrite (cfg : BackChannel) (mem : Memory) (dataOffset : ℕ) (buf : List UInt8) (len : ℕ) :
    Option Memory :=
  if cfg.dataSize ≤ dataOffset then some mem
  else
    let len := if cfg.dataSize < dataOffset + len then cfg.dataSize - dataOffset else len
    if buf.length < len then none else some (writeAt mem (cfg.start + dataOffset) (buf.take len))

/-! ### The command -/

/-- How many records the preamble says are whole. The number is a byte. -/
def wholeCount (cfg : BackChannel) (s : FlashSlots) : ℕ :=
  let wholeCount := (cfg.dataSize - 4) / 32 % 256
  if s.slots.length < wholeCount then s.slots.length else wholeCount

def partialBytes (cfg : BackChannel) (s : FlashSlots) : ℕ :=
  cfg.dataSize - 4 - wholeCount cfg s * 32

/-- A partial record's last byte is NUL where it has a byte of the name. `none` is an access past
the end of the record. -/
def terminate (record : List UInt8) (bytes : ℕ) : Option (List UInt8) :=
  if 2 ≤ bytes then
    if bytes - 1 < record.length then some (record.set (bytes - 1) 0) else none
  else some record

/-- A slot's record as it is written: the one after the whole ones is partial. -/
def recordBytes (cfg : BackChannel) (s : FlashSlots) (i : ℕ) (slot : FlashSlot) :
    Option (List UInt8) :=
  if i = wholeCount cfg s then terminate (flashSlotRecord slot) (partialBytes cfg s)
  else some (flashSlotRecord slot)

/-- The records from `i` on. `false` is a slot that isn't there. -/
def emitRecords (cfg : BackChannel) (s : FlashSlots) :
    ℕ → ℕ → ℕ → Memory → Option (Bool × Memory)
  | 0, _, _, mem => some (true, mem)
  | n + 1, i, dataOff, mem =>
    match s.slots[i]? with
    | none => some (false, mem)
    | some slot => do
      let bytes := if i < wholeCount cfg s then 32 else partialBytes cfg s
      let record ← recordBytes cfg s i slot
      let mem ← dataWrite cfg mem dataOff record bytes
      emitRecords cfg s n (i + 1) (dataOff + bytes) mem

/-- What the command comes to, and the memory it leaves. `none` is an access outside a buffer. -/
def execGetFlashSlotInfoAll (cfg : BackChannel) (s : FlashSlots) (mem : Memory) :
    Option (Bool × Memory) :=
  if cfg.dataSize < 4 then
    (dataWrite cfg mem 0 [s.total, 0, 0, 0] cfg.dataSize).map fun mem => (true, mem)
  else do
    let whole := wholeCount cfg s
    let partialFlag := if whole < s.slots.length ∧ 0 < partialBytes cfg s then 1 else 0
    let mem ← dataWrite cfg mem 0 [s.total, UInt8.ofNat whole, UInt8.ofNat partialFlag, 0] 4
    emitRecords cfg s (whole + partialFlag) 0 4 mem

/-! ### The answer -/

/-- As many whole records as there are slots, or room. -/
def wholeRecords (cfg : BackChannel) (s : FlashSlots) : ℕ :=
  min s.slots.length ((cfg.dataSize - 4) / 32)

/-- The first bytes of a record, with a NUL in place of the last one where that is one of the
name. -/
def truncated (record : List UInt8) (bytes : ℕ) : List UInt8 :=
  if bytes < 2 then record.take bytes else (record.take bytes).dropLast ++ [0]

/-- What there is room for of the next slot's record. -/
def partialRecord (cfg : BackChannel) (s : FlashSlots) : List UInt8 :=
  match s.slots[wholeRecords cfg s]? with
  | none => []
  | some slot => truncated (flashSlotRecord slot) (cfg.dataSize - 4 - wholeRecords cfg s * 32)

def response (cfg : BackChannel) (s : FlashSlots) : List UInt8 :=
  if cfg.dataSize < 4 then [s.total, 0, 0, 0].take cfg.dataSize
  else
    [s.total, UInt8.ofNat (wholeRecords cfg s), if partialRecord cfg s = [] then 0 else 1, 0] ++
      (s.slots.take (wholeRecords cfg s)).flatMap flashSlotRecord ++ partialRecord cfg s

/-- The command writes the answer at the start of the data section, and nothing else. Its partial
record is less than a whole one, and ends in a NUL where it has a byte of the name. -/
structure Answers (cfg : BackChannel) (s : FlashSlots) (mem : Memory) : Prop where
  short : (partialRecord cfg s).length < 32
  ended : 2 ≤ (partialRecord cfg s).length → (partialRecord cfg s).getLast? = some 0
  fits : (response cfg s).length ≤ cfg.dataSize
  exec : execGetFlashSlotInfoAll cfg s mem = some (true, writeAt mem cfg.start (response cfg s))

/-! ### Writes -/

section Writes

variable {cfg : BackChannel} {s : FlashSlots} {mem : Memory} {slot : FlashSlot}

@[simp] lemma length_flashSlotRecord (slot : FlashSlot) : (flashSlotRecord slot).length = 32 := by
  simp only [flashSlotRecord, List.length_cons, List.length_append, List.length_replicate,
    List.length_take]
  omega

@[simp] lemma writeAt_nil (mem : Memory) (start : ℕ) : writeAt mem start [] = mem := by
  funext x
  simp only [writeAt, List.length_nil, add_zero]
  rw [if_neg (by omega)]

/-- Bytes that follow others are written after them. -/
lemma writeAt_append (mem : Memory) (start : ℕ) (l r : List UInt8) :
    writeAt (writeAt mem start l) (start + l.length) r = writeAt mem start (l ++ r) := by
  funext x
  simp only [writeAt, List.length_append]
  by_cases hl : start ≤ x ∧ x < start + l.length
  · rw [if_neg (by omega), if_pos hl, if_pos (by omega), List.getD_append _ _ _ _ (by omega)]
  · by_cases hr : start + l.length ≤ x ∧ x < start + l.length + r.length
    · rw [if_pos hr, if_pos (by omega), List.getD_append_right _ _ _ _ (by omega)]
      congr 1
      omega
    · rw [if_neg hr, if_neg hl, if_neg (by omega)]

/-- A write that the section has room for is made. -/
lemma dataWrite_eq {off len : ℕ} {buf : List UInt8} (hroom : off + len ≤ cfg.dataSize)
    (hlen : 0 < len) (hbuf : len ≤ buf.length) :
    dataWrite cfg mem off buf len = some (writeAt mem (cfg.start + off) (buf.take len)) := by
  unfold dataWrite
  rw [if_neg (by omega)]
  dsimp only
  rw [if_neg (show ¬cfg.dataSize < off + len by omega), if_neg (by omega)]

lemma wholeCount_le (cfg : BackChannel) (s : FlashSlots) :
    wholeCount cfg s ≤ s.slots.length ∧ wholeCount cfg s * 32 ≤ cfg.dataSize - 4 := by
  unfold wholeCount
  dsimp only
  split_ifs <;> omega

/-- The whole records are written one after another. -/
lemma emitRecords_whole (hsize : 4 ≤ cfg.dataSize) (mem : Memory) {i n : ℕ} (m : ℕ)
    (h : i + n ≤ wholeCount cfg s) :
    emitRecords cfg s (n + m) i (4 + 32 * i) mem =
      emitRecords cfg s m (i + n) (4 + 32 * (i + n)) (writeAt mem (cfg.start + (4 + 32 * i))
        (((s.slots.drop i).take n).flatMap flashSlotRecord)) := by
  obtain ⟨hslots, hroom⟩ := wholeCount_le cfg s
  induction n generalizing i mem with
  | zero => simp
  | succ n ih =>
    have hi : i < s.slots.length := by omega
    have hafter : writeAt (writeAt mem (cfg.start + (4 + 32 * i)) (flashSlotRecord s.slots[i]))
        (cfg.start + (4 + 32 * (i + 1)))
        (((s.slots.drop (i + 1)).take n).flatMap flashSlotRecord) =
          writeAt mem (cfg.start + (4 + 32 * i))
            (((s.slots.drop i).take (n + 1)).flatMap flashSlotRecord) := by
      rw [List.drop_eq_getElem_cons hi, List.take_succ_cons, List.flatMap_cons, ← writeAt_append,
        length_flashSlotRecord, show cfg.start + (4 + 32 * i) + 32 =
          cfg.start + (4 + 32 * (i + 1)) by omega]
    rw [show n + 1 + m = (n + m) + 1 by omega, emitRecords, List.getElem?_eq_getElem hi]
    dsimp only
    rw [if_pos (by omega), recordBytes, if_neg (by omega), Option.bind_eq_bind, Option.bind_some,
      dataWrite_eq (by omega) (by decide) (by simp), Option.bind_eq_bind, Option.bind_some,
      List.take_of_length_le (by simp), show 4 + 32 * i + 32 = 4 + 32 * (i + 1) by omega,
      ih _ (by omega), hafter, show i + 1 + n = i + (n + 1) by omega]

lemma set_last {l : List UInt8} (h : l ≠ []) (b : UInt8) :
    l.set (l.length - 1) b = l.dropLast ++ [b] := by
  rcases List.eq_nil_or_concat l with rfl | ⟨init, last, rfl⟩
  · exact absurd rfl h
  · simp

/-- A record is truncated within its 32 bytes. -/
lemma terminate_eq (record : List UInt8) {bytes : ℕ} (h : bytes ≤ record.length) :
    ∃ record', terminate record bytes = some record' ∧ record'.length = record.length ∧
      record'.take bytes = truncated record bytes := by
  unfold terminate truncated
  by_cases hbytes : 2 ≤ bytes
  · rw [if_pos hbytes, if_pos (by omega), if_neg (by omega)]
    refine ⟨_, rfl, List.length_set, ?_⟩
    have hlen : (record.take bytes).length = bytes := by rw [List.length_take]; omega
    rw [List.take_set, ← set_last (List.ne_nil_of_length_pos (by omega)), hlen]
  · rw [if_neg hbytes, if_pos (by omega)]
    exact ⟨record, rfl, rfl, rfl⟩

lemma length_truncated (record : List UInt8) {bytes : ℕ} (h : bytes ≤ record.length) :
    (truncated record bytes).length = bytes := by
  unfold truncated
  split_ifs
  · rw [List.length_take]
    omega
  · rw [List.length_append, List.length_dropLast, List.length_take, List.length_singleton]
    omega

/-- The partial record, where its bytes are bytes of a record. -/
lemma emitRecords_partial (hsize : 4 ≤ cfg.dataSize)
    (hslot : s.slots[wholeCount cfg s]? = some slot) (hpos : 0 < partialBytes cfg s)
    (hle : partialBytes cfg s ≤ 32) :
    emitRecords cfg s 1 (wholeCount cfg s) (4 + 32 * wholeCount cfg s) mem =
      some (true, writeAt mem (cfg.start + (4 + 32 * wholeCount cfg s))
        (truncated (flashSlotRecord slot) (partialBytes cfg s))) := by
  have hroom := (wholeCount_le cfg s).2
  obtain ⟨record, hterminate, hlen, htake⟩ := terminate_eq (flashSlotRecord slot)
    (show partialBytes cfg s ≤ _ by simpa using hle)
  rw [length_flashSlotRecord] at hlen
  have hend : 4 + 32 * wholeCount cfg s + partialBytes cfg s = cfg.dataSize := by
    unfold partialBytes
    omega
  rw [emitRecords, hslot]
  dsimp only
  rw [if_neg (lt_irrefl _), recordBytes, if_pos rfl, hterminate, Option.bind_eq_bind,
    Option.bind_some, dataWrite_eq (by omega) hpos (by omega), Option.bind_eq_bind,
    Option.bind_some, htake]
  rfl

/-- A partial record that is longer than a record is terminated outside it. -/
lemma emitRecords_outside (hslot : s.slots[wholeCount cfg s]? = some slot)
    (hlt : 32 < partialBytes cfg s) (off : ℕ) :
    emitRecords cfg s 1 (wholeCount cfg s) off mem = none := by
  rw [emitRecords, hslot]
  dsimp only
  rw [recordBytes, if_pos rfl, terminate, if_pos (by omega),
    if_neg (by rw [length_flashSlotRecord]; omega), Option.bind_eq_bind, Option.bind_none]

end Writes

/-! ### The command's answer -/

section Answer

variable {cfg : BackChannel} {s : FlashSlots}

/-- The number of whole records fits the byte it is counted in, or all slots have one anyway. -/
lemma wholeCount_eq_iff (cfg : BackChannel) (s : FlashSlots) :
    wholeCount cfg s = wholeRecords cfg s ↔
      cfg.dataSize < 8196 ∨ s.slots.length ≤ (cfg.dataSize - 4) / 32 % 256 := by
  have hcount := s.count
  unfold wholeCount wholeRecords
  dsimp only
  split_ifs <;> omega

/-- The command up to the partial record. -/
lemma exec_eq (hsize : 4 ≤ cfg.dataSize) (mem : Memory) :
    execGetFlashSlotInfoAll cfg s mem =
      let partialFlag :=
        if wholeCount cfg s < s.slots.length ∧ 0 < partialBytes cfg s then 1 else 0
      emitRecords cfg s partialFlag (wholeCount cfg s) (4 + 32 * wholeCount cfg s)
        (writeAt mem cfg.start
          ([s.total, UInt8.ofNat (wholeCount cfg s), UInt8.ofNat partialFlag, 0] ++
            (s.slots.take (wholeCount cfg s)).flatMap flashSlotRecord)) := by
  unfold execGetFlashSlotInfoAll
  rw [if_neg (by omega)]
  dsimp only
  set partialFlag := if wholeCount cfg s < s.slots.length ∧ 0 < partialBytes cfg s then 1 else 0
  rw [dataWrite_eq (by omega) (by decide) (by simp), Option.bind_eq_bind, Option.bind_some]
  have hwhole := emitRecords_whole hsize (writeAt mem cfg.start [s.total,
    UInt8.ofNat (wholeCount cfg s), UInt8.ofNat partialFlag, 0]) partialFlag
    (show 0 + wholeCount cfg s ≤ wholeCount cfg s by omega)
  simp only [mul_zero, add_zero, zero_add, List.drop_zero] at hwhole
  rw [add_zero, List.take_of_length_le (by simp), hwhole, ← writeAt_append]
  rfl

/-- A write of the preamble's part that there is room for. -/
lemma exec_small (hsize : cfg.dataSize < 4) (mem : Memory) :
    execGetFlashSlotInfoAll cfg s mem = some (true, writeAt mem cfg.start (response cfg s)) := by
  unfold execGetFlashSlotInfoAll response
  rw [if_pos hsize, if_pos hsize]
  rcases Nat.eq_zero_or_pos cfg.dataSize with hzero | hpos
  · simp [hzero, dataWrite]
  · rw [dataWrite_eq (by omega) hpos (by simp; omega)]
    rfl

lemma length_wholeRecords (slots : List FlashSlot) :
    (slots.flatMap flashSlotRecord).length = 32 * slots.length := by
  induction slots with
  | nil => rfl
  | cons slot slots ih =>
    rw [List.flatMap_cons, List.length_append, ih, length_flashSlotRecord, List.length_cons]
    omega

lemma partialRecord_short (cfg : BackChannel) (s : FlashSlots) :
    (partialRecord cfg s).length < 32 ∧
      (2 ≤ (partialRecord cfg s).length → (partialRecord cfg s).getLast? = some 0) := by
  unfold partialRecord
  cases hslot : s.slots[wholeRecords cfg s]? with
  | none => simp
  | some slot =>
    have hlt := (List.getElem?_eq_some_iff.mp hslot).1
    have hrest : cfg.dataSize - 4 - wholeRecords cfg s * 32 < 32 := by
      unfold wholeRecords at hlt ⊢
      omega
    have hlen := length_truncated (flashSlotRecord slot)
      (show cfg.dataSize - 4 - wholeRecords cfg s * 32 ≤ _ by rw [length_flashSlotRecord]; omega)
    dsimp only
    refine ⟨by omega, fun h => ?_⟩
    rw [truncated, if_neg (by omega), List.getLast?_append]
    rfl

/-- The partial record is there where a slot and room for it are left over. -/
lemma partialRecord_cases (heq : wholeCount cfg s = wholeRecords cfg s) :
    (∃ slot, s.slots[wholeCount cfg s]? = some slot ∧ 0 < partialBytes cfg s ∧
      partialBytes cfg s < 32 ∧
      partialRecord cfg s = truncated (flashSlotRecord slot) (partialBytes cfg s)) ∨
    ¬(wholeCount cfg s < s.slots.length ∧ 0 < partialBytes cfg s) ∧ partialRecord cfg s = [] := by
  unfold partialRecord
  rw [← heq]
  by_cases hlt : wholeCount cfg s < s.slots.length
  · rw [List.getElem?_eq_getElem hlt]
    by_cases hpos : 0 < partialBytes cfg s
    · refine Or.inl ⟨_, rfl, hpos, ?_, rfl⟩
      unfold wholeRecords at heq
      unfold partialBytes
      omega
    · refine Or.inr ⟨fun h => hpos h.2, ?_⟩
      have hzero : cfg.dataSize - 4 - wholeCount cfg s * 32 = 0 := by
        unfold partialBytes at hpos
        omega
      dsimp only
      rw [hzero, truncated, if_pos (by decide), List.take_zero]
  · rw [List.getElem?_eq_none (by omega)]
    exact Or.inr ⟨fun h => hlt h.1, rfl⟩

/-- **The answer is well formed** exactly where the number of whole records fits the byte it is
counted in, or every slot has a whole record anyway. -/
theorem flashSlotInfoAll_iff (cfg : BackChannel) (s : FlashSlots) (mem : Memory) :
    Answers cfg s mem ↔
      cfg.dataSize < 8196 ∨ s.slots.length ≤ (cfg.dataSize - 4) / 32 % 256 := by
  have hcount := s.count
  obtain ⟨hshort, hended⟩ := partialRecord_short cfg s
  rcases Nat.lt_or_ge cfg.dataSize 4 with hsmall | hsize
  · refine iff_of_true ⟨hshort, hended, ?_, exec_small hsmall mem⟩ (by omega)
    unfold response
    rw [if_pos hsmall, List.length_take]
    omega
  rw [← wholeCount_eq_iff]
  constructor
  · -- otherwise slots are left over, and more than a record's bytes of room
    intro hanswers
    by_contra hne
    have hiff := (wholeCount_eq_iff cfg s).not.mp hne
    have hlt : wholeCount cfg s < s.slots.length := by
      unfold wholeCount
      dsimp only
      split_ifs <;> omega
    have hpart : 32 < partialBytes cfg s := by
      unfold partialBytes wholeCount
      dsimp only
      split_ifs <;> omega
    have hexec := hanswers.exec
    rw [exec_eq hsize, if_pos ⟨hlt, by omega⟩,
      emitRecords_outside (List.getElem?_eq_getElem hlt) hpart] at hexec
    cases hexec
  · intro heq
    obtain ⟨hle, hroom⟩ := wholeCount_le cfg s
    have hwhole : ((s.slots.take (wholeCount cfg s)).flatMap flashSlotRecord).length =
        32 * wholeCount cfg s := by
      rw [length_wholeRecords, List.length_take]
      omega
    rcases partialRecord_cases heq with ⟨slot, hslot, hpos, hlt, hpart⟩ | ⟨hnone, hpart⟩
    · have hlen := length_truncated (flashSlotRecord slot)
        (show partialBytes cfg s ≤ _ by rw [length_flashSlotRecord]; omega)
      have hne : partialRecord cfg s ≠ [] := by
        rw [hpart]
        exact List.ne_nil_of_length_pos (by omega)
      have hslots : wholeCount cfg s < s.slots.length := (List.getElem?_eq_some_iff.mp hslot).1
      have hend : partialBytes cfg s = cfg.dataSize - 4 - wholeCount cfg s * 32 := rfl
      have hresponse : response cfg s = [s.total, UInt8.ofNat (wholeCount cfg s), 1, 0] ++
          (s.slots.take (wholeCount cfg s)).flatMap flashSlotRecord ++
            truncated (flashSlotRecord slot) (partialBytes cfg s) := by
        rw [response, if_neg (by omega), if_neg hne, ← heq, hpart]
      refine ⟨hshort, hended, ?_, ?_⟩
      · rw [hresponse, List.length_append, List.length_append, hwhole, hlen]
        simp only [List.length_cons, List.length_nil]
        omega
      · have happend := writeAt_append mem cfg.start
          ([s.total, UInt8.ofNat (wholeCount cfg s), 1, 0] ++
            (s.slots.take (wholeCount cfg s)).flatMap flashSlotRecord)
          (truncated (flashSlotRecord slot) (partialBytes cfg s))
        rw [List.length_append, hwhole] at happend
        rw [exec_eq hsize, if_pos ⟨hslots, hpos⟩, emitRecords_partial hsize hslot hpos hlt.le,
          hresponse]
        exact congrArg (fun mem => some (true, mem)) happend
    · have hresponse : response cfg s = [s.total, UInt8.ofNat (wholeCount cfg s), 0, 0] ++
          (s.slots.take (wholeCount cfg s)).flatMap flashSlotRecord := by
        rw [response, if_neg (by omega), if_pos hpart, ← heq, hpart, List.append_nil]
      refine ⟨hshort, hended, ?_, ?_⟩
      · rw [hresponse, List.length_append, hwhole]
        simp only [List.length_cons, List.length_nil]
        omega
      · rw [exec_eq hsize, if_neg hnone, hresponse]
        rfl

/-- One slot, whose name is empty. -/
def oneSlot : FlashSlots := ⟨[⟨none, 0⟩], by decide⟩

/-- With room for 256 records none is whole, and the first is terminated outside its buffer. -/
theorem flashSlotInfoAll_overrun :
    execGetFlashSlotInfoAll ⟨0, 8196⟩ oneSlot (fun _ => 0) = none ∧
      ¬Answers ⟨0, 8196⟩ oneSlot (fun _ => 0) := by
  have hnone : execGetFlashSlotInfoAll ⟨0, 8196⟩ oneSlot (fun _ => 0) = none := rfl
  refine ⟨hnone, fun hanswers => ?_⟩
  rw [hanswers.exec] at hnone
  cases hnone

end Answer

end OneRom.FlashSlotInfo
