import OneRom.ImageFile
import OneRom.Placement

/-!
Texts of hex records: a byte's digits are read back as the byte, a text's lines as the lines that
were written, and a chunk placed after those before it extends the image by its bytes.
-/

namespace OneRom.HexLines

open OneRom.ChipTypes OneRom.HexFile OneRom.ImageFile OneRom.Placement OneRom.Scatter
  OneRom.SlotArg

/-! ### Digits -/

def isHexDigit (c : UInt8) : Bool := (hexVal c).isSome

/-- Each of the sixteen digits reads back as its own value. -/
lemma hexVal_HEX (v : Fin 16) : hexVal (HEX.get v) = some (UInt8.ofNat v) := by
  revert v
  decide

lemma hexVal_high (b : UInt8) : hexVal (HEX.get ⟨(b >>> 4).toNat, high_lt b⟩) = some (b >>> 4) := by
  rw [hexVal_HEX, UInt8.ofNat_toNat]

lemma hexVal_low (b : UInt8) :
    hexVal (HEX.get ⟨(b &&& 0xF).toNat, low_lt b⟩) = some (b &&& 0xF) := by
  rw [hexVal_HEX, UInt8.ofNat_toNat]

/-- A byte is its high digit over its low one. -/
lemma halves (b : UInt8) : (b >>> 4) <<< 4 ||| b &&& 0xF = b := by
  revert b
  decide +kernel

lemma decodeHexPairs_hexDigits (bytes : List UInt8) :
    decodeHexPairs (bytes.flatMap hexDigits) = some bytes := by
  induction bytes with
  | nil => rfl
  | cons b bytes ih =>
    rw [List.flatMap_cons, hexDigits, List.cons_append, List.cons_append, List.nil_append,
      decodeHexPairs, hexVal_high, hexVal_low, ih]
    simp [halves]

lemma isHexDigit_of_mem {c : UInt8} {bytes : List UInt8} (h : c ∈ bytes.flatMap hexDigits) :
    isHexDigit c := by
  obtain ⟨b, -, hc⟩ := List.mem_flatMap.mp h
  rcases List.mem_cons.mp hc with rfl | hc
  · rw [isHexDigit, hexVal_high]
    rfl
  · rw [List.mem_singleton.mp hc]
    rw [isHexDigit, hexVal_low]
    rfl

/-! ### Lines -/

/-- A record's line has no space in it. -/
def Solid (line : List UInt8) : Prop := ∀ c ∈ line, isAsciiWhitespace c = false

lemma not_isAsciiWhitespace {c : UInt8} (h : isHexDigit c) : isAsciiWhitespace c = false := by
  revert c
  decide +kernel

lemma solid_hexDigits (bytes : List UInt8) : Solid (bytes.flatMap hexDigits) := fun _ hc =>
  not_isAsciiWhitespace (isHexDigit_of_mem hc)

lemma Solid.cons {c : UInt8} {line : List UInt8} (hc : isAsciiWhitespace c = false)
    (h : Solid line) : Solid (c :: line) :=
  List.forall_mem_cons.mpr ⟨hc, h⟩

lemma dropWhile_solid {line : List UInt8} (h : Solid line) (rest : List UInt8) :
    (line ++ rest).dropWhile isAsciiWhitespace =
      line ++ if line = [] then rest.dropWhile isAsciiWhitespace else rest := by
  cases line with
  | nil => simp
  | cons c line =>
    rw [List.cons_append, List.dropWhile_cons_of_neg (by simp [h c List.mem_cons_self])]
    rfl

/-- Trimming takes a line's end off. -/
lemma trimAscii_solid {line : List UInt8} (h : Solid line) :
    trimAscii (line ++ [ascii '\r']) = line := by
  have hreverse : Solid line.reverse := fun c hc => h c (List.mem_reverse.mp hc)
  cases hline : line with
  | nil => rfl
  | cons c rest =>
    rw [← hline, trimAscii, dropWhile_solid h, if_neg (by simp [hline]), List.reverse_append,
      List.reverse_singleton, List.singleton_append,
      List.dropWhile_cons_of_pos (by decide), ← List.append_nil line.reverse,
      dropWhile_solid hreverse]
    simp

/-- The lines of a text written line by line, and the empty one after the last line's end. -/
lemma numberedLines_wire {lines : List (List UInt8)} (h : ∀ line ∈ lines, Solid line) :
    numberedLines (lines.flatMap (· ++ CRLF)) = (lines ++ [[]]).zipIdx 1 := by
  rw [numberedLines]
  congr 1
  induction lines with
  | nil => rfl
  | cons line lines ih =>
    obtain ⟨hline, hlines⟩ := List.forall_mem_cons.mp h
    have hsplit : ascii '\n' ∉ line ++ [ascii '\r'] := by
      rw [List.mem_append, not_or]
      exact ⟨fun hmem => absurd (hline _ hmem) (by decide), by decide⟩
    have hwire : (line :: lines).flatMap (· ++ CRLF) =
        (line ++ [ascii '\r']) ++ ascii '\n' :: lines.flatMap (· ++ CRLF) := by
      simp [CRLF]
    rw [hwire, List.splitOn_append_cons_self_of_not_mem hsplit, List.map_cons, trimAscii_solid hline,
      ih hlines]
    rfl

section Reads

variable {σ ε : Type} (read : σ → List (List UInt8 × ℕ) → Except ε σ)

/-- Reading lines takes a decoder from one state to another, whatever follows them. -/
def Reads (s : σ) (lines : List (List UInt8)) (s' : σ) : Prop :=
  (∀ line ∈ lines, Solid line) ∧ ∀ (rest : List (List UInt8)) (lineNo : ℕ),
    read s ((lines ++ rest).zipIdx lineNo) = read s' (rest.zipIdx (lineNo + lines.length))

variable {read}

lemma reads_nil (s : σ) : Reads read s [] s :=
  ⟨nofun, fun _ _ => rfl⟩

lemma Reads.append {s s' s'' : σ} {lines lines' : List (List UInt8)}
    (h : Reads read s lines s') (h' : Reads read s' lines' s'') :
    Reads read s (lines ++ lines') s'' := by
  refine ⟨List.forall_mem_append.mpr ⟨h.1, h'.1⟩, fun rest lineNo => ?_⟩
  rw [List.append_assoc, h.2, h'.2, List.length_append, Nat.add_assoc]

/-- The text of lines that lead to a state is read up to the empty line behind it. -/
lemma Reads.text {s s' : σ} {lines : List (List UInt8)} (h : Reads read s lines s') :
    read s (numberedLines (lines.flatMap (· ++ CRLF))) = read s' [([], 1 + lines.length)] := by
  rw [numberedLines_wire h.1, h.2, List.zipIdx_singleton]

end Reads

/-! ### Chunks -/

/-- A chunk behind the image has the offsets behind it. -/
lemma mapped_bytesAt (loadAddress : ℕ) (xs chunk : List UInt8) :
    inARow xs ++ mapped loadAddress (bytesAt (loadAddress + xs.length) chunk) =
      inARow (xs ++ chunk) := by
  rw [inARow, inARow, List.zipIdx_append, List.map_append, mapped, bytesAt, List.map_map]
  congr 1
  rw [List.zipIdx_eq_map_add (i := 0 + xs.length), List.map_map]
  refine List.map_congr_left fun p _ => ?_
  simp only [Function.comp_apply, Prod.swap, Prod.mk.injEq, and_true]
  omega

lemma inRange_bytesAt {loadAddress n : ℕ} {chunk : List UInt8}
    (hmax : n + chunk.length ≤ MAX_IMAGE_SIZE)
    (husize : loadAddress + n + chunk.length ≤ usizeMax + 1) :
    ∀ p ∈ bytesAt (loadAddress + n) chunk, InRange loadAddress p := by
  intro p hp
  obtain ⟨⟨byte, i⟩, hmem, rfl⟩ := List.mem_map.mp hp
  have hi : i < chunk.length := by simpa using List.snd_lt_of_mem_zipIdx hmem
  refine ⟨?_, ?_, ?_⟩ <;> dsimp only <;> omega

/-- A chunk that is placed behind the image extends it. -/
lemma place_next {loadAddress : ℕ} {xs chunk : List UInt8} (anyData : Bool) (hne : chunk ≠ [])
    (hmax : xs.length + chunk.length ≤ MAX_IMAGE_SIZE)
    (husize : loadAddress + xs.length + chunk.length ≤ usizeMax + 1) :
    (ofCells (inARow xs) anyData).place (loadAddress + xs.length) loadAddress chunk =
      .ok (ofCells (inARow (xs ++ chunk)) true) := by
  have hnodup (ys : List UInt8) : ((inARow ys).map Prod.fst).Nodup := by
    rw [map_fst_inARow]
    exact List.nodup_range
  have hempty : (bytesAt (loadAddress + xs.length) chunk).isEmpty = false := by
    simpa [bytesAt, List.isEmpty_eq_false_iff] using hne
  rw [place_ofCells, placeBytes_eq_ok loadAddress (hnodup xs), mapped_bytesAt, hempty]
  exact ⟨inRange_bytesAt hmax husize, hnodup _, by simp⟩

/-- A piece of an image that is placed behind what comes before it. -/
lemma place_piece {loadAddress offset n : ℕ} {data : List UInt8} (anyData : Bool) (hn : 0 < n)
    (hfits : offset + n ≤ data.length) (hmax : data.length ≤ MAX_IMAGE_SIZE)
    (hend : loadAddress + data.length ≤ 2 ^ 32) :
    (ofCells (inARow (data.take offset)) anyData).place (loadAddress + offset) loadAddress
        ((data.drop offset).take n) = .ok (ofCells (inARow (data.take (offset + n))) true) := by
  have hpiece : ((data.drop offset).take n).length = n := by
    rw [List.length_take, List.length_drop]
    omega
  have hbefore : (data.take offset).length = offset := by
    rw [List.length_take]
    omega
  have hne : (data.drop offset).take n ≠ [] := by
    rw [← List.length_pos_iff]
    omega
  have husize : loadAddress + (data.take offset).length + ((data.drop offset).take n).length ≤
      usizeMax + 1 := by
    rw [hbefore, hpiece, usizeMax]
    omega
  have hplace := place_next anyData hne (by omega) husize
  rwa [hbefore, ← List.take_add] at hplace

end OneRom.HexLines
