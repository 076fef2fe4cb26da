import OneRom.ImageFile
import OneRom.Scatter

/-!
What records make of an image, however they are ordered: the accumulator holds the bytes they
placed, each at its own offset, and refuses the first byte that has no offset of its own.
-/

namespace OneRom.Placement

open OneRom.Checks OneRom.ChipTypes OneRom.ImageFile OneRom.Scatter OneRom.SlotArg

/-- The bytes of one call to `place`, at their addresses. -/
def bytesAt (address : ℕ) (data : List UInt8) : List (ℕ × UInt8) :=
  data.zipIdx.map fun (byte, i) => (address + i, byte)

/-- Every byte that calls place, in their order. -/
def placements (calls : List (ℕ × List UInt8)) : List (ℕ × UInt8) :=
  calls.flatMap fun (address, data) => bytesAt address data

/-- Calls `place` for one record after another, up to the first that fails. -/
def placeAll (loadAddress : ℕ) (calls : List (ℕ × List UInt8)) :
    Except PlaceError ImageAccumulator :=
  calls.foldlM (fun acc (address, data) => acc.place address loadAddress data) .new

/-- The accumulator that holds some cells. -/
def ofCells (cells : List (ℕ × UInt8)) (anyData : Bool) : ImageAccumulator :=
  ⟨laidOut UNWRITTEN_BYTE cells, taken cells, anyData⟩

section Load

variable (loadAddress : ℕ)

/-- Bytes at the offsets that their addresses map to. -/
def mapped (ps : List (ℕ × UInt8)) : List (ℕ × UInt8) := ps.map fun p => (p.1 - loadAddress, p.2)

def InRange (p : ℕ × UInt8) : Prop :=
  loadAddress ≤ p.1 ∧ p.1 < loadAddress + MAX_IMAGE_SIZE ∧ p.1 ≤ usizeMax

def placeBytes (acc : ImageAccumulator) (ps : List (ℕ × UInt8)) :
    Except PlaceError ImageAccumulator :=
  ps.foldlM (fun acc p => acc.placeByte p.1 loadAddress p.2) acc

@[simp] lemma mapped_nil : mapped loadAddress [] = [] := rfl

@[simp] lemma mapped_cons (p : ℕ × UInt8) (ps : List (ℕ × UInt8)) :
    mapped loadAddress (p :: ps) = (p.1 - loadAddress, p.2) :: mapped loadAddress ps := rfl

@[simp] lemma mapped_append (ps qs : List (ℕ × UInt8)) :
    mapped loadAddress (ps ++ qs) = mapped loadAddress ps ++ mapped loadAddress qs :=
  List.map_append

@[simp] lemma placeBytes_nil (acc : ImageAccumulator) : placeBytes loadAddress acc [] = .ok acc := rfl

lemma placeBytes_cons (acc : ImageAccumulator) (p : ℕ × UInt8) (ps : List (ℕ × UInt8)) :
    placeBytes loadAddress acc (p :: ps) =
      (acc.placeByte p.1 loadAddress p.2).bind fun acc => placeBytes loadAddress acc ps :=
  rfl

/-! ### One byte -/

/-- A byte that has an offset of its own becomes one cell more. -/
lemma placeByte_ofCells {cells : List (ℕ × UInt8)} (anyData : Bool) {p : ℕ × UInt8}
    (hrange : InRange loadAddress p) (hfree : p.1 - loadAddress ∉ cells.map Prod.fst) :
    (ofCells cells anyData).placeByte p.1 loadAddress p.2 =
      .ok (ofCells (cells ++ [(p.1 - loadAddress, p.2)]) anyData) := by
  obtain ⟨hload, hmax, husize⟩ := hrange
  have hcell : cell? cells (p.1 - loadAddress) = none := cell?_eq_none.mpr hfree
  have hwritten : ((ofCells cells anyData).resize (p.1 - loadAddress + 1)).written.getD
      (p.1 - loadAddress) false = false := by
    rw [List.getD_eq_getElem?_getD, ImageAccumulator.resize, ofCells, getElem?_grown,
      getElem?_taken, hcell]
    split_ifs <;> rfl
  rw [ImageAccumulator.placeByte, if_neg (by omega), if_neg (by omega)]
  simp only [hwritten]
  rw [if_neg (by omega), if_neg (by simp)]
  rw [show ofCells (cells ++ [(p.1 - loadAddress, p.2)]) anyData = ⟨_, _, anyData⟩ by
    rw [ofCells, ← laidOut_snoc _ _ _ _ hcell, ← taken_snoc]]
  rfl

/-- A byte is refused that is out of range, or whose offset is taken. -/
lemma placeByte_refused {cells : List (ℕ × UInt8)} (anyData : Bool) {p : ℕ × UInt8}
    (h : ¬ (InRange loadAddress p ∧ p.1 - loadAddress ∉ cells.map Prod.fst)) :
    ∃ e, (ofCells cells anyData).placeByte p.1 loadAddress p.2 = .error e := by
  rw [ImageAccumulator.placeByte]
  split
  · exact ⟨_, rfl⟩
  next husize =>
  split
  · exact ⟨_, rfl⟩
  next hload =>
  dsimp only
  split
  · exact ⟨_, rfl⟩
  next hmax =>
  have htaken : p.1 - loadAddress ∈ cells.map Prod.fst := by
    by_contra hfree
    exact h ⟨⟨by omega, by omega, by omega⟩, hfree⟩
  have hextent : p.1 - loadAddress < extent cells := by
    obtain ⟨c, hc, heq⟩ := List.mem_map.mp htaken
    exact heq ▸ lt_extent hc
  rw [if_pos]
  · exact ⟨_, rfl⟩
  · rw [List.getD_eq_getElem?_getD, ImageAccumulator.resize, ofCells, getElem?_grown,
      length_taken, if_pos hextent, getElem?_taken, if_pos hextent, cell?_isSome.mpr htaken]
    rfl

/-! ### Many bytes -/

/-- The bytes that an accumulator takes, and what it holds after them. -/
lemma placeBytes_eq_ok {cells : List (ℕ × UInt8)} {anyData : Bool} {ps : List (ℕ × UInt8)}
    {acc : ImageAccumulator} (hcells : (cells.map Prod.fst).Nodup) :
    placeBytes loadAddress (ofCells cells anyData) ps = .ok acc ↔
      (∀ p ∈ ps, InRange loadAddress p) ∧
        ((cells ++ mapped loadAddress ps).map Prod.fst).Nodup ∧
        acc = ofCells (cells ++ mapped loadAddress ps) anyData := by
  induction ps generalizing cells with
  | nil => simp [hcells, eq_comm]
  | cons p ps ih =>
    rw [placeBytes_cons]
    by_cases h : InRange loadAddress p ∧ p.1 - loadAddress ∉ cells.map Prod.fst
    · obtain ⟨hrange, hfree⟩ := h
      have hsnoc : ((cells ++ [(p.1 - loadAddress, p.2)]).map Prod.fst).Nodup := by
        rw [List.map_append]
        exact hcells.append (List.nodup_singleton _) (by simpa using hfree)
      rw [placeByte_ofCells loadAddress anyData hrange hfree, Except.bind, ih hsnoc, mapped_cons,
        List.append_assoc, List.singleton_append, List.forall_mem_cons]
      simp [hrange]
    · obtain ⟨e, he⟩ := placeByte_refused loadAddress anyData h
      rw [he, Except.bind]
      refine iff_of_false nofun fun ⟨hrange, hnodup, _⟩ => h ⟨hrange p (by simp), fun hmem => ?_⟩
      rw [mapped_cons, List.map_append] at hnodup
      exact List.disjoint_of_nodup_append hnodup hmem (by simp)

/-! ### Records -/

lemma place_ofCells (cells : List (ℕ × UInt8)) (anyData : Bool) (address : ℕ)
    (data : List UInt8) :
    (ofCells cells anyData).place address loadAddress data =
      placeBytes loadAddress (ofCells cells (anyData || !(bytesAt address data).isEmpty))
        (bytesAt address data) := by
  rw [ImageAccumulator.place]
  split
  · next h =>
    subst h
    simp [bytesAt]
  · next h =>
    have hne : data.zipIdx.isEmpty = false := by simpa [List.isEmpty_eq_false_iff] using h
    rw [placeBytes, bytesAt, List.foldlM_map]
    simp [hne, ofCells]

lemma foldlM_place_eq_ok {cells : List (ℕ × UInt8)} {anyData : Bool}
    {calls : List (ℕ × List UInt8)} {acc : ImageAccumulator}
    (hcells : (cells.map Prod.fst).Nodup) :
    calls.foldlM (fun acc (address, data) => acc.place address loadAddress data)
        (ofCells cells anyData) = .ok acc ↔
      (∀ p ∈ placements calls, InRange loadAddress p) ∧
        ((cells ++ mapped loadAddress (placements calls)).map Prod.fst).Nodup ∧
        acc = ofCells (cells ++ mapped loadAddress (placements calls))
          (anyData || !(placements calls).isEmpty) := by
  induction calls generalizing cells anyData with
  | nil => simp [placements, hcells, eq_comm, pure, Except.pure]
  | cons call calls ih =>
    obtain ⟨address, data⟩ := call
    have hempty : (bytesAt address data ++ placements calls).isEmpty =
        ((bytesAt address data).isEmpty && (placements calls).isEmpty) := by
      cases bytesAt address data <;> rfl
    have hplacements : placements ((address, data) :: calls) =
        bytesAt address data ++ placements calls := List.flatMap_cons
    rw [List.foldlM_cons, bind_eq_ok, hplacements, mapped_append, ← List.append_assoc,
      hempty, Bool.not_and, ← Bool.or_assoc]
    simp only [place_ofCells, placeBytes_eq_ok loadAddress hcells]
    constructor
    · rintro ⟨mid, ⟨hrange, hnodup, rfl⟩, hrest⟩
      obtain ⟨hranges, hnodups, rfl⟩ := (ih hnodup).mp hrest
      refine ⟨fun p hp => ?_, hnodups, rfl⟩
      rcases List.mem_append.mp hp with hp | hp
      · exact hrange p hp
      · exact hranges p hp
    · rintro ⟨hrange, hnodup, rfl⟩
      have hfirst : ((cells ++ mapped loadAddress (bytesAt address data)).map Prod.fst).Nodup :=
        hnodup.sublist ((List.sublist_append_left _ _).map Prod.fst)
      refine ⟨_, ⟨fun p hp => hrange p (List.mem_append_left _ hp), hfirst, rfl⟩,
        (ih hfirst).mpr ⟨fun p hp => hrange p (List.mem_append_right _ hp), hnodup, rfl⟩⟩

/-- Records are placed if each of their bytes is in range at an offset of its own, and leave the
bytes at those offsets. -/
lemma placeAll_eq_ok {calls : List (ℕ × List UInt8)} {acc : ImageAccumulator} :
    placeAll loadAddress calls = .ok acc ↔
      (∀ p ∈ placements calls, InRange loadAddress p) ∧
        ((mapped loadAddress (placements calls)).map Prod.fst).Nodup ∧
        acc = ofCells (mapped loadAddress (placements calls)) (!(placements calls).isEmpty) := by
  have hnil : (([] : List (ℕ × UInt8)).map Prod.fst).Nodup := List.nodup_nil
  exact foldlM_place_eq_ok loadAddress hnil

/-! ### Any order -/

lemma placements_perm {calls calls' : List (ℕ × List UInt8)} (h : calls'.Perm calls) :
    (placements calls').Perm (placements calls) :=
  h.flatMap_right _

/-- In range, two bytes share an offset if they share an address. -/
lemma nodup_mapped {ps : List (ℕ × UInt8)} (hrange : ∀ p ∈ ps, InRange loadAddress p) :
    ((mapped loadAddress ps).map Prod.fst).Nodup ↔ (ps.map Prod.fst).Nodup := by
  have hmapped : (mapped loadAddress ps).map Prod.fst =
      (ps.map Prod.fst).map fun address => address - loadAddress := by
    rw [mapped, List.map_map, List.map_map]
    rfl
  rw [hmapped]
  refine ⟨List.Nodup.of_map _, List.Nodup.map_on fun a ha b hb heq => ?_⟩
  obtain ⟨p, hp, rfl⟩ := List.mem_map.mp ha
  obtain ⟨q, hq, rfl⟩ := List.mem_map.mp hb
  have hpload := (hrange p hp).1
  have hqload := (hrange q hq).1
  omega

/-- A list that repeats an address repeats one that an earlier element has. -/
lemma not_nodup_iff {ps : List (ℕ × UInt8)} :
    ¬ (ps.map Prod.fst).Nodup ↔
      ∃ (i : ℕ) (p : ℕ × UInt8), ps[i]? = some p ∧
        ∃ j < i, ∃ q : ℕ × UInt8, ps[j]? = some q ∧ q.1 = p.1 := by
  rw [List.nodup_iff_getElem?_ne_getElem?]
  constructor
  · intro h
    push Not at h
    obtain ⟨j, i, hji, hi, heq⟩ := h
    rw [List.length_map] at hi
    rw [List.getElem?_map, List.getElem?_map, List.getElem?_eq_getElem hi,
      List.getElem?_eq_getElem (by omega)] at heq
    exact ⟨i, ps[i], List.getElem?_eq_getElem hi, j, hji, ps[j], List.getElem?_eq_getElem _,
      Option.some_inj.mp heq⟩
  · rintro ⟨i, p, hp, j, hji, q, hq, heq⟩ hne
    have hi : i < ps.length := (List.getElem?_eq_some_iff.mp hp).1
    refine hne j i hji (by simpa using hi) ?_
    rw [List.getElem?_map, List.getElem?_map, hp, hq, Option.map_some, Option.map_some, heq]

/-- The image that calls leave has the bytes they place at their offsets, and blanks between them,
whatever order the calls come in; a call fails on a byte that is out of range or on an offset that
is taken. -/
theorem placeAll_scattered (calls : List (ℕ × List UInt8)) :
    ((∃ e, placeAll loadAddress calls = .error e) ↔
      ∃ (i : ℕ) (p : ℕ × UInt8), (placements calls)[i]? = some p ∧
        (p.1 < loadAddress ∨ loadAddress + MAX_IMAGE_SIZE ≤ p.1 ∨ usizeMax < p.1 ∨
          ∃ j < i, ∃ q : ℕ × UInt8, (placements calls)[j]? = some q ∧ q.1 = p.1)) ∧
    ∀ acc, placeAll loadAddress calls = .ok acc →
      (placements calls = [] → acc.image = []) ∧
      (placements calls ≠ [] →
        ∃ p ∈ placements calls, acc.image.length = 1 + (p.1 - loadAddress)) ∧
      (∀ p ∈ placements calls, acc.image[p.1 - loadAddress]? = some p.2 ∧
        ∀ q ∈ placements calls, q.1 - loadAddress = p.1 - loadAddress → q = p) ∧
      (∀ offset < acc.image.length, (∀ p ∈ placements calls, p.1 - loadAddress ≠ offset) →
        acc.image[offset]? = some UNWRITTEN_BYTE) ∧
      ∀ calls', calls'.Perm calls → placeAll loadAddress calls' = .ok acc := by
  refine ⟨?_, fun acc hacc => ?_⟩
  · have herror : (∃ e, placeAll loadAddress calls = .error e) ↔
        ¬ ∃ acc, placeAll loadAddress calls = .ok acc := by
      cases placeAll loadAddress calls <;> simp
    simp only [herror, placeAll_eq_ok]
    constructor
    · intro hnot
      by_cases hrange : ∀ p ∈ placements calls, InRange loadAddress p
      · have hdup : ¬ ((placements calls).map Prod.fst).Nodup := fun hnodup =>
          hnot ⟨_, hrange, (nodup_mapped loadAddress hrange).mpr hnodup, rfl⟩
        obtain ⟨i, p, hp, hq⟩ := not_nodup_iff.mp hdup
        exact ⟨i, p, hp, .inr (.inr (.inr hq))⟩
      · push Not at hrange
        obtain ⟨p, hmem, hout⟩ := hrange
        obtain ⟨i, hp⟩ := List.mem_iff_getElem?.mp hmem
        refine ⟨i, p, hp, ?_⟩
        rw [InRange] at hout
        omega
    · rintro ⟨i, p, hp, hfault⟩ ⟨acc, hrange, hnodup, -⟩
      obtain ⟨hload, hmax, husize⟩ := hrange p (List.mem_of_getElem? hp)
      rcases hfault with h | h | h | hq
      · omega
      · omega
      · omega
      · exact not_nodup_iff.mpr ⟨i, p, hp, hq⟩ ((nodup_mapped loadAddress hrange).mp hnodup)
  · obtain ⟨hrange, hnodup, rfl⟩ := (placeAll_eq_ok loadAddress).mp hacc
    refine ⟨fun hnil => ?_, fun hne => ?_, fun p hp => ⟨?_, fun q hq heq => ?_⟩,
      fun offset hlt hfree => ?_, fun calls' hperm => ?_⟩
    · rw [hnil]
      rfl
    · have hmapped : mapped loadAddress (placements calls) ≠ [] := by simpa [mapped] using hne
      obtain ⟨c, hc, hlast⟩ := exists_extent hmapped
      obtain ⟨p, hp, rfl⟩ := List.mem_map.mp hc
      exact ⟨p, hp, (length_laidOut _ _).trans hlast⟩
    · have hcell : (p.1 - loadAddress, p.2) ∈ mapped loadAddress (placements calls) :=
        List.mem_map_of_mem hp
      rw [ofCells, getElem?_laidOut, if_pos (lt_extent hcell), (cell?_eq_some hnodup).mpr hcell,
        Option.getD_some]
    · rw [mapped, List.map_map] at hnodup
      exact List.inj_on_of_nodup_map hnodup hq hp heq
    · have hnone : cell? (mapped loadAddress (placements calls)) offset = none := by
        rw [cell?_eq_none, mapped, List.map_map, List.mem_map]
        rintro ⟨p, hp, heq⟩
        exact hfree p hp heq
      rw [ofCells, length_laidOut] at hlt
      rw [ofCells, getElem?_laidOut, if_pos hlt, hnone, Option.getD_none]
    · have hps := placements_perm hperm
      have hcells : (mapped loadAddress (placements calls')).Perm
          (mapped loadAddress (placements calls)) := hps.map _
      rw [placeAll_eq_ok]
      refine ⟨fun p hp => hrange p (hps.subset hp), ?_, ?_⟩
      · exact (hcells.map Prod.fst).nodup_iff.mpr hnodup
      · rw [ofCells, ofCells, laidOut_perm _ hcells.symm hnodup, taken_perm hcells.symm hnodup,
          hps.isEmpty_eq]

end Load

theorem placeAll_scattered_gap :
    placeAll 0xE000 [(0xE002, [7]), (0xE000, [1])] = .ok ⟨[1, 0xFF, 7], [true, false, true], true⟩ ∧
      placeAll 0xE000 [(0xE000, [1]), (0xE002, [7])] =
        .ok ⟨[1, 0xFF, 7], [true, false, true], true⟩ := by
  have hplaced : placeAll 0xE000 [(0xE002, [7]), (0xE000, [1])] =
      .ok ⟨[1, 0xFF, 7], [true, false, true], true⟩ := rfl
  obtain ⟨-, -, -, -, hany⟩ := (placeAll_scattered 0xE000 _).2 _ hplaced
  exact ⟨hplaced, hany _ (List.Perm.swap _ _ _)⟩

/-- A byte whose address would pass the last one is refused, though it is at the offset after that
of the byte before it. -/
theorem placeAll_pastUsize :
    ¬ ∀ (loadAddress : ℕ) (calls : List (ℕ × List UInt8)),
      loadAddress ≤ usizeMax → (∀ call ∈ calls, call.1 ≤ usizeMax) →
      ((∃ e, placeAll loadAddress calls = .error e) ↔
        ∃ (i : ℕ) (p : ℕ × UInt8), (placements calls)[i]? = some p ∧
          (p.1 < loadAddress ∨ loadAddress + MAX_IMAGE_SIZE ≤ p.1 ∨
            ∃ j < i, ∃ q : ℕ × UInt8, (placements calls)[j]? = some q ∧ q.1 = p.1)) := by
  intro h
  have herror : placeAll usizeMax [(usizeMax, [1, 2])] =
      .error (.tooLarge usizeMax MAX_IMAGE_SIZE) := rfl
  have hplacements : placements [(usizeMax, [1, 2])] = [(usizeMax, 1), (usizeMax + 1, 2)] := rfl
  obtain ⟨i, p, hp, hfault⟩ := (h usizeMax [(usizeMax, [1, 2])] le_rfl (by simp)).mp ⟨_, herror⟩
  rw [hplacements] at hp hfault
  rcases i with _ | _ | i
  · obtain rfl : (usizeMax, 1) = p := Option.some_inj.mp hp
    rcases hfault with hload | hmax | ⟨j, hj, -⟩
    · exact absurd hload (lt_irrefl _)
    · exact absurd hmax (by decide)
    · omega
  · obtain rfl : (usizeMax + 1, 2) = p := Option.some_inj.mp hp
    rcases hfault with hload | hmax | ⟨j, hj, q, hq, heq⟩
    · exact absurd hload (by decide)
    · exact absurd hmax (by decide)
    · obtain rfl : j = 0 := by omega
      obtain rfl : (usizeMax, 1) = q := Option.some_inj.mp hq
      exact absurd heq (by decide)
  · exact absurd hp nofun

end OneRom.Placement
