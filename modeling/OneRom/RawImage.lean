import OneRom.ImageFile

/-!
A chip's image out of a file, in the buffer the caller hands over: when the file makes one, and
which bytes are served.
-/

namespace OneRom.RawImage

open OneRom.Checks OneRom.ChipTypes OneRom.ImageFile OneRom.SlotArg

inductive RawImageError
  | image (e : ImageError)
  | bufferTooSmall (expected actual : ℕ)
  deriving DecidableEq, Repr

section Image

variable (id : ℕ) (filename : String) (chipType : ChipType)

/-- `from_raw_rom_image` with its buffer: what is not served of the chip is left as it was. -/
def fromRawRomImageInto (dest : List UInt8) (source : Option (List UInt8))
    (sizeHandling : SizeHandling) (blankByte : UInt8) (location : Option Location)
    (transforms : List Transform) : Except RawImageError (Option (List UInt8)) := do
  transforms.forM fun t => (validate t).mapError fun e => .image (.transform filename e)
  match source with
  | none =>
    if chipType.chipFunction = .ram then .ok none else .error (.image (.missingFile id))
  | some source => do
    let located ← (locate filename location source).mapError .image
    let transformed ← (applyTransforms located transforms sizeHandling blankByte).mapError
      fun e => .image (.transform filename e)
    refuse (dest.length < chipType.sizeBytes) (.bufferTooSmall chipType.sizeBytes dest.length)
    let image ← (reconcile filename chipType transformed sizeHandling blankByte).mapError .image
    return some (image ++ dest.drop image.length)

end Image

/-! ### The steps -/

/-- The location lies in the file. -/
def Inside (location : Option Location) (source : List UInt8) : Prop :=
  ∀ loc, location = some loc → loc.start + loc.length ≤ source.length

/-- The bytes of the location, or of the file where it has none. -/
def cut (location : Option Location) (source : List UInt8) : List UInt8 :=
  match location with
  | none => source
  | some loc => (source.drop loc.start).take loc.length

/-- The length of an image can be reconciled with what is served. -/
def Fits (chipType : ChipType) (sizeHandling : SizeHandling) (source : Transformed) : Prop :=
  source.data.length = servedSize chipType ∧
      (sizeHandling = .none ∨ source.usedSizeHandling) ∨
    source.data.length < servedSize chipType ∧
      (sizeHandling = .pad ∨
        sizeHandling = .duplicate ∧ source.data.length ∣ servedSize chipType ∨
        sizeHandling = .none ∧ chipType.isPlugin) ∨
    servedSize chipType < source.data.length ∧ sizeHandling = .truncate

/-- Bytes cut short, repeated or followed by blanks to a size. -/
def fitted (size : ℕ) (sizeHandling : SizeHandling) (blankByte : UInt8) (data : List UInt8) :
    List UInt8 :=
  if size ≤ data.length then data.take size
  else if sizeHandling = .duplicate then (List.replicate (size / data.length) data).flatten
  else data ++ List.replicate (size - data.length) blankByte

lemma locate_eq_ok {filename : String} {location : Option Location} {source slice : List UInt8}
    (hsource : source.length ≤ usizeMax) :
    locate filename location source = .ok slice ↔
      Inside location source ∧ cut location source = slice := by
  cases location with
  | none => simp [locate, Inside, cut]
  | some loc =>
    have hinside : Inside (some loc) source ↔ loc.start + loc.length ≤ source.length := by
      simp [Inside]
    rw [hinside, locate]
    by_cases hfits : loc.start + loc.length ≤ source.length
    · rw [if_neg (by omega), if_neg (by omega)]
      simp [cut, hfits]
    · refine iff_of_false ?_ fun h => hfits h.1
      intro h
      split at h
      · cases h
      · rw [if_pos (by omega)] at h
        cases h

lemma validate_of_apply {t : Transform} {data : List UInt8} {sizeHandling : SizeHandling}
    {blankByte : UInt8} {transformed : Transformed}
    (h : apply t data sizeHandling blankByte = .ok transformed) : validate t = .ok () :=
  (seq_eq_ok.mp h).1

/-- Transforms that succeed are valid, so validating them first refuses no others. -/
lemma validate_of_applyTransforms {data : List UInt8} {transforms : List Transform}
    {sizeHandling : SizeHandling} {blankByte : UInt8} {transformed : Transformed}
    (h : applyTransforms data transforms sizeHandling blankByte = .ok transformed) :
    ∀ t ∈ transforms, validate t = .ok () := by
  unfold applyTransforms at h
  generalize (⟨data, false⟩ : Transformed) = current at h
  induction transforms generalizing current with
  | nil => nofun
  | cons t transforms ih =>
    rw [List.foldlM_cons] at h
    obtain ⟨next, hnext, hrest⟩ := bind_eq_ok.mp h
    obtain ⟨applied, happly, -⟩ := bind_eq_ok.mp hnext
    exact List.forall_mem_cons.mpr ⟨validate_of_apply happly, ih next hrest⟩

/-- A repetition is refused where the size is no multiple of the length, which no length above
zero is of none. -/
lemma dvd_of_duplicate {len size : ℕ} (h : len < size) :
    ¬ (len = 0 ∨ size % len ≠ 0) ↔ len ∣ size := by
  rw [Nat.dvd_iff_mod_eq_zero]
  constructor
  · intro hdiv
    by_contra hmod
    exact hdiv (.inr hmod)
  · rintro hmod (rfl | hne)
    · rw [Nat.mod_zero] at hmod
      omega
    · exact hne hmod

section Reconcile

variable {filename : String} {t : ChipType} {source : Transformed} {sizeHandling : SizeHandling}
  {blankByte : UInt8} {image : List UInt8}

lemma reconcile_equal (hlen : source.data.length = servedSize t) :
    reconcile filename t source sizeHandling blankByte = .ok image ↔
      Fits t sizeHandling source ∧
        fitted (servedSize t) sizeHandling blankByte source.data = image := by
  have hfits : Fits t sizeHandling source ↔ sizeHandling = .none ∨ source.usedSizeHandling := by
    simp [Fits, hlen]
  rw [hfits, fitted, if_pos hlen.ge, ← hlen, List.take_length, reconcile.eq_def]
  dsimp only
  rw [if_pos hlen]
  split <;> simp [*]

lemma reconcile_short (hlen : source.data.length < servedSize t) :
    reconcile filename t source sizeHandling blankByte = .ok image ↔
      Fits t sizeHandling source ∧
        fitted (servedSize t) sizeHandling blankByte source.data = image := by
  have hfits : Fits t sizeHandling source ↔ sizeHandling = .pad ∨
      sizeHandling = .duplicate ∧ source.data.length ∣ servedSize t ∨
      sizeHandling = .none ∧ t.isPlugin := by
    simp [Fits, hlen, hlen.ne, hlen.le]
  rw [hfits, fitted, if_neg hlen.not_ge, reconcile.eq_def]
  dsimp only
  rw [if_neg hlen.ne, if_pos hlen]
  cases sizeHandling with
  | none => by_cases hplugin : t.isPlugin <;> simp [hplugin]
  | duplicate =>
    have hdvd := dvd_of_duplicate hlen
    by_cases hdiv : source.data.length ∣ servedSize t
    · simp only [if_neg (hdvd.mpr hdiv)]
      simp [hdiv]
    · simp only [if_pos (not_not.mp (mt hdvd.mp hdiv))]
      simp [hdiv]
  | truncate => simp
  | pad => simp

lemma reconcile_long (hlen : servedSize t < source.data.length) :
    reconcile filename t source sizeHandling blankByte = .ok image ↔
      Fits t sizeHandling source ∧
        fitted (servedSize t) sizeHandling blankByte source.data = image := by
  have hfits : Fits t sizeHandling source ↔ sizeHandling = .truncate := by
    simp [Fits, hlen, hlen.ne', hlen.le]
  rw [hfits, fitted, if_pos hlen.le, reconcile.eq_def]
  dsimp only
  rw [if_neg hlen.ne', if_neg hlen.not_gt]
  by_cases htruncate : sizeHandling = .truncate
  · simp [htruncate]
  · rw [if_neg htruncate]
    split <;> simp [htruncate]

/-- An image is reconciled where it fits, and is fitted then. -/
lemma reconcile_eq_ok :
    reconcile filename t source sizeHandling blankByte = .ok image ↔
      Fits t sizeHandling source ∧
        fitted (servedSize t) sizeHandling blankByte source.data = image := by
  rcases Nat.lt_trichotomy source.data.length (servedSize t) with hlen | hlen | hlen
  · exact reconcile_short hlen
  · exact reconcile_equal hlen
  · exact reconcile_long hlen

end Reconcile

lemma length_fitted {t : ChipType} {sizeHandling : SizeHandling} {source : Transformed}
    (blankByte : UInt8) (h : Fits t sizeHandling source) :
    (fitted (servedSize t) sizeHandling blankByte source.data).length = servedSize t := by
  unfold fitted
  split
  · next hle => rw [List.length_take, Nat.min_eq_left hle]
  · next hlt =>
    split
    · next hduplicate =>
      have hdvd : source.data.length ∣ servedSize t := by
        rcases h with ⟨hlen, -⟩ | ⟨-, hpad | ⟨-, hdvd⟩ | ⟨hnone, -⟩⟩ | ⟨hlen, -⟩
        · omega
        · rw [hpad] at hduplicate
          cases hduplicate
        · exact hdvd
        · rw [hnone] at hduplicate
          cases hduplicate
        · omega
      simp [Nat.div_mul_cancel hdvd]
    · simp
      omega

lemma servedSize_le (t : ChipType) : servedSize t ≤ t.sizeBytes := by
  rw [servedSize]
  split
  · exact Nat.div_le_self _ _
  · exact le_rfl

/-! ### The image -/

section Into

variable {id : ℕ} {filename : String} {chipType : ChipType} {dest source : List UInt8}
  {sizeHandling : SizeHandling} {blankByte : UInt8} {location : Option Location}
  {transforms : List Transform}

/-- A file makes an image where each step does. -/
lemma fromRawRomImageInto_eq_ok {data : Option (List UInt8)} (hsource : source.length ≤ usizeMax)
    (hdest : dest.length = chipType.sizeBytes) :
    fromRawRomImageInto id filename chipType dest (some source) sizeHandling blankByte location
        transforms = .ok data ↔
      Inside location source ∧ ∃ transformed,
        applyTransforms (cut location source) transforms sizeHandling blankByte = .ok transformed ∧
        Fits chipType sizeHandling transformed ∧
        some (fitted (servedSize chipType) sizeHandling blankByte transformed.data ++
          dest.drop (servedSize chipType)) = data := by
  rw [fromRawRomImageInto, seq_eq_ok, forM_eq_ok]
  simp only [bind_eq_ok, mapError_eq_ok, locate_eq_ok hsource, reconcile_eq_ok, pure_eq_ok]
  constructor
  · rintro ⟨-, slice, ⟨hinside, rfl⟩, transformed, htransformed, _, -, image, ⟨hfits, rfl⟩,
      rfl⟩
    exact ⟨hinside, transformed, htransformed, hfits, by rw [length_fitted _ hfits]⟩
  · rintro ⟨hinside, transformed, htransformed, hfits, rfl⟩
    exact ⟨validate_of_applyTransforms htransformed, _, ⟨hinside, rfl⟩, transformed, htransformed,
      (), refuse_eq_ok.mpr (by omega), _, ⟨hfits, rfl⟩, by rw [length_fitted _ hfits]⟩

end Into

/-- In a buffer of the chip's size, the image that is made without one. -/
lemma fromRawRomImage_into (id : ℕ) (filename : String) (chipType : ChipType)
    (source : List UInt8) (sizeHandling : SizeHandling) (blankByte : UInt8)
    (location : Option Location) (transforms : List Transform) :
    fromRawRomImageInto id filename chipType (List.replicate chipType.sizeBytes 0) (some source)
        sizeHandling blankByte location transforms =
      (fromRawRomImage id filename chipType (some source) sizeHandling blankByte location
        transforms).mapError .image := by
  have hforM : (transforms.forM fun t => (validate t).mapError fun e =>
        RawImageError.image (.transform filename e)) =
      (transforms.forM fun t => (validate t).mapError (.transform filename)).mapError .image := by
    induction transforms with
    | nil => rfl
    | cons t transforms ih =>
      change ((validate t).mapError _ >>= fun _ => transforms.forM _) =
        ((validate t).mapError _ >>= fun _ => transforms.forM _).mapError _
      rw [ih]
      cases validate t <;> rfl
  rw [fromRawRomImageInto, fromRawRomImage, hforM]
  cases transforms.forM fun t => (validate t).mapError (ImageError.transform filename) with
  | error e => rfl
  | ok _ =>
    cases locate filename location source with
    | error e => simp [Except.mapError, bind, Except.bind]
    | ok slice =>
      cases happly : applyTransforms slice transforms sizeHandling blankByte with
      | error e => simp [happly, Except.mapError, bind, Except.bind]
      | ok transformed =>
        cases hreconcile : reconcile filename chipType transformed sizeHandling blankByte <;>
          simp [happly, hreconcile, Except.mapError, bind, Except.bind, refuse, pure,
            Except.pure]

/-- A file makes a chip's image where the location lies in it, the transforms succeed on what the
location holds, and the length they leave can be reconciled with what is served; what is served
then are these bytes, cut short, repeated or followed by blanks. -/
theorem fromRawRomImageInto_iff (id : ℕ) (filename : String) (chipType : ChipType)
    (dest source : List UInt8) (sizeHandling : SizeHandling) (blankByte : UInt8)
    (location : Option Location) (transforms : List Transform) (hsource : source.length ≤ usizeMax)
    (hdest : dest.length = chipType.sizeBytes) :
    ((∃ data, fromRawRomImageInto id filename chipType dest (some source) sizeHandling blankByte
        location transforms = .ok data) ↔
      Inside location source ∧ ∃ transformed,
        applyTransforms (cut location source) transforms sizeHandling blankByte = .ok transformed ∧
        Fits chipType sizeHandling transformed) ∧
    ∀ data, fromRawRomImageInto id filename chipType dest (some source) sizeHandling blankByte
        location transforms = .ok data →
      ∃ transformed bytes,
        applyTransforms (cut location source) transforms sizeHandling blankByte = .ok transformed ∧
        data = some bytes ∧ bytes.length = chipType.sizeBytes ∧
        bytes.take (servedSize chipType) =
          fitted (servedSize chipType) sizeHandling blankByte transformed.data := by
  simp only [fromRawRomImageInto_eq_ok hsource hdest]
  refine ⟨⟨?_, ?_⟩, ?_⟩
  · rintro ⟨data, hinside, transformed, htransformed, hfits, -⟩
    exact ⟨hinside, transformed, htransformed, hfits⟩
  · rintro ⟨hinside, transformed, htransformed, hfits⟩
    exact ⟨_, hinside, transformed, htransformed, hfits, rfl⟩
  · rintro data ⟨-, transformed, htransformed, hfits, rfl⟩
    have hlength := length_fitted blankByte hfits
    have hserved := servedSize_le chipType
    refine ⟨transformed, _, htransformed, rfl, ?_, ?_⟩
    · rw [List.length_append, hlength, List.length_drop]
      omega
    · rw [List.take_left' hlength]

theorem fromRawRomImageInto_iff_padded :
    ∃ data, fromRawRomImageInto 0 "basic.bin" .chip2704 (List.replicate 512 0) (some [1, 2, 3])
      .pad 0xAA none [.swapBytes] = .ok data :=
  (fromRawRomImageInto_iff 0 "basic.bin" .chip2704 (List.replicate 512 0) [1, 2, 3] .pad 0xAA none
    [.swapBytes] (by decide) List.length_replicate).1.mpr
    ⟨nofun, ⟨[2, 1, 0xAA, 3], true⟩, rfl, .inr (.inl ⟨by decide, .inl rfl⟩)⟩

end OneRom.RawImage
