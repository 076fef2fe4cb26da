import OneRom.ImageFile

/-!
Transforms as text: a list is written so that it reads back, and whatever reads as a list of
transforms is written so that it reads as the same list.
-/

namespace OneRom.TransformText

open OneRom.Checks OneRom.ImageFile OneRom.Signers OneRom.SlotArg

def DEFAULT_BYTES : ℕ := 1

/-- A number in decimal. -/
def decimal (n : ℕ) : Text := Nat.toDigits 10 n

/-- A transform by its first name. The lane width is left out where it is the default. -/
def fmt : Transform → Text
  | .swapBytes => "swap_bytes".toList
  | .deinterleave offset stride bytes =>
    if bytes = DEFAULT_BYTES then
      "deinterleave:".toList ++ decimal offset ++ '/' :: decimal stride
    else "deinterleave:".toList ++ decimal offset ++ '/' :: decimal stride ++ '/' :: decimal bytes

def formatTransformList (transforms : List Transform) : Text :=
  ['+'].intercalate (transforms.map fmt)

/-! ### Numbers -/

lemma isDigit_of_mem_decimal {n : ℕ} {c : Char} (h : c ∈ decimal n) : c.isDigit :=
  Nat.isDigit_of_mem_toDigits (by decide) (by decide) h

lemma toNat_of_isDigit {c : Char} (h : c.isDigit) : 48 ≤ c.toNat ∧ c.toNat ≤ 57 := by
  simp only [Char.isDigit, Bool.and_eq_true, decide_eq_true_eq, ge_iff_le,
    UInt32.le_iff_toNat_le] at h
  exact h

lemma digitValue_of_isDigit {c : Char} (h : c.isDigit) : digitValue 10 c = some (c.toNat - 48) := by
  have hlt : c.toNat - 48 < 10 := by
    have := (toNat_of_isDigit h).2
    omega
  rw [digitValue, if_pos h, Option.filter_some, decide_eq_true hlt, if_pos rfl]

lemma mapM_digitValue {text : Text} (h : ∀ c ∈ text, c.isDigit) :
    text.mapM (digitValue 10) = some (text.map fun c => c.toNat - 48) := by
  induction text with
  | nil => rfl
  | cons c text ih =>
    obtain ⟨hc, htext⟩ := List.forall_mem_cons.mp h
    rw [List.mapM_cons, digitValue_of_isDigit hc, ih htext]
    rfl

/-- A number in decimal reads back as itself. -/
lemma fromStrRadix_decimal {n max : ℕ} (h : n ≤ max) : fromStrRadix 10 max (decimal n) = some n := by
  have hsign : stripPrefix ['+'] (decimal n) = none := by
    rw [stripPrefix, if_neg]
    intro hstart
    exact absurd (isDigit_of_mem_decimal (hstart.subset (List.mem_singleton_self _))) (by decide)
  have hvalue : ((decimal n).map fun c => c.toNat - 48).foldl (fun n d => n * 10 + d) 0 = n := by
    rw [List.foldl_map]
    calc _ = Nat.ofDigitChars 10 (decimal n) 0 := by
          simp only [Nat.ofDigitChars_eq_foldl, Nat.mul_comm 10]
          rfl
      _ = n := Nat.ofDigitChars_ten_toDigits
  rw [fromStrRadix, hsign, Option.getD_none, mapM_digitValue fun c => isDigit_of_mem_decimal]
  have hne : (decimal n).map (fun c => c.toNat - 48) ≠ [] := by simp [decimal]
  simp only [Option.bind_eq_bind, Option.bind_some, hvalue]
  rw [if_pos ⟨hne, h⟩]

/-! ### Texts without spaces -/

lemma isWhitespace_of_isDigit {c : Char} (h : c.isDigit) : isWhitespace c = false := by
  obtain ⟨hlo, hhi⟩ := toNat_of_isDigit h
  simp [isWhitespace]
  omega

lemma dropWhile_of_solid {text : Text} (h : ∀ c ∈ text, isWhitespace c = false) :
    text.dropWhile isWhitespace = text := by
  cases text with
  | nil => rfl
  | cons c text => rw [List.dropWhile_cons_of_neg (by simp [h c List.mem_cons_self])]

lemma trim_of_solid {text : Text} (h : ∀ c ∈ text, isWhitespace c = false) : trim text = text := by
  rw [trim, dropWhile_of_solid h, dropWhile_of_solid fun c hc => h c (List.mem_reverse.mp hc),
    List.reverse_reverse]

/-! ### One transform -/

lemma validateDeinterleave_eq_ok {offset stride bytes : ℕ} :
    validateDeinterleave offset stride bytes = .ok () ↔
      validate (.deinterleave offset stride bytes) = .ok () := by
  simp only [validateDeinterleave, validate, seq_eq_ok, refuse_eq_ok]

lemma validate_deinterleave {offset stride bytes : ℕ}
    (h : validate (.deinterleave offset stride bytes) = .ok ()) :
    0 < bytes ∧ offset < stride ∧ bytes * stride ≤ usizeMax := by
  simp only [validate, seq_eq_ok, refuse_eq_ok] at h
  omega

lemma deinterleaveNumber_decimal (params : Text) {n : ℕ} (h : n ≤ usizeMax) (what : String) :
    deinterleaveNumber params (decimal n) what = .ok n := by
  rw [deinterleaveNumber, trim_of_solid fun c hc => isWhitespace_of_isDigit (isDigit_of_mem_decimal hc),
    fromStrRadix_decimal h]
  rfl

/-- A transform's parameters as they are written. -/
def fmtParams (offset stride bytes : ℕ) : Text :=
  if bytes = DEFAULT_BYTES then decimal offset ++ '/' :: decimal stride
  else decimal offset ++ '/' :: (decimal stride ++ '/' :: decimal bytes)

lemma fmt_deinterleave (offset stride bytes : ℕ) :
    fmt (.deinterleave offset stride bytes) =
      "deinterleave".toList ++ ':' :: fmtParams offset stride bytes := by
  have hname : "deinterleave:".toList = "deinterleave".toList ++ [':'] := by decide +kernel
  -- the equations of `fmt` hold literals, which are not to be evaluated
  unfold fmt fmtParams
  dsimp only
  rw [hname]
  split <;> simp only [List.append_assoc, List.cons_append, List.nil_append]

/-- Parameters are digits and slashes. -/
lemma mem_fmtParams {offset stride bytes : ℕ} {c : Char} (h : c ∈ fmtParams offset stride bytes) :
    c.isDigit ∨ c = '/' := by
  unfold fmtParams at h
  split at h
  · simp only [List.mem_append, List.mem_cons] at h
    rcases h with h | h | h
    · exact .inl (isDigit_of_mem_decimal h)
    · exact .inr h
    · exact .inl (isDigit_of_mem_decimal h)
  · simp only [List.mem_append, List.mem_cons] at h
    rcases h with h | h | h | h | h
    · exact .inl (isDigit_of_mem_decimal h)
    · exact .inr h
    · exact .inl (isDigit_of_mem_decimal h)
    · exact .inr h
    · exact .inl (isDigit_of_mem_decimal h)

lemma trim_fmtParams (offset stride bytes : ℕ) :
    trim (fmtParams offset stride bytes) = fmtParams offset stride bytes := by
  refine trim_of_solid fun c hc => ?_
  rcases mem_fmtParams hc with hdigit | rfl
  · exact isWhitespace_of_isDigit hdigit
  · decide

lemma splitOnce_append {sep : Char} {xs : Text} (h : sep ∉ xs) (ys : Text) :
    splitOnce sep (xs ++ sep :: ys) = some (xs, ys) := by
  have hxs : ∀ c ∈ xs, (c != sep) = true := fun c hc => bne_iff_ne.mpr fun heq => h (heq ▸ hc)
  rw [splitOnce, if_pos (by simp), List.takeWhile_append_of_pos hxs,
    List.dropWhile_append_of_pos hxs]
  simp

lemma slash_notMem_decimal (n : ℕ) : '/' ∉ decimal n := fun h =>
  absurd (isDigit_of_mem_decimal h) (by decide)

lemma deinterleaveOf_decimal (params : Text) {offset stride bytes : ℕ}
    (h : validate (.deinterleave offset stride bytes) = .ok ()) (text : Option Text)
    (hbytes : text = none ∧ bytes = DEFAULT_BYTES ∨ text = some (decimal bytes)) :
    deinterleaveOf params (decimal offset) (decimal stride) text =
      .ok (.deinterleave offset stride bytes) := by
  obtain ⟨hpos, hoffset, hgroup⟩ := validate_deinterleave h
  have hstride : stride ≤ usizeMax := (Nat.le_mul_of_pos_left stride hpos).trans hgroup
  have hwidth : bytes ≤ usizeMax := (Nat.le_mul_of_pos_right bytes (by omega)).trans hgroup
  have htrim : trim (decimal offset) = decimal offset :=
    trim_of_solid fun c hc => isWhitespace_of_isDigit (isDigit_of_mem_decimal hc)
  rw [deinterleaveOf, htrim, deinterleaveNumber_decimal params (by omega),
    deinterleaveNumber_decimal params hstride]
  rcases hbytes with ⟨rfl, rfl⟩ | rfl
  · change (validateDeinterleave offset stride DEFAULT_BYTES >>= fun _ => _) = _
    rw [validateDeinterleave_eq_ok.mpr h]
    rfl
  · change (deinterleaveNumber params (decimal bytes) "bytes" >>= fun bytes =>
      validateDeinterleave offset stride bytes >>= fun _ => _) = _
    rw [deinterleaveNumber_decimal params hwidth]
    change (validateDeinterleave offset stride bytes >>= fun _ => _) = _
    rw [validateDeinterleave_eq_ok.mpr h]
    rfl

lemma parseDeinterleave_fmtParams {offset stride bytes : ℕ}
    (h : validate (.deinterleave offset stride bytes) = .ok ()) :
    parseDeinterleave (fmtParams offset stride bytes) = .ok (.deinterleave offset stride bytes) := by
  have hlast (n : ℕ) : (decimal n).splitOn '/' = [decimal n] :=
    List.splitOn_eq_singleton (slash_notMem_decimal n)
  unfold parseDeinterleave
  by_cases hbytes : bytes = DEFAULT_BYTES
  · have hsplit : (fmtParams offset stride bytes).splitOn '/' =
        [decimal offset, decimal stride] := by
      rw [fmtParams, if_pos hbytes,
        List.splitOn_append_cons_self_of_not_mem (slash_notMem_decimal offset), hlast]
    rw [hsplit]
    exact deinterleaveOf_decimal _ h none (.inl ⟨rfl, hbytes⟩)
  · have hsplit : (fmtParams offset stride bytes).splitOn '/' =
        [decimal offset, decimal stride, decimal bytes] := by
      rw [fmtParams, if_neg hbytes,
        List.splitOn_append_cons_self_of_not_mem (slash_notMem_decimal offset),
        List.splitOn_append_cons_self_of_not_mem (slash_notMem_decimal stride), hlast]
    rw [hsplit]
    exact deinterleaveOf_decimal _ h (some (decimal bytes)) (.inr rfl)

/-- A transform reads back as it was written. -/
lemma transformFromStr_fmt {t : Transform} (h : validate t = .ok ()) :
    transformFromStr (fmt t) = .ok t := by
  cases t with
  | swapBytes => decide +kernel
  | deinterleave offset stride bytes =>
    have hcolon : ':' ∉ "deinterleave".toList := by decide
    have hname : String.ofList (trim "deinterleave".toList) = "deinterleave" := by decide +kernel
    rw [transformFromStr, fmt_deinterleave, splitOnce_append hcolon]
    dsimp only
    rw [trim_fmtParams, hname, if_neg (by decide), if_pos (by decide)]
    exact parseDeinterleave_fmtParams h

/-! ### Lists -/

/-- A written transform is not empty, and holds neither a space nor a plus sign. -/
lemma mem_fmt {t : Transform} {c : Char} (h : c ∈ fmt t) : isWhitespace c = false ∧ c ≠ '+' := by
  cases t with
  | swapBytes =>
    have hall : ("swap_bytes".toList.all fun c => !isWhitespace c && c != '+') = true := by
      decide +kernel
    simpa using List.all_eq_true.mp hall c h
  | deinterleave offset stride bytes =>
    have hall : ("deinterleave".toList.all fun c => !isWhitespace c && c != '+') = true := by
      decide +kernel
    rw [fmt_deinterleave, List.mem_append, List.mem_cons] at h
    rcases h with h | rfl | h
    · simpa using List.all_eq_true.mp hall c h
    · decide
    · rcases mem_fmtParams h with hdigit | rfl
      · refine ⟨isWhitespace_of_isDigit hdigit, ?_⟩
        rintro rfl
        exact absurd hdigit (by decide)
      · decide

lemma fmt_ne_nil (t : Transform) : fmt t ≠ [] := by
  cases t with
  | swapBytes => decide
  | deinterleave offset stride bytes =>
    rw [fmt_deinterleave]
    simp

lemma mapM_transformFromStr_fmt {ts : List Transform} (h : ∀ t ∈ ts, validate t = .ok ()) :
    (ts.map fmt).mapM transformFromStr = .ok ts := by
  induction ts with
  | nil => rfl
  | cons t ts ih =>
    obtain ⟨ht, hts⟩ := List.forall_mem_cons.mp h
    rw [List.map_cons, List.mapM_cons, transformFromStr_fmt ht, ih hts]
    rfl

lemma isWhitespace_of_mem_format {ts : List Transform} {c : Char}
    (h : c ∈ formatTransformList ts) : isWhitespace c = false := by
  induction ts with
  | nil => cases h
  | cons t ts ih =>
    cases ts with
    | nil => exact (mem_fmt (t := t) (by simpa [formatTransformList] using h)).1
    | cons u ts =>
      rw [formatTransformList, List.map_cons, List.intercalate_cons_of_ne_nil (by simp),
        List.append_assoc, List.mem_append, List.mem_append] at h
      rcases h with h | h | h
      · exact (mem_fmt h).1
      · rw [List.mem_singleton.mp h]
        decide
      · exact ih h

/-- A list reads back as it was written. -/
lemma parseTransformList_format {ts : List Transform} (h : ∀ t ∈ ts, validate t = .ok ()) :
    parseTransformList (formatTransformList ts) = .ok ts := by
  cases hts : ts with
  | nil => rfl
  | cons t us =>
    rw [← hts]
    have hplus : ∀ text ∈ ts.map fmt, '+' ∉ text := by
      intro text htext hmem
      obtain ⟨u, -, rfl⟩ := List.mem_map.mp htext
      exact (mem_fmt hmem).2 rfl
    have hsplit : (formatTransformList ts).splitOn '+' = ts.map fmt :=
      List.splitOn_intercalate '+' hplus (by simp [hts])
    have hne : formatTransformList ts ≠ [] := by
      intro hnil
      rw [hnil] at hsplit
      have hfirst : [[]] = fmt t :: us.map fmt := by simpa [hts] using hsplit
      exact fmt_ne_nil t (List.cons.inj hfirst).1.symm
    rw [parseTransformList, trim_of_solid fun c hc => isWhitespace_of_mem_format hc, if_neg hne,
      hsplit, mapM_transformFromStr_fmt h]

/-! ### What is read -/

lemma deinterleaveOf_valid {params offset stride : Text} {bytes : Option Text} {t : Transform}
    (h : deinterleaveOf params offset stride bytes = .ok t) : validate t = .ok () := by
  have hvalid {o s b : ℕ} (h : (do
      validateDeinterleave o s b
      pure (Transform.deinterleave o s b)) = Except.ok t) : validate t = .ok () := by
    obtain ⟨hcheck, ht⟩ := seq_eq_ok.mp h
    rw [← pure_eq_ok.mp ht]
    exact validateDeinterleave_eq_ok.mp hcheck
  unfold deinterleaveOf at h
  obtain ⟨o, -, h⟩ := bind_eq_ok.mp h
  obtain ⟨s, -, h⟩ := bind_eq_ok.mp h
  cases bytes with
  | none => exact hvalid h
  | some text =>
    obtain ⟨b, -, h⟩ := bind_eq_ok.mp h
    exact hvalid h

lemma parseDeinterleave_valid {params : Text} {t : Transform}
    (h : parseDeinterleave params = .ok t) : validate t = .ok () := by
  unfold parseDeinterleave at h
  split at h
  · exact deinterleaveOf_valid h
  · exact deinterleaveOf_valid h
  · cases h
  · cases h

/-- A transform that is read has parameters that it can have. -/
lemma transformFromStr_valid {text : Text} {t : Transform} (h : transformFromStr text = .ok t) :
    validate t = .ok () := by
  cases hsplit : splitOnce ':' text with
  | none =>
    rw [transformFromStr, hsplit] at h
    dsimp only at h
    split at h
    · cases h
      rfl
    · split at h <;> cases h
  | some pair =>
    rw [transformFromStr, hsplit] at h
    dsimp only at h
    split at h
    · cases h
    · split at h
      · exact parseDeinterleave_valid h
      · cases h

/-- What every call gives, the whole list has. -/
lemma forall_of_mapM {α β ε : Type} {f : α → Except ε β} {P : β → Prop} {l : List α} {r : List β}
    (h : l.mapM f = .ok r) (hf : ∀ x y, f x = .ok y → P y) : ∀ y ∈ r, P y := by
  have hall := mapM_eq_ok h
  clear h
  induction hall with
  | nil => nofun
  | cons hxy _ ih => exact List.forall_mem_cons.mpr ⟨hf _ _ hxy, ih⟩

lemma parseTransformList_valid {text : Text} {ts : List Transform}
    (h : parseTransformList text = .ok ts) : ∀ t ∈ ts, validate t = .ok () := by
  unfold parseTransformList at h
  split at h
  · cases h
    nofun
  · exact forall_of_mapM h fun _ _ => transformFromStr_valid

/-- Valid transforms read back as they were written; what reads as a list is valid, and is written
so that it reads as the same list. -/
theorem transformList_roundTrip :
    (∀ ts : List Transform, (∀ t ∈ ts, validate t = .ok ()) →
      parseTransformList (formatTransformList ts) = .ok ts) ∧
    ∀ (text : Text) (ts : List Transform), parseTransformList text = .ok ts →
      (∀ t ∈ ts, validate t = .ok ()) ∧
        parseTransformList (formatTransformList ts) = .ok ts :=
  ⟨fun _ h => parseTransformList_format h, fun _ _ h =>
    ⟨parseTransformList_valid h, parseTransformList_format (parseTransformList_valid h)⟩⟩

theorem transformList_roundTrip_respelt :
    parseTransformList " deint: 1 / 2/1 + swapbytes".toList = .ok [.deinterleave 1 2 1, .swapBytes] ∧
      parseTransformList (formatTransformList [.deinterleave 1 2 1, .swapBytes]) =
        .ok [.deinterleave 1 2 1, .swapBytes] := by
  have hread : parseTransformList " deint: 1 / 2/1 + swapbytes".toList =
      .ok [.deinterleave 1 2 1, .swapBytes] := by decide +kernel
  have hvalid := (transformList_roundTrip.2 _ _ hread).1
  exact ⟨hread, transformList_roundTrip.1 _ hvalid⟩

end OneRom.TransformText
