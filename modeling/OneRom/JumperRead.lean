import OneRom.BitLines
import OneRom.BootTrust

/-!
What boot makes of the image select pins. A read pin is pulled away from where its jumper would take
it, so with the levels steady its bit is set where its jumper is closed; `compact` then numbers the
read pins from bit 0 on.
-/

namespace OneRom.Boot

open OneRom.Fallible

variable {d : Device} {α β : Type} {P : ℕ → Prop} {E : State → Prop}

/-! ### The state while the pins are read -/

/-- The variant boot runs on, and the pins it has pulled. -/
structure Sound (d : Device) (P : ℕ → Prop) (s : State) : Prop where
  variant : s.runtime.rp235x = d.variant
  pulled : ∀ gpio up, .pull gpio up ∈ s.events → P gpio

lemma Sound.add {s : State} (h : Sound d P s) {e : Event}
    (he : ∀ gpio up, e = .pull gpio up → P gpio) : Sound d P (s.add e) := by
  refine ⟨h.variant, fun gpio up hmem => ?_⟩
  rcases List.mem_append.mp hmem with hmem | hmem
  · exact h.pulled gpio up hmem
  · exact he gpio up (List.mem_singleton.mp hmem).symm

lemma sound_frame : Frame d P (Sound d P) := by
  constructor
  case pull =>
    intro s gpio up hP h
    have hadd := h.add (e := .pull gpio up) fun gpio' up' heq => by cases heq; exact hP
    exact ⟨hadd.variant, hadd.pulled⟩
  case runtime => exact fun s runtime hvariant _ _ h => ⟨hvariant.trans h.variant, h.pulled⟩
  case unpull =>
    intro s gpio h
    have hadd := h.add (e := .unpull gpio) fun _ _ heq => nomatch heq
    exact ⟨hadd.variant, hadd.pulled⟩
  all_goals exact fun s _ h => h.add fun _ _ heq => nomatch heq

/-! ### Reading the metadata -/

/-- An invariant that reads keep and that fixes the variant. -/
structure Reading (d : Device) (I : State → Prop) : Prop where
  deref : ∀ s base, I s → I (s.add (.deref base (d.pointer base)))
  variant : ∀ s, I s → s.runtime.rp235x = d.variant

lemma sound_reading : Reading d (Sound d P) := ⟨sound_frame.deref, fun _ h => h.variant⟩

namespace Reading

variable {I : State → Prop} {Q : β → State → Prop}

lemma bind_getRuntime (hI : Reading d I) {f : Runtime → Firmware β}
    (h : ∀ runtime : Runtime, runtime.rp235x = d.variant → Triple I (f runtime) Q E) :
    Triple I (getRuntime >>= f) Q E := fun s hs => h _ (hI.variant s hs) s hs

lemma bind_header8 (hI : Reading d I) {offset : UInt32} {f : UInt8 → Firmware β}
    (h : Triple I (f (d.headerByte offset)) Q E) : Triple I (header8 d offset >>= f) Q E :=
  fun s hs => h _ (hI.deref s .METADATA hs)

lemma bind_header32 (hI : Reading d I) {offset : UInt32} {f : UInt32 → Firmware β}
    (h : Triple I (f (d.word (d.metadata + offset))) Q E) : Triple I (header32 d offset >>= f) Q E :=
  fun s hs => h _ (hI.deref s .METADATA hs)

lemma bind_hw8 (hI : Reading d I) {offset : UInt32} {f : UInt8 → Firmware β}
    (h : Triple I (f (d.hwByte offset)) Q E) : Triple I (hw8 d offset >>= f) Q E :=
  fun s hs => h _ (hI.deref _ .HW (hI.deref s .METADATA hs))

lemma bind_reservedSelPins (hI : Reading d I) {f : UInt8 → Firmware β}
    (hf : Triple I (f d.reservedSel) Q E) : Triple I (reservedSelPins d >>= f) Q E := by
  unfold reservedSelPins
  rw [Prog.bind_assoc]
  refine hI.bind_header32 ?_
  rw [Device.reservedSel] at hf
  split_ifs at hf ⊢
  · exact hI.bind_header8 hf
  · exact Triple.bind (Q := fun a s => a = 0 ∧ I s) (Triple.pure fun _ h => ⟨rfl, h⟩) fun a s h =>
      h.1 ▸ hf s h.2

end Reading

/-- A program that doesn't end boot keeps an invariant of boot's steps. -/
lemma Frame.framed {I : State → Prop} (hI : Frame d P I) {x : Firmware α}
    (hx : Framed d P False x) : Triple I x (fun _ => I) E :=
  (hx I hI).mono (fun _ h => h) (fun _ _ h => h) fun _ h => h.1.elim

lemma Frame.bind_framed {I : State → Prop} {Q : β → State → Prop} (hI : Frame d P I)
    {x : Firmware α} {f : α → Firmware β} (hx : Framed d P False x)
    (hf : ∀ a, Triple I (f a) Q E) : Triple I (x >>= f) Q E := (hI.framed hx).bind hf

/-! ### Bits -/

lemma testBit_bit64 {pin : UInt8} (hpin : pin.toNat < 64) (g : ℕ) :
    ((1 : UInt64) <<< pin.toUInt64).toNat.testBit g = decide (pin.toNat = g) := by
  have hmod : pin.toUInt64.toNat % 64 = pin.toNat := by
    rw [UInt8.toNat_toUInt64]
    exact Nat.mod_eq_of_lt hpin
  have hlt : 2 ^ pin.toNat < 2 ^ 64 := Nat.pow_lt_pow_right (by decide) hpin
  rw [UInt64.toNat_shiftLeft, hmod, UInt64.toNat_one, Nat.one_shiftLeft, Nat.mod_eq_of_lt hlt,
    Nat.testBit_two_pow]

lemma testBit_bit32 {ii : ℕ} (hii : ii < 32) (jj : ℕ) :
    ((1 : UInt32) <<< UInt32.ofNat ii).toNat.testBit jj = decide (ii = jj) := by
  have hmod : (UInt32.ofNat ii).toNat % 32 = ii := by
    rw [UInt32.toNat_ofNat_of_lt' (hii.trans (by decide))]
    exact Nat.mod_eq_of_lt hii
  have hlt : 2 ^ ii < 2 ^ 32 := Nat.pow_lt_pow_right (by decide) hii
  rw [UInt32.toNat_shiftLeft, hmod, UInt32.toNat_one, Nat.one_shiftLeft, Nat.mod_eq_of_lt hlt,
    Nat.testBit_two_pow]

/-- A bit of samples ORed together. -/
lemma testBit_foldl_or (f : ℕ → UInt64) (g : ℕ) (samples : List ℕ) (value : UInt64) :
    (samples.foldl (fun value ii => value ||| f ii) value).toNat.testBit g =
      (value.toNat.testBit g || samples.any fun ii => (f ii).toNat.testBit g) := by
  induction samples generalizing value with
  | nil => simp
  | cons ii samples ih =>
    rw [List.foldl_cons, ih, UInt64.toNat_or, Nat.testBit_or, List.any_cons, Bool.or_assoc]

/-! ### Setting up the pins -/

/-- Whether the firmware reads a select pin. -/
def Device.selRead (d : Device) (ii : ℕ) : Bool :=
  Boot.selRead { rp235x := d.variant } d.reservedSel ii (d.selPin ii)

/-- Where a select pin's jumper takes it. -/
def Device.jumperPull (d : Device) (ii : ℕ) : Bool := (d.hwByte 23).toNat.testBit ii

/-- The select pins that are read are GPIOs of their own. -/
def Device.SelApart (d : Device) : Prop :=
  ∀ ii < MAX_IMG_SEL_PINS, ∀ jj < MAX_IMG_SEL_PINS, d.selRead ii → d.selRead jj →
    d.selPin ii = d.selPin jj → ii = jj

lemma selRead_eq {runtime : Runtime} (h : runtime.rp235x = d.variant) (ii : ℕ) :
    Boot.selRead runtime d.reservedSel ii (d.hwByte (selPinOffset ii)) = d.selRead ii := by
  rw [Device.selRead, Boot.selRead, Boot.selRead, Runtime.maxGpios, Runtime.maxGpios, h]
  rfl

lemma selPin_lt {ii : ℕ} (h : d.selRead ii) : (d.selPin ii).toNat < 64 := by
  rw [Device.selRead, selRead, Bool.and_eq_true, decide_eq_true_eq, Runtime.maxGpios] at h
  have := h.1
  split_ifs at this <;> omega

/-- What `pins` has of the select pins set up, and where they are pulled. -/
structure Pulled (d : Device) (P : ℕ → Prop) (iis : List ℕ) (pins : SelPins) (s : State) : Prop where
  sound : Sound d P s
  num : pins.num = iis.countP d.selRead
  selMask : ∀ ii ∈ iis, d.selRead ii → pins.selMask.toNat.testBit (d.selPin ii).toNat
  flipBits : ∀ g, pins.flipBits.toNat.testBit g ↔
    ∃ ii ∈ iis, d.selRead ii ∧ (d.selPin ii).toNat = g ∧ d.jumperPull ii = false
  pulls : ∀ ii ∈ iis, d.selRead ii → s.pulls (d.selPin ii).toNat = some !d.jumperPull ii

lemma pulled_reading {iis : List ℕ} {pins : SelPins} : Reading d (Pulled d P iis pins) :=
  ⟨fun s base h => ⟨sound_frame.deref s base h.sound, h.num, h.selMask, h.flipBits, h.pulls⟩,
    fun _ h => h.sound.variant⟩

/-- One more pin set up. -/
lemma Pulled.snoc {iis : List ℕ} {pins : SelPins} {s : State} {ii : ℕ}
    (h : Pulled d P iis pins s) (hread : d.selRead ii)
    (hapart : ∀ jj ∈ iis, d.selRead jj → d.selPin jj ≠ d.selPin ii)
    (hP : P (d.selPin ii).toNat) (flipBits : UInt64)
    (hflip : flipBits = if d.jumperPull ii then pins.flipBits
      else pins.flipBits ||| (1 <<< (d.selPin ii).toUInt64)) :
    Pulled d P (iis ++ [ii])
      ⟨pins.num + 1, pins.selMask ||| (1 <<< (d.selPin ii).toUInt64), flipBits⟩
      { s.add (.pull (d.selPin ii).toNat !d.jumperPull ii) with
        pulls := Function.update s.pulls (d.selPin ii).toNat (some !d.jumperPull ii) } := by
  have hbit := testBit_bit64 (selPin_lt hread)
  have hother : ∀ jj ∈ iis, d.selRead jj → (d.selPin jj).toNat ≠ (d.selPin ii).toNat := by
    intro jj hjj hreadj heq
    exact hapart jj hjj hreadj (UInt8.toNat_inj.mp heq)
  refine ⟨sound_frame.pull s _ _ hP h.sound, ?_, fun jj hjj hreadj => ?_, fun g => ?_,
    fun jj hjj hreadj => ?_⟩
  · rw [List.countP_append, List.countP_singleton, if_pos hread, h.num]
  · rw [UInt64.toNat_or, Nat.testBit_or, hbit, Bool.or_eq_true, decide_eq_true_eq]
    rcases List.mem_append.mp hjj with hjj | hjj
    · exact .inl (h.selMask jj hjj hreadj)
    · exact .inr (by rw [List.mem_singleton.mp hjj])
  · subst hflip
    simp only [List.mem_append, List.mem_singleton]
    split_ifs with hpull
    · rw [h.flipBits]
      refine exists_congr fun jj => ⟨fun hjj => ⟨.inl hjj.1, hjj.2⟩, ?_⟩
      rintro ⟨hjj | rfl, hjj'⟩
      · exact ⟨hjj, hjj'⟩
      · exact absurd (hpull.symm.trans hjj'.2.2) (by decide)
    · rw [UInt64.toNat_or, Nat.testBit_or, hbit, Bool.or_eq_true, decide_eq_true_eq, h.flipBits]
      constructor
      · rintro (⟨jj, hjj, hjj'⟩ | rfl)
        · exact ⟨jj, .inl hjj, hjj'⟩
        · exact ⟨ii, .inr rfl, hread, rfl, Bool.not_eq_true _ ▸ hpull⟩
      · rintro ⟨jj, hjj | rfl, hjj'⟩
        · exact .inl ⟨jj, hjj, hjj'⟩
        · exact .inr hjj'.2.1
  · rcases List.mem_append.mp hjj with hjj | hjj
    · exact (Function.update_of_ne (hother jj hjj hreadj) _ _).trans (h.pulls jj hjj hreadj)
    · rw [List.mem_singleton.mp hjj]
      exact Function.update_self _ _ _

/-- A pin that isn't read is left alone. -/
lemma Pulled.skip {iis : List ℕ} {pins : SelPins} {s : State} {ii : ℕ}
    (h : Pulled d P iis pins s) (hread : ¬ d.selRead ii) : Pulled d P (iis ++ [ii]) pins s := by
  have hmem : ∀ jj, d.selRead jj → (jj ∈ iis ++ [ii] ↔ jj ∈ iis) := by
    intro jj hreadj
    rw [List.mem_append, List.mem_singleton, or_iff_left]
    rintro rfl
    exact hread hreadj
  refine ⟨h.sound, ?_, fun jj hjj hreadj => h.selMask jj ((hmem jj hreadj).mp hjj) hreadj,
    fun g => ?_, fun jj hjj hreadj => h.pulls jj ((hmem jj hreadj).mp hjj) hreadj⟩
  · rw [List.countP_append, List.countP_singleton, if_neg hread, h.num, Nat.add_zero]
  · rw [h.flipBits]
    exact exists_congr fun jj =>
      ⟨fun hjj => ⟨(hmem jj hjj.2.1).mpr hjj.1, hjj.2⟩,
        fun hjj => ⟨(hmem jj hjj.2.1).mp hjj.1, hjj.2⟩⟩

lemma setupSelPin_spec {iis : List ℕ} {pins : SelPins} {ii : ℕ}
    (hapart : d.selRead ii → ∀ jj ∈ iis, d.selRead jj → d.selPin jj ≠ d.selPin ii)
    (hP : d.selRead ii → P (d.selPin ii).toNat) :
    Triple (Pulled d P iis pins) (setupSelPin d d.reservedSel pins ii)
      (Pulled d P (iis ++ [ii])) E := by
  refine pulled_reading.bind_getRuntime fun runtime hvariant => pulled_reading.bind_hw8 ?_
  rw [selRead_eq hvariant]
  by_cases hread : d.selRead ii
  · rw [if_pos hread]
    refine pulled_reading.bind_hw8 (pulled_reading.bind_hw8 (pulled_reading.bind_hw8 ?_))
    intro s hs
    have hsnoc := hs.snoc hread (hapart hread) (hP hread)
    cases hpull : (d.hwByte 23).toNat.testBit ii with
    | true =>
      rw [Device.jumperPull, hpull] at hsnoc
      exact hsnoc _ rfl
    | false =>
      rw [Device.jumperPull, hpull] at hsnoc
      exact hsnoc _ rfl
  · rw [if_neg hread]
    exact Triple.pure fun s hs => hs.skip hread

lemma setupSelPins_spec (hapart : d.SelApart)
    (hP : ∀ ii < MAX_IMG_SEL_PINS, d.selRead ii → P (d.selPin ii).toNat) :
    Triple (Sound d P) (setupSelPins d d.reservedSel)
      (Pulled d P (List.range MAX_IMG_SEL_PINS)) E := by
  suffices hsuff : ∀ post pre pins, List.range MAX_IMG_SEL_PINS = pre ++ post →
      Triple (Pulled d P pre pins) (setupSelPinsFrom d d.reservedSel pins post)
        (Pulled d P (List.range MAX_IMG_SEL_PINS)) E by
    refine (hsuff _ [] {} rfl).mono (fun s hs => ?_) (fun _ _ h => h) fun _ h => h
    exact ⟨hs, rfl, by simp, by simp, by simp⟩
  intro post
  induction post with
  | nil =>
    intro pre pins hall
    rw [hall, List.append_nil]
    exact Triple.pure fun s hs => hs
  | cons ii post ih =>
    intro pre pins hall
    have hnodup := hall ▸ List.nodup_range (n := MAX_IMG_SEL_PINS)
    have hii : ii < MAX_IMG_SEL_PINS := List.mem_range.mp (by simp [hall])
    refine (setupSelPin_spec (fun hread jj hjj hreadj heq => ?_) (hP ii hii)).bind fun pins =>
      ih (pre ++ [ii]) pins (by simp [hall])
    have hjjlt : jj < MAX_IMG_SEL_PINS := List.mem_range.mp (by simp [hall, hjj])
    rw [hapart jj hjjlt ii hii hreadj hread heq] at hjj
    exact List.disjoint_of_nodup_append hnodup hjj List.mem_cons_self

/-! ### The value read -/

/-- The levels where a closed jumper takes its pin, and where an open one leaves it. -/
def Device.Steady (d : Device) (closed : ℕ → Bool) : Prop :=
  ∀ pulls sample, ∀ ii < MAX_IMG_SEL_PINS, d.selRead ii →
    (closed ii → (d.levels pulls sample).toNat.testBit (d.selPin ii).toNat = d.jumperPull ii) ∧
    (closed ii = false → ∀ up ∈ pulls (d.selPin ii).toNat,
      (d.levels pulls sample).toNat.testBit (d.selPin ii).toNat = up)

variable {closed : ℕ → Bool}

/-- A read pin's bit is set where its jumper is closed. -/
lemma Pulled.sample {pins : SelPins} {s : State} {ii : ℕ}
    (h : Pulled d P (List.range MAX_IMG_SEL_PINS) pins s) (hapart : d.SelApart)
    (hsteady : d.Steady closed) (hii : ii < MAX_IMG_SEL_PINS) (hread : d.selRead ii) (sample : ℕ) :
    (d.levels s.pulls sample ^^^ pins.flipBits).toNat.testBit (d.selPin ii).toNat = closed ii := by
  obtain ⟨hclosed, hopen⟩ := hsteady s.pulls sample ii hii hread
  have hpull := h.pulls ii (List.mem_range.mpr hii) hread
  have hflip : pins.flipBits.toNat.testBit (d.selPin ii).toNat = !d.jumperPull ii := by
    rw [Bool.eq_iff_iff, h.flipBits, Bool.not_eq_true']
    constructor
    · rintro ⟨jj, hjj, hreadj, heq, hjump⟩
      rwa [hapart ii hii jj (List.mem_range.mp hjj) hread hreadj (UInt8.toNat_inj.mp heq.symm)]
    · exact fun hjump => ⟨ii, List.mem_range.mpr hii, hread, rfl, hjump⟩
  rw [UInt64.toNat_xor, Nat.testBit_xor, hflip]
  cases hii : closed ii with
  | true =>
    rw [hclosed hii]
    cases d.jumperPull ii <;> rfl
  | false =>
    rw [hopen hii _ hpull]
    cases d.jumperPull ii <;> rfl

lemma getSelValue_spec {pins : SelPins} (hapart : d.SelApart) (hsteady : d.Steady closed) :
    Triple (Pulled d P (List.range MAX_IMG_SEL_PINS) pins) (getSelValue d pins)
      (fun gpioValue s => Sound d P s ∧ ∀ ii < MAX_IMG_SEL_PINS, d.selRead ii →
        gpioValue.toNat.testBit (d.selPin ii).toNat = closed ii) E := by
  intro s hs
  refine ⟨hs.sound, fun ii hii hread => ?_⟩
  rw [UInt64.toNat_and, Nat.testBit_and, hs.selMask ii (List.mem_range.mpr hii) hread,
    Bool.and_true, testBit_foldl_or]
  simp only [hs.sample hapart hsteady hii hread]
  cases closed ii with
  | true =>
    rw [Bool.or_eq_true, List.any_eq_true]
    exact .inr ⟨0, List.mem_range.mpr (by decide), rfl⟩
  | false => simp

/-- The value and the mask of the select pins gone through. -/
structure Numbered (d : Device) (closed : ℕ → Bool) (iis : List ℕ) (sel : UInt32 × UInt32) :
    Prop where
  value : ∀ jj, sel.1.toNat.testBit jj ↔ jj ∈ iis ∧ d.selRead jj ∧ closed jj
  mask : ∀ jj, sel.2.toNat.testBit jj ↔ jj ∈ iis ∧ d.selRead jj

lemma Numbered.snoc {iis : List ℕ} {sel : UInt32 × UInt32} {ii : ℕ} {gpio : Bool}
    (h : Numbered d closed iis sel) (hii : ii < 32) (hread : d.selRead ii)
    (hgpio : gpio = closed ii) :
    Numbered d closed (iis ++ [ii])
      (if gpio then sel.1 ||| (1 <<< UInt32.ofNat ii) else sel.1,
        sel.2 ||| (1 <<< UInt32.ofNat ii)) := by
  subst hgpio
  refine ⟨fun jj => ?_, fun jj => ?_⟩
  · rw [List.mem_append, List.mem_singleton]
    split_ifs with hclosed
    · rw [UInt32.toNat_or, Nat.testBit_or, testBit_bit32 hii, Bool.or_eq_true, decide_eq_true_eq,
        h.value]
      constructor
      · rintro (hjj | rfl)
        · exact ⟨.inl hjj.1, hjj.2⟩
        · exact ⟨.inr rfl, hread, hclosed⟩
      · rintro ⟨hjj | rfl, hjj'⟩
        · exact .inl ⟨hjj, hjj'⟩
        · exact .inr rfl
    · rw [h.value]
      refine ⟨fun hjj => ⟨.inl hjj.1, hjj.2⟩, ?_⟩
      rintro ⟨hjj | rfl, hjj'⟩
      · exact ⟨hjj, hjj'⟩
      · exact absurd hjj'.2 hclosed
  · rw [List.mem_append, List.mem_singleton, UInt32.toNat_or, Nat.testBit_or, testBit_bit32 hii,
      Bool.or_eq_true, decide_eq_true_eq, h.mask]
    constructor
    · rintro (hjj | rfl)
      · exact ⟨.inl hjj.1, hjj.2⟩
      · exact ⟨.inr rfl, hread⟩
    · rintro ⟨hjj | rfl, hjj'⟩
      · exact .inl ⟨hjj, hjj'⟩
      · exact .inr rfl

lemma Numbered.skip {iis : List ℕ} {sel : UInt32 × UInt32} {ii : ℕ}
    (h : Numbered d closed iis sel) (hread : ¬ d.selRead ii) :
    Numbered d closed (iis ++ [ii]) sel := by
  have hmem : ∀ jj, d.selRead jj → (jj ∈ iis ++ [ii] ↔ jj ∈ iis) := by
    intro jj hreadj
    rw [List.mem_append, List.mem_singleton, or_iff_left]
    rintro rfl
    exact hread hreadj
  refine ⟨fun jj => ?_, fun jj => ?_⟩
  · rw [h.value]
    exact ⟨fun hjj => ⟨(hmem jj hjj.2.1).mpr hjj.1, hjj.2⟩,
      fun hjj => ⟨(hmem jj hjj.2.1).mp hjj.1, hjj.2⟩⟩
  · rw [h.mask]
    exact ⟨fun hjj => ⟨(hmem jj hjj.2).mpr hjj.1, hjj.2⟩,
      fun hjj => ⟨(hmem jj hjj.2).mp hjj.1, hjj.2⟩⟩

lemma selBits_spec {I : State → Prop} (hI : Reading d I) {gpioValue : UInt64}
    (hgpio : ∀ ii < MAX_IMG_SEL_PINS, d.selRead ii →
      gpioValue.toNat.testBit (d.selPin ii).toNat = closed ii) :
    ∀ post pre sel, List.range MAX_IMG_SEL_PINS = pre ++ post → Numbered d closed pre sel →
      Triple I (selBits d d.reservedSel gpioValue sel post)
        (fun sel s => Numbered d closed (List.range MAX_IMG_SEL_PINS) sel ∧ I s) E := by
  intro post
  induction post with
  | nil =>
    intro pre sel hall hsel
    rw [hall, List.append_nil]
    exact Triple.pure fun s hs => ⟨hsel, hs⟩
  | cons ii post ih =>
    intro pre sel hall hsel
    have hii : ii < MAX_IMG_SEL_PINS := List.mem_range.mp (by simp [hall])
    refine hI.bind_getRuntime fun runtime hvariant => hI.bind_hw8 ?_
    dsimp only
    rw [selRead_eq hvariant]
    by_cases hread : d.selRead ii
    · rw [if_pos hread]
      exact ih (pre ++ [ii]) _ (by simp [hall])
        (hsel.snoc (hii.trans (by decide)) hread (hgpio ii hii hread))
    · rw [if_neg hread]
      exact ih (pre ++ [ii]) _ (by simp [hall]) (hsel.skip hread)

/-- What the select pins are read as. -/
lemma checkSelPins_spec (hapart : d.SelApart) (hsteady : d.Steady closed)
    (hP : ∀ ii < MAX_IMG_SEL_PINS, d.reservedSel.toNat.testBit ii = false →
      P (d.selPin ii).toNat) :
    Triple (Sound d P) (checkSelPins d)
      (fun sel s => Numbered d closed (List.range MAX_IMG_SEL_PINS) sel ∧ Sound d P s) E := by
  have hPread : ∀ ii < MAX_IMG_SEL_PINS, d.selRead ii → P (d.selPin ii).toNat := by
    intro ii hii hread
    rw [Device.selRead, selRead, Bool.and_eq_true, Bool.not_eq_true'] at hread
    exact hP ii hii hread.2
  refine sound_reading.bind_reservedSelPins ((setupSelPins_spec hapart hPread).bind fun pins => ?_)
  split_ifs with hnum
  · intro s hs
    have hnone : ∀ jj ∈ List.range MAX_IMG_SEL_PINS, ¬ d.selRead jj :=
      List.countP_eq_zero.mp (hs.num.symm.trans hnum)
    refine (sound_frame.bind_framed (framed_disableSelPins _) fun _ =>
      Triple.pure fun t ht => ⟨⟨fun jj => ?_, fun jj => ?_⟩, ht⟩ : Triple (Sound d P) _ _ E) s hs.sound
    · exact iff_of_false (by simp) fun hjj => hnone jj hjj.1 hjj.2.1
    · exact iff_of_false (by simp) fun hjj => hnone jj hjj.1 hjj.2
  · refine (getSelValue_spec hapart hsteady).bind fun gpioValue => ?_
    intro s hs
    refine (sound_frame.bind_framed (framed_disableSelPins _) fun _ => ?_ :
      Triple (Sound d P) _ _ E) s hs.1
    refine (selBits_spec sound_reading hs.2 _ [] _ rfl ⟨by simp, by simp⟩).bind fun sel => ?_
    exact fun t ht => ⟨ht.1, ht.2.variant, ht.2.pulled⟩

/-! ### Numbering the pins -/

lemma testBit_bit8 {bitPos p : ℕ} (hp : p < 8) :
    (UInt8.ofNat (2 ^ bitPos)).toNat.testBit p = decide (bitPos = p) := by
  rw [UInt8.toNat_ofNat', Nat.testBit_mod_two_pow, decide_eq_true hp, Bool.true_and,
    Nat.testBit_two_pow]

/-- A bit of the number is that of the pin it is for. -/
lemma testBit_compact {selPins selMask : UInt32} {p : ℕ} (hp : p < 8) :
    ∀ (iis : List ℕ) (romSel : UInt8) (bitPos : ℕ),
      (compact selPins selMask romSel bitPos iis).toNat.testBit p =
        (romSel.toNat.testBit p || (decide (bitPos ≤ p) &&
          (iis.filter selMask.toNat.testBit)[p - bitPos]?.any selPins.toNat.testBit))
  | [], romSel, bitPos => by simp [compact]
  | ii :: rest, romSel, bitPos => by
    rw [compact]
    by_cases hmask : selMask.toNat.testBit ii
    · rw [if_pos hmask, testBit_compact hp rest, List.filter_cons_of_pos hmask]
      have hstep : (if selPins.toNat.testBit ii then romSel ||| UInt8.ofNat (2 ^ bitPos)
          else romSel).toNat.testBit p =
          (romSel.toNat.testBit p || (decide (bitPos = p) && selPins.toNat.testBit ii)) := by
        split_ifs with hpin
        · rw [UInt8.toNat_or, Nat.testBit_or, testBit_bit8 hp, hpin, Bool.and_true]
        · rw [Bool.not_eq_true] at hpin
          rw [hpin, Bool.and_false, Bool.or_false]
      rw [hstep, Bool.or_assoc]
      congr 1
      rcases lt_trichotomy bitPos p with hlt | rfl | hgt
      · rw [decide_eq_false hlt.ne, Bool.false_and, Bool.false_or, decide_eq_true (by omega),
          decide_eq_true hlt.le, show p - bitPos = p - (bitPos + 1) + 1 by omega,
          List.getElem?_cons_succ]
      · simp
      · simp [hgt.ne', not_le.mpr hgt, not_le.mpr (hgt.trans (Nat.lt_succ_self _))]
    · rw [if_neg hmask, testBit_compact hp rest, List.filter_cons_of_neg hmask]

end OneRom.Boot
