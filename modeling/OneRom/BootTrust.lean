import OneRom.BootFrame

/-!
Boot rests on what `metadataValid` checked. Every pointer boot goes through is one of the metadata's
own, so where the checks hold each dereference is of a pointer that passed them. The shortcut for
turbo boot comes before the checks, and it is taken on a byte of the metadata itself: erased flash
takes it.
-/

namespace OneRom.Boot

open OneRom.Fallible

variable {d : Device} {α β : Type}

/-! ### What the metadata has to be -/

def Device.variant (d : Device) : UInt8 := if d.qfn60 then RP235XA else RP235XB

/-- The checks: every pointer there is to go through, the magic, and the running variant. -/
structure Checked (d : Device) : Prop where
  pointers : ∀ base, Usable (d.pointer base)
  magic : ∀ ii (h : ii < ONEROM_METADATA_MAGIC.length),
    d.headerByte (UInt32.ofNat ii) = ONEROM_METADATA_MAGIC[ii]
  variant : d.hwByte 4 = d.variant

/-- Every pointer gone through is the metadata's own, and passed the checks. -/
def Trusted (d : Device) (s : State) : Prop :=
  ∀ base ptr, .deref base ptr ∈ s.events → ptr = d.pointer base ∧ Checked d

def Untouched (s : State) : Prop := ∀ e ∈ s.events, ¬ e.AtPin

/-- Where the firmware starts. -/
def start : State := {}

/-- Boot trusts nothing it has not checked. -/
structure BootTrusts (d : Device) : Prop where
  valid : ∀ v s, (platformSpecificInit d >>= fun _ => metadataValid d) start = (.ok v, s) →
    v ≠ 0 → Checked d
  trusted : ∀ v s, (platformSpecificInit d >>= fun _ => metadataValid d) start = (.ok v, s) →
    v ≠ 0 → Trusted d (bootOn d s).2
  stopped : ¬ Checked d →
    (firmwareMain d start).1 = .error .bootloader ∧ Untouched (firmwareMain d start).2

/-! ### What the check finds -/

/-- A program that only reads: it ends with a value, the runtime information and the pins as they
were. -/
def Reads (x : Firmware α) (r : Runtime) (v : α) : Prop :=
  ∀ s, s.runtime = r → Untouched s → ∃ t, x s = (.ok v, t) ∧ t.runtime = r ∧ Untouched t

lemma Untouched.deref {s : State} (h : Untouched s) (base : Base) (ptr : UInt32) :
    Untouched (s.add (.deref base ptr)) := by
  intro e he
  rcases List.mem_append.mp he with he | he
  · exact h e he
  · rw [List.mem_singleton.mp he]
    exact fun h => h

namespace Reads

variable {r : Runtime}

lemma pure (v : α) : Reads (Pure.pure v : Firmware α) r v := fun s hr h => ⟨s, rfl, hr, h⟩

lemma bind {x : Firmware α} {f : α → Firmware β} {v : α} {w : β} (hx : Reads x r v)
    (hf : Reads (f v) r w) : Reads (x >>= f) r w := by
  intro s hr h
  obtain ⟨t, hrun, htr, ht⟩ := hx s hr h
  rw [Prog.bind_of_ok hrun]
  exact hf t htr ht

lemma getRuntime : Reads getRuntime r r := by
  rintro s rfl h
  exact ⟨s, rfl, rfl, h⟩

lemma header8 (offset : UInt32) : Reads (header8 d offset) r (d.headerByte offset) :=
  fun _ hr h => ⟨_, rfl, hr, h.deref .METADATA _⟩

lemma header32 (offset : UInt32) : Reads (header32 d offset) r (d.word (d.metadata + offset)) :=
  fun _ hr h => ⟨_, rfl, hr, h.deref .METADATA _⟩

lemma HW : Reads (HW d) r (d.pointer .HW) := header32 20
lemma FW : Reads (FW d) r (d.pointer .FW) := header32 24

lemma hw8 (offset : UInt32) : Reads (hw8 d offset) r (d.hwByte offset) :=
  fun _ hr h => ⟨_, rfl, hr, (h.deref .METADATA _).deref .HW _⟩

lemma hwRev : Reads (hwRev d) r (d.pointer .hwRev) :=
  fun _ hr h => ⟨_, rfl, hr, (h.deref .METADATA _).deref .HW _⟩

lemma LOG : Reads (LOG d) r ⟨⟩ := by
  refine bind getRuntime ?_
  split_ifs
  · exact bind (header8 31) (pure _)
  · exact pure _

end Reads

section Check

variable {r : Runtime}

/-- The bytes from `ii` on are the header's. -/
def Device.MagicAt (d : Device) (ii : UInt32) (bs : List UInt8) : Prop :=
  ∀ k (h : k < bs.length), d.headerByte (ii + UInt32.ofNat k) = bs[k]

lemma magicAt_cons {ii : UInt32} {b : UInt8} {bs : List UInt8} :
    d.MagicAt ii (b :: bs) ↔ d.headerByte ii = b ∧ d.MagicAt (ii + 1) bs := by
  have hzero : ii + UInt32.ofNat 0 = ii := UInt32.add_zero ii
  have hnext : ∀ k, ii + UInt32.ofNat (k + 1) = ii + 1 + UInt32.ofNat k := by
    intro k
    rw [UInt32.ofNat_add, UInt32.add_assoc, UInt32.add_comm (UInt32.ofNat k)]
    rfl
  constructor
  · intro h
    have h0 := h 0 (Nat.succ_pos _)
    rw [hzero] at h0
    refine ⟨h0, fun k hk => ?_⟩
    rw [← hnext]
    exact h (k + 1) (Nat.succ_lt_succ hk)
  · rintro ⟨hb, hbs⟩ k hk
    cases k with
    | zero => rwa [hzero]
    | succ k =>
      rw [hnext]
      exact hbs k (Nat.lt_of_succ_lt_succ hk)

lemma reads_checkMagic : ∀ (bs : List UInt8) (ii : UInt32),
    ∃ ok, Reads (checkMagic d ii bs) r ok ∧ (ok = true ↔ d.MagicAt ii bs)
  | [], _ => ⟨true, .pure _, by simp [Device.MagicAt]⟩
  | b :: bs, ii => by
    obtain ⟨ok, hrun, hok⟩ := reads_checkMagic bs (ii + 1)
    by_cases hb : d.headerByte ii = b
    · exact ⟨ok, .bind (.header8 ii) (by rwa [if_neg (not_not.mpr hb)]), by
        rw [magicAt_cons, hok, and_iff_right hb]⟩
    · refine ⟨false, .bind (.header8 ii) (by rw [if_pos hb]; exact .pure _), ?_⟩
      rw [magicAt_cons]
      simp [hb]

lemma reads_checkHardware : ∃ v, Reads (checkHardware d) r v ∧
    (v ≠ 0 ↔ Usable (d.pointer .hwRev) ∧ d.hwByte 4 = r.rp235x) := by
  by_cases hrev : Usable (d.pointer .hwRev)
  · by_cases hvariant : d.hwByte 4 = r.rp235x
    · refine ⟨1, .bind .hwRev ?_, by simp [hrev, hvariant]⟩
      rw [if_neg (not_not.mpr hrev)]
      refine .bind .LOG (.bind (.hw8 4) (.bind .getRuntime ?_))
      rw [if_neg (not_not.mpr hvariant)]
      exact .bind .LOG (.pure _)
    · refine ⟨0, .bind .hwRev ?_, by simp [hvariant]⟩
      rw [if_neg (not_not.mpr hrev)]
      refine .bind .LOG (.bind (.hw8 4) (.bind .getRuntime ?_))
      rw [if_pos hvariant]
      exact .bind (.hw8 4) (.pure _)
  · refine ⟨0, .bind .hwRev ?_, by simp [hrev]⟩
    rw [if_pos hrev]
    exact .pure _

lemma reads_checkPointers : ∃ v, Reads (checkPointers d) r v ∧
    (v ≠ 0 ↔ Usable (d.pointer .HW) ∧ Usable (d.pointer .FW) ∧ Usable (d.pointer .hwRev) ∧
      d.hwByte 4 = r.rp235x) := by
  by_cases hhw : Usable (d.pointer .HW)
  · by_cases hfw : Usable (d.pointer .FW)
    · obtain ⟨v, hrun, hv⟩ := reads_checkHardware (d := d) (r := r)
      refine ⟨v, .bind .HW ?_, by rw [hv, and_iff_right hhw, and_iff_right hfw]⟩
      rw [if_neg (not_not.mpr hhw)]
      refine .bind .FW ?_
      rwa [if_neg (not_not.mpr hfw)]
    · refine ⟨0, .bind .HW ?_, by simp [hfw]⟩
      rw [if_neg (not_not.mpr hhw)]
      refine .bind .FW ?_
      rw [if_pos hfw]
      exact .pure _
  · refine ⟨0, .bind .HW ?_, by simp [hhw]⟩
    rw [if_pos hhw]
    exact .pure _

/-- The check accepts what turbo boot is set in, and what passes it. -/
lemma reads_metadataValid (hr : r.rp235x = d.variant) : ∃ v, Reads (metadataValid d) r v ∧
    (v ≠ 0 ↔ Usable d.metadata ∧ (d.headerByte 31 ≠ 0 ∨ Checked d)) := by
  have hchecked : Usable d.metadata → (Checked d ↔ d.MagicAt 0 ONEROM_METADATA_MAGIC ∧
      Usable (d.pointer .HW) ∧ Usable (d.pointer .FW) ∧ Usable (d.pointer .hwRev) ∧
      d.hwByte 4 = r.rp235x) := by
    intro hmetadata
    constructor
    · intro h
      exact ⟨fun k hk => by rw [UInt32.zero_add]; exact h.magic k hk, h.pointers .HW,
        h.pointers .FW, h.pointers .hwRev, by rw [hr]; exact h.variant⟩
    · rintro ⟨hmagic, hhw, hfw, hrev, hvariant⟩
      refine ⟨fun base => ?_, fun k hk => ?_, by rw [hvariant, hr]⟩
      · cases base
        exacts [hmetadata, hhw, hfw, hrev]
      · simpa using hmagic k hk
  unfold metadataValid
  by_cases hmetadata : Usable d.metadata
  · simp only [if_neg (not_not.mpr hmetadata)]
    rw [hchecked hmetadata]
    by_cases hturbo : d.headerByte 31 = 0
    · obtain ⟨ok, hmagic, hok⟩ := reads_checkMagic (d := d) (r := r) ONEROM_METADATA_MAGIC 0
      obtain ⟨v, hrun, hv⟩ := reads_checkPointers (d := d) (r := r)
      cases ok with
      | true =>
        refine ⟨v, .bind (.header8 31) ?_, ?_⟩
        · rw [if_neg (not_not.mpr hturbo)]
          exact .bind hmagic (by simpa using hrun)
        · simp [hmetadata, hturbo, ← hok, hv]
      | false =>
        refine ⟨0, .bind (.header8 31) ?_, ?_⟩
        · rw [if_neg (not_not.mpr hturbo)]
          exact .bind hmagic (by simpa using .pure _)
        · simp [hmetadata, hturbo, ← hok]
    · refine ⟨1, .bind (.header8 31) ?_, by simp [hmetadata, hturbo]⟩
      rw [if_pos hturbo]
      exact .pure _
  · refine ⟨0, ?_, by simp [hmetadata]⟩
    rw [if_pos hmetadata]
    exact .pure _

end Check

/-! ### Boot -/

section Main

variable {P : ℕ → Prop} {halts : Prop}

lemma framed_checkMagic : ∀ (bs : List UInt8) (ii : UInt32), Framed d P halts (checkMagic d ii bs)
  | [], _ => .pure _
  | _ :: bs, ii => .bind (.header8 _) fun _ =>
      .ite (fun _ => .pure _) fun _ => framed_checkMagic bs (ii + 1)

lemma framed_checkHardware : Framed d P halts (checkHardware d) := by
  refine .bind .hwRev fun _ => .ite (fun _ => .pure _) fun _ => .bind .LOG fun _ =>
    .bind (.hw8 _) fun _ => .bind .getRuntime fun _ => ?_
  exact .ite (fun _ => .bind (.hw8 _) fun _ => .pure _) fun _ => .bind .LOG fun _ => .pure _

lemma framed_metadataValid : Framed d P halts (metadataValid d) := by
  refine .ite (fun _ => .pure _) fun _ => .bind .TURBO fun _ => .ite (fun _ => .pure _) fun _ =>
    .bind (framed_checkMagic _ _) fun _ => .ite (fun _ => ?_) fun _ => .pure _
  refine .bind (.header32 _) fun _ => .ite (fun _ => .pure _) fun _ => .bind (.header32 _) ?_
  exact fun _ => .ite (fun _ => .pure _) fun _ => framed_checkHardware

lemma trusted_frame (h : Checked d) : Frame d (fun _ => True) (Trusted d) := by
  have hadd : ∀ (s : State) (e : Event), (∀ base ptr, e ≠ .deref base ptr) →
      Trusted d s → Trusted d (s.add e) := by
    intro s e hother hs base ptr hmem
    rcases List.mem_append.mp hmem with hmem | hmem
    · exact hs base ptr hmem
    · exact absurd (List.mem_singleton.mp hmem).symm (hother base ptr)
  constructor
  case deref =>
    intro s base hs base' ptr hmem
    rcases List.mem_append.mp hmem with hmem | hmem
    · exact hs base' ptr hmem
    · obtain ⟨rfl, rfl⟩ := Event.deref.inj (List.mem_singleton.mp hmem)
      exact ⟨rfl, h⟩
  case runtime => exact fun _ _ _ _ _ hs => hs
  all_goals intros; apply hadd <;> first | assumption | exact fun _ _ => by simp

lemma Checked.keeps (h : Checked d) {x : Firmware α} (hx : Framed d (fun _ => True) True x) :
    Keeps (Trusted d) x fun _ => Trusted d := hx.keeps (trusted_frame h)

lemma Checked.keeps_hwRev (h : Checked d) {f : UInt32 → Firmware β}
    (hf : Keeps (Trusted d) (f (d.pointer .hwRev)) fun _ => Trusted d) :
    Keeps (Trusted d) (hwRev d >>= f) fun _ => Trusted d := fun s hs =>
  hf _ ((trusted_frame h).deref _ .HW ((trusted_frame h).deref s .METADATA hs))

lemma keeps_chooseSlot (h : Checked d) (selPins selMask : UInt32) (plugins : UInt8) :
    Keeps (Trusted d) (chooseSlot d selPins selMask plugins) fun _ => Trusted d := by
  refine (h.keeps (.header8 _)).bind fun count => ?_
  split_ifs
  · refine (h.keeps (framed_getRomSlotIndex _ _ _)).bind fun index =>
      (h.keeps (.header32 _)).bind fun slots => Triple.bind ?_ fun _ =>
        h.keeps (framed_processFirmwareOverrides _)
    exact fun s hs => hs
  · exact h.keeps (.pure _)

lemma keeps_selectAndServe (h : Checked d) :
    Keeps (Trusted d) (selectAndServe d) fun _ => Trusted d := by
  refine (h.keeps framed_findPlugins).bind fun parsed =>
    (h.keeps (framed_vbusDetect trivial _)).bind fun _ =>
    (h.keeps (framed_whenLogging framed_logRoms)).bind fun _ => ?_
  exact (h.keeps (framed_readJumpers fun _ _ _ => trivial)).bind fun _ =>
    (keeps_chooseSlot h _ _ _).bind fun _ => h.keeps framed_serve

lemma keeps_bootOn (h : Checked d) : Keeps (Trusted d) (bootOn d) fun _ => Trusted d := by
  refine (h.keeps framed_updateRuntimeFromMetadata).bind fun _ =>
    (h.keeps framed_otpFlashSizes).bind fun _ => h.keeps_hwRev ?_
  refine (h.keeps framed_otpBoardMismatch).bind fun mismatch => ?_
  cases mismatch with
  | true => exact h.keeps (.throw _)
  | false => exact keeps_selectAndServe h

lemma platformSpecificInit_run (d : Device) :
    ∃ s, platformSpecificInit d start = (.ok ⟨⟩, s) ∧ s.runtime.rp235x = d.variant ∧
      s.events = [] := by
  unfold platformSpecificInit Device.variant
  split_ifs
  · exact ⟨start, rfl, rfl, rfl⟩
  · exact ⟨_, rfl, rfl, rfl⟩

end Main

/-- **Boot trusts only what it has checked**, exactly where the byte for turbo boot is clear, the
metadata passes, or the firmware is linked with none. -/
theorem boot_trusts_iff (d : Device) :
    BootTrusts d ↔ ¬ Usable d.metadata ∨ d.headerByte 31 = 0 ∨ Checked d := by
  obtain ⟨s, hinit, hvariant, hevents⟩ := platformSpecificInit_run d
  obtain ⟨v, hreads, hv⟩ := reads_metadataValid hvariant
  obtain ⟨t, hrun, -, ht⟩ := hreads s rfl (by simp [Untouched, hevents])
  have hvalid : (platformSpecificInit d >>= fun _ => metadataValid d) start = (.ok v, t) := by
    rw [Prog.bind_of_ok hinit, hrun]
  have hmain : firmwareMain d start = if v = 0 then (.error .bootloader, t) else bootOn d t := by
    unfold firmwareMain
    rw [Prog.bind_of_ok hinit, Prog.bind_of_ok hrun]
    split_ifs <;> rfl
  constructor
  · intro h
    by_contra hno
    push Not at hno
    exact hno.2.2 (h.valid v t hvalid (hv.mpr ⟨hno.1, .inl hno.2.1⟩))
  · intro hcond
    have hchecked : v ≠ 0 → Checked d := by
      intro hne
      obtain ⟨hmetadata, hturbo | hchecked⟩ := hv.mp hne
      · exact (hcond.resolve_left (not_not.mpr hmetadata)).resolve_left hturbo
      · exact hchecked
    refine ⟨fun w u hwu => ?_, fun w u hwu hne => ?_, fun hno => ?_⟩
    · obtain ⟨⟨rfl⟩, rfl⟩ := Prod.mk.inj (hvalid.symm.trans hwu)
      exact hchecked
    · obtain ⟨⟨rfl⟩, rfl⟩ := Prod.mk.inj (hvalid.symm.trans hwu)
      have htrusted := ((hchecked hne).keeps framed_metadataValid).ok
        (s := s) (by simp [Trusted, hevents]) hrun
      exact (keeps_bootOn (hchecked hne)).final htrusted
    · have hzero : v = 0 := by
        by_contra hne
        exact hno (hchecked hne)
      rw [hmain, if_pos hzero]
      exact ⟨rfl, ht⟩

/-- A device whose flash is erased where the metadata goes. -/
def erased : Device where
  metadata := 0x1000C000
  flash _ := 0xFF
  qfn60 := true
  otpReadEcc _ := 0
  otpReadRaw _ := 0
  pluginHeaderAt _ := ⟨0, 0, 0, 0, 0, 0, 0, 0⟩
  disablesVbusDetect _ := false
  version := (0, 8, 0)
  levels _ _ := 0
  vbusPresent := false
  sysClockFreqMhz _ := 150
  serving _ := ⟨true, 0, []⟩

/-- Erased metadata is accepted, and its hardware information is then at `0xFFFFFFFF`. -/
theorem boot_trusts_erased : ¬ BootTrusts erased := by
  intro h
  have hchecked : Checked erased := h.valid 1 _ rfl (by decide)
  exact absurd (hchecked.pointers .HW).2 (by decide)

end OneRom.Boot
