import OneRom.BootSelect

/-!
What boot's programs can do to its state: go through the metadata's pointers, use pins, pull those
they may, and change the runtime information other than the variant and the chosen slot. `Framed`
says so of a program, for every invariant that such steps keep, and whether it may end boot.
-/

namespace OneRom.Boot

open OneRom.Fallible

variable {d : Device} {α β : Type}

/-- The pointer a macro goes through, as flash has it. -/
def Device.pointer (d : Device) : Base → UInt32
  | .METADATA => d.metadata
  | .HW => d.word (d.metadata + 20)
  | .FW => d.word (d.metadata + 24)
  | .hwRev => d.word (d.word (d.metadata + 20))

def Device.headerByte (d : Device) (offset : UInt32) : UInt8 := d.flash (d.metadata + offset)

def Device.hwByte (d : Device) (offset : UInt32) : UInt8 := d.flash (d.pointer .HW + offset)

/-- The select pins that are reserved. -/
def Device.reservedSel (d : Device) : UInt8 :=
  if 3 ≤ d.word (d.metadata + 16) then d.headerByte 36 else 0

def Device.selPin (d : Device) (ii : ℕ) : UInt8 := d.hwByte (selPinOffset ii)

/-! ### What boot's programs can do -/

/-- An invariant that boot's steps keep, pulls only at the pins that may be pulled. -/
structure Frame (d : Device) (P : ℕ → Prop) (I : State → Prop) : Prop where
  deref : ∀ s base, I s → I (s.add (.deref base (d.pointer base)))
  input : ∀ s gpio, I s → I (s.add (.input gpio))
  drive : ∀ s gpio, I s → I (s.add (.drive gpio))
  unpull : ∀ s gpio, I s →
    I { s.add (.unpull gpio) with pulls := Function.update s.pulls gpio none }
  pull : ∀ s gpio up, P gpio → I s →
    I { s.add (.pull gpio up) with pulls := Function.update s.pulls gpio (some up) }
  runtime : ∀ s (runtime : Runtime), runtime.rp235x = s.runtime.rp235x →
    runtime.romSlotIndex = s.runtime.romSlotIndex →
    runtime.currentRomSlot = s.runtime.currentRomSlot → I s → I { s with runtime }

/-- `halts` is whether the program may end boot. -/
def Framed (d : Device) (P : ℕ → Prop) (halts : Prop) (x : Firmware α) : Prop :=
  ∀ I, Frame d P I → Triple I x (fun _ => I) fun s => halts ∧ I s

section Rules

variable {P : ℕ → Prop} {halts : Prop}

namespace Framed

lemma keeps {x : Firmware α} (h : Framed d P halts x) {I : State → Prop} (hI : Frame d P I) :
    Keeps I x fun _ => I := (h I hI).mono (fun _ h => h) (fun _ _ h => h) fun _ h => h.2

lemma pure (a : α) : Framed d P halts (Pure.pure a : Firmware α) :=
  fun _ _ => Triple.pure fun _ h => h

lemma throw (halt : Halt) : Framed d P True (Prog.throw halt : Firmware α) :=
  fun _ _ => Triple.throw fun _ h => ⟨trivial, h⟩

lemma bind {x : Firmware α} {f : α → Firmware β} (hx : Framed d P halts x)
    (hf : ∀ a, Framed d P halts (f a)) : Framed d P halts (x >>= f) :=
  fun I hI => (hx I hI).bind fun a => hf a I hI

lemma ite {c : Prop} [Decidable c] {x y : Firmware α} (hx : c → Framed d P halts x)
    (hy : ¬ c → Framed d P halts y) : Framed d P halts (if c then x else y) := by
  split_ifs with h
  · exact hx h
  · exact hy h

lemma each {γ : Type} {f : γ → Firmware PUnit} (h : ∀ c, Framed d P halts (f c))
    (cs : List γ) : Framed d P halts (Prog.each f cs) :=
  fun I hI => Triple.each (fun _ => I) cs fun _ c _ _ => h c I hI

lemma getRuntime : Framed d P halts getRuntime := fun _ _ _ h => h

lemma setRuntime {f : Runtime → Runtime} (hvariant : ∀ r, (f r).rp235x = r.rp235x)
    (hindex : ∀ r, (f r).romSlotIndex = r.romSlotIndex)
    (hslot : ∀ r, (f r).currentRomSlot = r.currentRomSlot) : Framed d P halts (setRuntime f) :=
  fun _ hI s h => hI.runtime s _ (hvariant _) (hindex _) (hslot _) h

lemma drive (gpio : ℕ) : Framed d P halts (note (.drive gpio)) :=
  fun _ hI s h => hI.drive s gpio h

lemma input (gpio : ℕ) : Framed d P halts (note (.input gpio)) :=
  fun _ hI s h => hI.input s gpio h

lemma clearPull (gpio : ℕ) : Framed d P halts (clearPull gpio) :=
  fun _ hI s h => hI.unpull s gpio h

lemma setPull {gpio : ℕ} (hgpio : P gpio) (up : Bool) : Framed d P halts (setPull gpio up) :=
  fun _ hI s h => hI.pull s gpio up hgpio h

lemma header8 (offset : UInt32) : Framed d P halts (header8 d offset) :=
  fun _ hI s h => hI.deref s .METADATA h

lemma header32 (offset : UInt32) : Framed d P halts (header32 d offset) :=
  fun _ hI s h => hI.deref s .METADATA h

lemma hw8 (offset : UInt32) : Framed d P halts (hw8 d offset) :=
  fun _ hI s h => hI.deref _ .HW (hI.deref s .METADATA h)

lemma hwRev : Framed d P halts (hwRev d) :=
  fun _ hI s h => hI.deref _ .HW (hI.deref s .METADATA h)

lemma bind_hw8 {f : UInt8 → Firmware β} {offset : UInt32}
    (hf : Framed d P halts (f (d.hwByte offset))) :
    Framed d P halts (Boot.hw8 d offset >>= f) := fun I hI s h =>
  hf I hI _ (hI.deref _ .HW (hI.deref s .METADATA h))

lemma bind_hwRev {f : UInt32 → Firmware β} (hf : Framed d P halts (f (d.pointer .hwRev))) :
    Framed d P halts (Boot.hwRev d >>= f) := fun I hI s h =>
  hf I hI _ (hI.deref _ .HW (hI.deref s .METADATA h))

lemma TURBO : Framed d P halts (TURBO d) := header8 31

lemma LOG : Framed d P halts (LOG d) :=
  .bind .getRuntime fun _ => .ite (fun _ => .bind .TURBO fun _ => .pure _) fun _ => .pure _

end Framed

end Rules

/-! ### Each program -/

section Programs

variable {P : ℕ → Prop} {halts : Prop}

lemma framed_updateRuntimeFromMetadata : Framed d P halts (updateRuntimeFromMetadata d) :=
  .bind (.header8 _) fun _ => .bind (.header8 _) fun _ =>
    .setRuntime (fun _ => rfl) (fun _ => rfl) fun _ => rfl

lemma framed_otpFlashSizes : Framed d P halts (otpFlashSizes d) :=
  .ite (fun _ => .pure _) fun _ => .bind (.hw8 _) fun _ => .pure _

lemma framed_otpBoardMismatch : Framed d P halts (otpBoardMismatch d (d.pointer .hwRev)) := by
  unfold otpBoardMismatch
  cases (OtpFirmware.otp_commissioned_board d.otpReadEcc).1 with
  | none => exact .pure _
  | some value =>
    refine .ite (fun _ => .pure _) fun _ => ?_
    exact .bind (fun _ hI s h => hI.deref s .hwRev h) fun _ => .pure _

lemma framed_setupStatusLed : Framed d P halts (setupStatusLed d) :=
  .bind .getRuntime fun _ => .bind (.hw8 _) fun _ => .ite (fun _ => .drive _) fun _ => .pure _

lemma framed_setupNeopixel : Framed d P halts (setupNeopixel d) := by
  refine .bind .getRuntime fun _ => .bind (.hw8 _) fun _ => .ite (fun _ => ?_) fun _ => .pure _
  exact .bind (.hw8 _) fun _ => .ite (fun _ => .drive _) fun _ => .pure _

lemma framed_setupInitialGpios : Framed d P halts (setupInitialGpios d) := by
  refine .bind .getRuntime fun _ => .bind (.each (fun ii => ?_) _) fun _ =>
    .bind framed_setupStatusLed fun _ => framed_setupNeopixel
  exact .bind (.hw8 _) fun _ =>
    .ite (fun _ => .pure _) fun _ => .bind (.clearPull _) fun _ => .input _

lemma framed_logLines (lines : ℕ) : Framed d P halts (logLines d lines) := .each (fun _ => .LOG) _

lemma framed_whenLogging {x : Firmware PUnit} (h : Framed d P halts x) :
    Framed d P halts (whenLogging d x) := by
  refine .bind .getRuntime fun _ => .ite (fun _ => ?_) fun _ => .pure _
  exact .bind .TURBO fun _ => .ite (fun _ => h) fun _ => .pure _

lemma framed_logInit : Framed d P halts (logInit d) :=
  .bind (framed_logLines _) fun _ => .bind framed_otpFlashSizes fun _ => framed_logLines _

lemma framed_logGeneration : Framed d P halts (logGeneration d) :=
  .bind (.header32 _) fun _ => .ite (fun _ => .LOG) fun _ => .pure _

lemma framed_logRoms : Framed d P halts (logRoms d) := by
  refine .bind (.header8 _) fun _ => .bind .LOG fun _ => .each (fun _ => ?_) _
  exact .bind (.header8 _) fun _ => .bind (.header32 _) fun _ => .LOG

lemma framed_limp (pattern : LimpMode) : Framed d P True (pattern.enter d : Firmware α) := by
  refine .bind .LOG fun _ => .bind (.bind .getRuntime fun _ => .ite (fun _ => .pure _) fun _ => ?_)
    fun _ => .bind framed_setupStatusLed fun _ => .throw _
  exact .bind (.setRuntime (fun _ => rfl) (fun _ => rfl) fun _ => rfl) fun _ =>
    framed_setupStatusLed

lemma framed_checkPlugin (slot : UInt32) (expectedType : UInt8) (index : UInt32) :
    Framed d P halts (checkPlugin d slot expectedType index) :=
  .bind framed_otpFlashSizes fun _ =>
    .ite (fun _ => .bind .LOG fun _ => .pure _) fun _ => .pure _

lemma framed_parseSystem : Framed d P halts (parseSystem d) :=
  .bind (.header32 _) fun _ =>
    .ite (fun _ => .bind (framed_checkPlugin _ _ _) fun _ => .pure _) fun _ => .pure _

lemma framed_parseUser (disable : Bool) (plugins : UInt8) :
    Framed d P halts (parseUser d disable plugins) :=
  .bind (.header32 _) fun _ =>
    .ite (fun _ => .bind (framed_checkPlugin _ _ _) fun _ => .pure _) fun _ => .pure _

lemma framed_initialPluginParse : Framed d P halts (initialPluginParse d) := by
  refine .bind (.header8 _) fun _ => .ite (fun _ => .pure _) fun _ => ?_
  exact .bind framed_parseSystem fun _ => .bind (.header8 _) fun _ =>
    .ite (fun _ => framed_parseUser _ _) fun _ => .pure _

lemma framed_findPlugins : Framed d P halts (findPlugins d) :=
  .bind framed_setupInitialGpios fun _ => .bind (framed_whenLogging framed_logInit) fun _ =>
    .bind framed_logGeneration fun _ => framed_initialPluginParse

lemma framed_reservedSelPins : Framed d P halts (reservedSelPins d) :=
  .bind (.header32 _) fun _ => .ite (fun _ => .header8 _) fun _ => .pure _

lemma bind_reservedSelPins {f : UInt8 → Firmware β} (hf : Framed d P halts (f d.reservedSel)) :
    Framed d P halts (reservedSelPins d >>= f) := by
  intro I hI s h
  have hrun : ∃ t, reservedSelPins d s = (.ok d.reservedSel, t) ∧ I t := by
    have h16 := hI.deref s .METADATA h
    by_cases hv : 3 ≤ d.word (d.metadata + 16)
    · refine ⟨_, ?_, hI.deref _ .METADATA h16⟩
      simp only [reservedSelPins, Device.reservedSel, header32, Prog.bind_run, note, Prog.pure_run,
        if_pos hv]
      rfl
    · refine ⟨_, ?_, h16⟩
      simp only [reservedSelPins, Device.reservedSel, header32, Prog.bind_run, note, Prog.pure_run,
        if_neg hv]
      rfl
  obtain ⟨t, hrun, ht⟩ := hrun
  rw [Prog.bind_of_ok hrun]
  exact hf I hI t ht

lemma framed_setupSelPinsFrom {reserved : UInt8} :
    ∀ (iis : List ℕ),
      (∀ ii ∈ iis, reserved.toNat.testBit ii = false → P (d.selPin ii).toNat) →
      ∀ pins, Framed d P halts (setupSelPinsFrom d reserved pins iis)
  | [], _, _ => .pure _
  | ii :: rest, hP, pins => by
    refine .bind (.bind .getRuntime fun runtime => .bind_hw8 ?_) fun _ =>
      framed_setupSelPinsFrom rest (fun jj hjj => hP jj (List.mem_cons_of_mem _ hjj)) _
    refine .ite (fun hread => ?_) fun _ => .pure _
    have hpin : P (d.selPin ii).toNat := by
      rw [selRead, Bool.and_eq_true, Bool.not_eq_true'] at hread
      exact hP ii List.mem_cons_self hread.2
    refine .bind (.hw8 _) fun _ => .bind (.hw8 _) fun _ => .bind (.hw8 _) fun _ => ?_
    exact .ite (fun _ => .bind (.setPull hpin _) fun _ => .pure _) fun _ =>
      .bind (.setPull hpin _) fun _ => .pure _

/-- The only pins pulled to read the jumpers are the select pins that are not reserved. -/
lemma framed_setupSelPins {reserved : UInt8}
    (hP : ∀ ii < MAX_IMG_SEL_PINS, reserved.toNat.testBit ii = false → P (d.selPin ii).toNat) :
    Framed d P halts (setupSelPins d reserved) :=
  framed_setupSelPinsFrom _ (fun ii hii => hP ii (List.mem_range.mp hii)) _

lemma framed_disableSelPins (reserved : UInt8) : Framed d P halts (disableSelPins d reserved) := by
  refine .each (fun ii => .bind .getRuntime fun _ => .bind (.hw8 _) fun _ => ?_) _
  exact .ite (fun _ => .bind (.clearPull _) fun _ => .bind (.hw8 _) fun _ =>
    .bind (.hw8 _) fun _ => .pure _) fun _ => .pure _

lemma framed_selBits (reserved : UInt8) (gpioValue : UInt64) :
    ∀ (iis : List ℕ) (sel : UInt32 × UInt32),
      Framed d P halts (selBits d reserved gpioValue sel iis)
  | [], _ => .pure _
  | _ :: rest, _ => .bind .getRuntime fun _ => .bind (.hw8 _) fun _ =>
      .ite (fun _ => framed_selBits reserved gpioValue rest _) fun _ =>
        framed_selBits reserved gpioValue rest _

lemma framed_checkSelPins
    (hP : ∀ ii < MAX_IMG_SEL_PINS, d.reservedSel.toNat.testBit ii = false →
      P (d.selPin ii).toNat) : Framed d P halts (checkSelPins d) := by
  refine bind_reservedSelPins (.bind (framed_setupSelPins hP) fun pins => ?_)
  refine .ite (fun _ => .bind (framed_disableSelPins _) fun _ => .pure _) fun _ => ?_
  refine .bind (fun _ _ _ h => h) fun _ => .bind (framed_disableSelPins _) fun _ =>
    .bind (framed_selBits _ _ _ _) fun _ => ?_
  exact .bind (.setRuntime (fun _ => rfl) (fun _ => rfl) fun _ => rfl) fun _ => .pure _

lemma framed_readJumpers
    (hP : ∀ ii < MAX_IMG_SEL_PINS, d.reservedSel.toNat.testBit ii = false →
      P (d.selPin ii).toNat) : Framed d P halts (readJumpers d) :=
  .bind .TURBO fun _ => .ite (fun _ => framed_checkSelPins hP) fun _ => .pure _

lemma framed_vbusDetect (hP : P (d.hwByte 7).toNat) (disable : Bool) :
    Framed d P True (vbusDetect d disable) := by
  refine .ite (fun _ => .LOG) fun _ => .bind .getRuntime fun _ => .bind (.hw8 _) fun _ =>
    .bind_hw8 (.ite (fun _ => .LOG) fun _ => .bind (.setPull hP _) fun _ => ?_)
  exact .ite (fun _ => .bind .LOG fun _ => .throw _) fun _ => .pure _

lemma framed_getRomSlotIndex (selPins selMask : UInt32) (plugins : UInt8) :
    Framed d P True (getRomSlotIndex d selPins selMask plugins) :=
  .bind (.header8 _) fun _ => .ite (fun _ => framed_limp _) fun _ =>
    .ite (fun _ => framed_limp _) fun _ => .bind .LOG fun _ => .pure _

lemma framed_override (present : UInt8) (bit : ℕ) {set : Runtime → Runtime}
    (hvariant : ∀ r, (set r).rp235x = r.rp235x)
    (hindex : ∀ r, (set r).romSlotIndex = r.romSlotIndex)
    (hslot : ∀ r, (set r).currentRomSlot = r.currentRomSlot) :
    Framed d P halts (override d present bit set) :=
  .ite (fun _ => .bind (.setRuntime hvariant hindex hslot) fun _ => .LOG) fun _ => .pure _

lemma framed_processFirmwareOverrides (slot : UInt32) :
    Framed d P halts (processFirmwareOverrides d slot) := by
  unfold processFirmwareOverrides
  refine .ite (fun _ => .pure _) fun _ => ?_
  refine .bind (framed_override _ _ ?_ ?_ ?_) fun _ => .bind (framed_override _ _ ?_ ?_ ?_) fun _ =>
    .bind (framed_override _ _ ?_ ?_ ?_) fun _ => .bind (framed_override _ _ ?_ ?_ ?_) fun _ =>
    .bind (framed_override _ _ ?_ ?_ ?_) fun _ => ?_
  case refine_16 =>
    refine .bind (.bind (.header32 _) fun _ => .pure _) fun _ => ?_
    refine .ite (fun _ => ?_) fun _ => .pure _
    exact .bind (.setRuntime (fun _ => rfl) (fun _ => rfl) fun _ => rfl) fun _ => .LOG
  all_goals exact fun _ => rfl

lemma framed_setupClock : Framed d P halts (setupClock d) :=
  .bind .getRuntime fun _ => .ite (fun _ => .bind (.hw8 _) fun _ => .pure _) fun _ => .pure _

lemma framed_preloadRomImage (slot : UInt32) : Framed d P True (preloadRomImage d slot) := by
  refine .ite (fun _ => .LOG) fun _ => .bind framed_otpFlashSizes fun _ =>
    .ite (fun _ => .bind .LOG fun _ => ?_) fun _ => framed_limp _
  exact .ite (fun _ => framed_limp _) fun _ => framed_logLines _

lemma framed_preload : Framed d P True (preload d) := by
  refine .bind .getRuntime fun runtime => ?_
  cases runtime.currentRomSlot with
  | none => exact .pure _
  | some slot => exact framed_preloadRomImage slot

lemma framed_limpWithoutSlot : Framed d P True (limpWithoutSlot d) :=
  .bind .getRuntime fun _ => .ite (fun _ => framed_limp _) fun _ => .pure _

lemma framed_pioLedBoot : Framed d P halts (pioLedBoot d) := by
  refine .bind .getRuntime fun _ => .bind (.hw8 _) fun _ => .ite (fun _ => ?_) fun _ => .pure _
  exact .bind (.hw8 _) fun _ => .drive _

lemma framed_pio : Framed d P True (pio d) := by
  refine .bind .getRuntime fun _ => .bind .TURBO fun _ => .ite (fun _ => framed_limp _) fun _ => ?_
  exact .bind (framed_logLines _) fun _ => .each (fun _ => .drive _) _

lemma framed_serve : Framed d P True (serve d) := by
  refine .bind framed_setupClock fun _ => .bind framed_preload fun _ =>
    .bind framed_setupStatusLed fun _ => .bind framed_limpWithoutSlot fun _ =>
    .bind framed_pioLedBoot fun _ => .bind .LOG fun _ => .bind ?_ fun _ => framed_pio
  exact .bind .getRuntime fun _ => .ite (fun _ => .LOG) fun _ => .pure _

end Programs

end OneRom.Boot
