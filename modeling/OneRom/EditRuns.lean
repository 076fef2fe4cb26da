import OneRom.EditScreen

/-!
Runs of the editor: over any calls, and any bytes received, it holds, shows and returns what the
editor that is meant does, as long as no byte is inserted that isn't ASCII.
-/

namespace OneRom.EditRuns

open OneRom.Calls OneRom.EditScreen OneRom.Editor OneRom.PlainEditor OneRom.SlotArg OneRom.Terminal
open OneRom.HexFile (ascii)
open OneRom.Signers (isWhitespace)

/-! ### A byte -/

/-- Between two calls. -/
structure Between (desk : Desk) (p : Plain) : Prop where
  keeps : Keeps desk.editor.history p.lines
  lines : ∀ line ∈ p.lines, Good line

/-- A reply is what a step of the editor that is meant comes to. -/
structure Answers (call : ReadLine) (screen : Screen) (reply : Reply)
    (step : Plain × Option (Option Text)) : Prop where
  result : reply.result = step.2
  on : reply.result = none → Within call ⟨reply.editor, feed screen reply.sent⟩ step.1
  done : reply.result ≠ none → Between ⟨reply.editor, feed screen reply.sent⟩ step.1

section Step

variable {call : ReadLine} {e : LineEditor} {s : Screen} {p : Plain} {b : UInt8}

lemma LeadsTo.answers {reply : Reply} (h : LeadsTo call s reply p) :
    Answers call s reply (p, none) :=
  ⟨h.1, fun _ => h.2, fun hne => absurd h.1 hne⟩

lemma step_of_key {esc : EscState} {key : Key} (h : keyOf p.esc b = (esc, some key)) :
    plainEditor.step call p b =
      ({ p with esc := esc }.press call.withHistory key, { p with esc := esc }.result key) := by
  simp only [plainEditor, h]

lemma step_of_none {esc : EscState} (h : keyOf p.esc b = (esc, none)) :
    plainEditor.step call p b = ({ p with esc := esc }, none) := by
  simp only [plainEditor, h]

lemma withEsc_self (h : p.esc = .normal) : { p with esc := .normal } = p := by
  cases p
  cases h
  rfl

lemma trim_subset {line : Text} {c : Char} (hc : c ∈ trim line) : c ∈ line := by
  rw [trim, List.mem_reverse] at hc
  have hmem := (List.dropWhile_sublist _).subset hc
  rw [List.mem_reverse] at hmem
  exact (List.dropWhile_sublist _).subset hmem

lemma length_trim_le (line : Text) : (trim line).length ≤ line.length := by
  rw [trim, List.length_reverse]
  calc _ ≤ (line.dropWhile isWhitespace).reverse.length := (List.dropWhile_sublist _).length_le
    _ = (line.dropWhile isWhitespace).length := List.length_reverse
    _ ≤ line.length := (List.dropWhile_sublist _).length_le

lemma good_remember {lines : List Text} {line : Text} (hlines : ∀ line ∈ lines, Good line)
    (hline : Good line) : ∀ line' ∈ remember lines line, Good line' := by
  rw [remember]
  split
  · exact hlines
  · exact List.forall_mem_cons.mpr ⟨hline, hlines⟩

lemma enter_answers (h : Within call ⟨e, s⟩ p) :
    Answers call s (call.enter e) (p.press call.withHistory .enter, p.result .enter) := by
  have htext : textOf e.content = p.line := h.holds.textOf_content
  have hgood : Good (trim p.line) :=
    ⟨fun c hc => h.holds.good.1 c (trim_subset hc),
      (length_trim_le _).trans h.holds.good.2⟩
  rw [ReadLine.enter, htext]
  refine ⟨rfl, nofun, fun _ => ?_⟩
  rw [Plain.press]
  cases call.withHistory with
  | false => exact ⟨h.holds.keeps, h.holds.lines⟩
  | true => exact ⟨h.holds.keeps.push _, good_remember h.holds.lines hgood⟩

lemma cancel_answers (h : Within call ⟨e, s⟩ p) :
    Answers call s (ReadLine.cancel e) (p.press call.withHistory .cancel, p.result .cancel) :=
  ⟨rfl, nofun, fun _ => ⟨h.holds.keeps, h.holds.lines⟩⟩

/-- A byte that is inserted is ASCII. -/
def Typed (_ : ReadLine) (desk : Desk) (b : UInt8) : Prop :=
  desk.editor.esc = .normal → desk.editor.len < LINE_BUF → b < 0x80

/-- A byte on its own. -/
lemma normal_answers (h : Within call ⟨e, s⟩ p) (hesc : p.esc = .normal)
    (htyped : e.len < LINE_BUF → b < 0x80) :
    Answers call s (call.normal e b) (plainEditor.step call p b) := by
  have hnone (hkey : keyOf .normal b = (.normal, none)) :
      plainEditor.step call p b = (p, none) := by
    rw [step_of_none (hesc.symm ▸ hkey : keyOf p.esc b = (.normal, none)), withEsc_self hesc]
  have hsome {key : Key} (hkey : keyOf .normal b = (.normal, some key)) :
      plainEditor.step call p b = (p.press call.withHistory key, p.result key) := by
    rw [step_of_key (hesc.symm ▸ hkey : keyOf p.esc b = (.normal, some key)), withEsc_self hesc]
  by_cases hcr : b = 0x0D
  · subst hcr
    rw [hsome rfl, ReadLine.normal, if_pos rfl]
    exact enter_answers h
  by_cases hlf : b = 0x0A
  · subst hlf
    rw [hnone rfl]
    exact LeadsTo.answers h.silent
  by_cases hetx : b = 0x03
  · subst hetx
    rw [hsome rfl]
    exact cancel_answers h
  by_cases hescape : b = 0x1B
  · subst hescape
    rw [step_of_none (hesc ▸ rfl : keyOf p.esc 0x1B = (.gotEsc, none))]
    exact LeadsTo.answers (h.withEsc .gotEsc).silent
  by_cases hbs : b = 0x08 ∨ b = 0x7F
  · have hkey : keyOf .normal b = (.normal, some .backspace) := by rcases hbs with rfl | rfl <;> rfl
    rw [hsome hkey, ReadLine.normal, if_neg hcr, if_neg hlf, if_neg hetx, if_neg hescape, if_pos hbs]
    exact LeadsTo.answers h.backspace
  rw [ReadLine.normal, if_neg hcr, if_neg hlf, if_neg hetx, if_neg hescape, if_neg hbs]
  by_cases hlow : 0x20 ≤ b
  · rw [if_pos hlow]
    by_cases hhigh : b ≤ 0x7E
    · obtain ⟨hc, hbyte⟩ := isPrintable_ofNat ⟨hlow, hhigh⟩
      have hkey : keyOf .normal b = (.normal, some (.char (Char.ofNat b.toNat))) := by
        rw [keyOf, if_neg hcr, if_neg hetx, if_neg hescape, if_neg hbs, if_pos ⟨hlow, hhigh⟩]
      have htype := h.type hc
      rw [hbyte] at htype
      rw [hsome hkey]
      exact LeadsTo.answers htype
    · -- there is no room for a byte that isn't ASCII
      have hfull : LINE_BUF ≤ e.len := by
        by_contra hroom
        have hlt := htyped (Nat.lt_of_not_le hroom)
        have hne : b ≠ 0x7F := fun heq => hbs (.inr heq)
        rw [UInt8.lt_iff_toNat_lt] at hlt
        rw [UInt8.le_iff_toNat_le] at hhigh
        have hval : b.toNat ≠ 0x7F := fun heq => hne (UInt8.toNat_inj.mp heq)
        have h80 : (0x80 : UInt8).toNat = 0x80 := rfl
        have h7e : (0x7E : UInt8).toNat = 0x7E := rfl
        omega
      rw [hnone, ReadLine.type, LineEditor.insert, if_pos hfull]
      · exact LeadsTo.answers h.silent
      · rw [keyOf, if_neg hcr, if_neg hetx, if_neg hescape, if_neg hbs,
          if_neg fun hin => hhigh hin.2]
  · rw [if_neg hlow, hnone]
    · exact LeadsTo.answers h.silent
    · rw [keyOf, if_neg hcr, if_neg hetx, if_neg hescape, if_neg hbs, if_neg fun hin => hlow hin.1]

/-- The final byte of a sequence. -/
lemma bracket_answers (h : Within call ⟨e, s⟩ p) (hesc : p.esc = .gotBracket) :
    Answers call s (call.bracket e b) (plainEditor.step call p b) := by
  have hback := h.withEsc .normal
  have hsome {key : Key} (hkey : keyOf .gotBracket b = (.normal, some key)) :
      plainEditor.step call p b =
        ({ p with esc := .normal }.press call.withHistory key,
          { p with esc := .normal }.result key) :=
    step_of_key (hesc.symm ▸ hkey : keyOf p.esc b = (.normal, some key))
  by_cases hup : b = ascii 'A'
  · subst hup
    rw [hsome rfl]
    exact LeadsTo.answers hback.up
  by_cases hdown : b = ascii 'B'
  · subst hdown
    rw [hsome rfl]
    exact LeadsTo.answers hback.down
  by_cases hright : b = ascii 'C'
  · subst hright
    rw [hsome rfl]
    exact LeadsTo.answers hback.right
  by_cases hleft : b = ascii 'D'
  · subst hleft
    rw [hsome rfl]
    exact LeadsTo.answers hback.left
  by_cases hhome : b = ascii 'H'
  · subst hhome
    rw [hsome rfl]
    exact LeadsTo.answers hback.home
  by_cases hend : b = ascii 'F'
  · subst hend
    rw [hsome rfl]
    exact LeadsTo.answers hback.toEnd
  by_cases hthree : b = ascii '3'
  · subst hthree
    rw [step_of_none (hesc ▸ rfl : keyOf p.esc (ascii '3') = (.gotBracket3, none))]
    exact LeadsTo.answers (h.withEsc .gotBracket3).silent
  · have hkey : keyOf p.esc b = (.normal, none) := by
      rw [hesc, keyOf, if_neg hup, if_neg hdown, if_neg hright, if_neg hleft, if_neg hhome,
        if_neg hend, if_neg hthree]
    rw [step_of_none hkey, ReadLine.bracket]
    dsimp only
    rw [if_neg hup, if_neg hdown, if_neg hright, if_neg hleft, if_neg hhome, if_neg hend,
      if_neg hthree]
    exact LeadsTo.answers hback.silent

/-- A byte does what it does to the editor that is meant. -/
lemma recv_answers (h : Within call ⟨e, s⟩ p) (htyped : Typed call ⟨e, s⟩ b) :
    Answers call s (call.recv e b) (plainEditor.step call p b) := by
  have hesc : e.esc = p.esc := h.holds.esc
  rw [ReadLine.recv]
  cases hp : p.esc with
  | normal =>
    rw [hesc.trans hp]
    exact normal_answers h hp (htyped (hesc.trans hp))
  | gotEsc =>
    rw [hesc.trans hp, step_of_none (hp ▸ rfl : keyOf p.esc b =
      (if b = ascii '[' then .gotBracket else .normal, none))]
    exact LeadsTo.answers (h.withEsc _).silent
  | gotBracket =>
    rw [hesc.trans hp]
    exact bracket_answers h hp
  | gotBracket3 =>
    rw [hesc.trans hp]
    dsimp only
    split
    · next hb =>
      rw [step_of_key (by rw [hp, keyOf, if_pos hb] : keyOf p.esc b = (.normal, some .delete))]
      exact LeadsTo.answers (h.withEsc .normal).delete
    · next hb =>
      rw [step_of_none (by rw [hp, keyOf, if_neg hb] : keyOf p.esc b = (.normal, none))]
      exact LeadsTo.answers (h.withEsc .normal).silent

end Step

/-! ### Runs -/

lemma begin_within {call : ReadLine} {desk : Desk} {p : Plain}
    (hprompt : ∀ c ∈ call.prompt, isPrintable c) (h : Between desk p) :
    Within call (lineEditor.start call desk) (plainEditor.start call p) := by
  have hshows : Shows (feed blank call.prompt) call.prompt call.prompt.length := by
    obtain ⟨hcol, hcells⟩ := feed_printable blank hprompt
    refine ⟨fun i => ?_, by rw [hcol]; exact Nat.zero_add _⟩
    rw [hcells]
    split
    · rfl
    · next hi =>
      have hlen : call.prompt.length ≤ i := by
        have hcol0 : blank.col = 0 := rfl
        omega
      rw [List.getD_eq_default _ _ hlen]
      rfl
  refine
    { holds :=
        { esc := rfl
          content := rfl
          len := rfl
          pos := rfl
          cursor_le := Nat.le_refl _
          good := ⟨nofun, Nat.zero_le _⟩
          recalls := rfl
          keeps := h.keeps
          lines := h.lines }
      display := rfl
      prompt := hprompt
      shows := ?_ }
  have hline : (plainEditor.start call p).line = [] := rfl
  rw [hline, List.append_nil]
  exact hshows

/-- The editor and the one that is meant agree, where what is inserted is ASCII. -/
lemma editors_agree : Agrees lineEditor plainEditor Between Within
    (fun call => ∀ c ∈ call.prompt, isPrintable c) Typed where
  start := begin_within
  result h htyped := (recv_answers h htyped).result
  on h htyped hnone := (recv_answers h htyped).on hnone
  done h htyped hsome := (recv_answers h htyped).done hsome

/-- The line is held, and shown behind the prompt. -/
structure Shown (call : ReadLine) (desk : Desk) (p : Plain) : Prop where
  printable : ∀ b ∈ desk.editor.content, 0x20 ≤ b ∧ b ≤ 0x7E
  pos_le : desk.editor.pos ≤ desk.editor.len
  len_le : desk.editor.len ≤ LINE_BUF
  content : desk.editor.content = p.line.map byteOf
  pos : desk.editor.pos = p.cursor
  screen : Shows desk.screen (call.prompt ++ p.line) (call.prompt.length + p.cursor)

/-- What the calls return, and what stands after them, is what is meant. -/
structure Faithful (calls : List ReadLine) (stream : List UInt8) : Prop where
  returned : (lineEditor.run ⟨.new, blank⟩ calls stream).returned =
    (plainEditor.run .new calls stream).returned
  call : (lineEditor.run ⟨.new, blank⟩ calls stream).call = (plainEditor.run .new calls stream).call
  shown : ∀ call, (lineEditor.run ⟨.new, blank⟩ calls stream).call = some call →
    Shown call (lineEditor.run ⟨.new, blank⟩ calls stream).state
      (plainEditor.run .new calls stream).state

lemma shown_of_within {call : ReadLine} {desk : Desk} {p : Plain} (h : Within call desk p) :
    Shown call desk p where
  printable b hb := by
    rw [h.holds.content, List.mem_map] at hb
    obtain ⟨c, hmem, rfl⟩ := hb
    have hc := h.holds.good.1 c hmem
    rw [UInt8.le_iff_toNat_le, UInt8.le_iff_toNat_le, toNat_byteOf hc]
    exact toNat_of_isPrintable hc
  pos_le := h.holds.pos_le
  len_le := h.holds.len_le
  content := h.holds.content
  pos := h.holds.pos
  screen := h.shows

/-- Over any calls and any bytes the editor holds, shows and returns what is meant, as long as
what it inserts is ASCII. -/
theorem editor_faithful {calls : List ReadLine} {stream : List UInt8}
    (hprompts : ∀ call ∈ calls, ∀ c ∈ call.prompt, isPrintable c)
    (htyped : lineEditor.Along Typed ⟨.new, blank⟩ calls stream) : Faithful calls stream := by
  have hnew : Between ⟨.new, blank⟩ .new := ⟨keeps_new, nofun⟩
  have hrun := editors_agree.run hnew hprompts htyped
  exact ⟨hrun.returned, hrun.call, fun call hcall => shown_of_within (hrun.reading call hcall)⟩

/-- A stream that is ASCII throughout is. -/
lemma typed_of_ascii (calls : List ReadLine) {stream : List UInt8} (h : ∀ b ∈ stream, b < 0x80) :
    lineEditor.Along Typed ⟨.new, blank⟩ calls stream :=
  lineEditor.along_of_forall fun _ _ b hb _ _ => h b hb

/-- Typing in a line, entering it and recalling it. -/
theorem editor_faithful_recall :
    Faithful [⟨['>', ' '], true⟩, ⟨['>', ' '], true⟩]
      [0x61, 0x62, 0x1B, 0x5B, 0x44, 0x63, 0x0D, 0x1B, 0x5B, 0x41, 0x08] :=
  editor_faithful (by simp [isPrintable]) (typed_of_ascii _ (by decide +kernel))

/-- A byte above ASCII is inserted unseen, and the line it is in is lost. -/
theorem editor_drops_line :
    ¬ ∀ (calls : List ReadLine) (stream : List UInt8),
      (∀ call ∈ calls, ∀ c ∈ call.prompt, isPrintable c) → Faithful calls stream := by
  intro h
  have hreturned := (h [⟨['>', ' '], true⟩] [0x61, 0xE9, 0x0D] (by simp [isPrintable])).returned
  revert hreturned
  decide +kernel

end OneRom.EditRuns
