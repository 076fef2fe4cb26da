import OneRom.EditBuf
import OneRom.PlainEditor

/-!
The editor beside the one that is meant, and beside its terminal: key by key they hold the same
line, which the terminal shows.

Between two bytes the length that a repaint clears is that of the line, so that what every echo
leaves behind is what a repaint would leave.
-/

namespace OneRom.EditScreen

open OneRom.Calls OneRom.EditBuf OneRom.Editor OneRom.OtpEntry OneRom.PlainEditor OneRom.SlotArg
  OneRom.Terminal
open OneRom.HexFile (ascii)

/-! ### Printable text -/

def byteOf (c : Char) : UInt8 := UInt8.ofNat c.toNat

/-- A line that the editor can hold. -/
def Good (line : Text) : Prop := (∀ c ∈ line, isPrintable c) ∧ line.length ≤ LINE_BUF

lemma toNat_of_isPrintable {c : Char} (h : isPrintable c) : 0x20 ≤ c.toNat ∧ c.toNat ≤ 0x7E := by
  simpa [isPrintable] using h

lemma toNat_byteOf {c : Char} (h : isPrintable c) : (byteOf c).toNat = c.toNat := by
  have := toNat_of_isPrintable h
  rw [byteOf, UInt8.toNat_ofNat']
  omega

/-- A byte from 0x20 to 0x7E is a printable character's. -/
lemma isPrintable_ofNat {b : UInt8} (h : 0x20 ≤ b ∧ b ≤ 0x7E) :
    isPrintable (Char.ofNat b.toNat) ∧ byteOf (Char.ofNat b.toNat) = b := by
  revert b
  decide +kernel

lemma utf8EncodeChar_printable {c : Char} (h : isPrintable c) :
    String.utf8EncodeChar c = [byteOf c] := by
  have hc := (toNat_of_isPrintable h).2
  have hval : c.val.toNat ≤ 0x7F := by
    change c.toNat ≤ 0x7F
    omega
  rw [String.utf8EncodeChar, if_pos hval]
  rfl

/-- A printable line's bytes are its characters'. -/
lemma strBytes_printable {line : Text} (h : ∀ c ∈ line, isPrintable c) :
    strBytes (String.ofList line) = line.map byteOf := by
  have hbytes : strBytes (String.ofList line) = line.flatMap String.utf8EncodeChar := by
    simp only [strBytes, String.toByteArray_ofList, List.utf8Encode]
    simp
  rw [hbytes]
  clear hbytes
  induction line with
  | nil => rfl
  | cons c line ih =>
    obtain ⟨hc, hline⟩ := List.forall_mem_cons.mp h
    rw [List.flatMap_cons, utf8EncodeChar_printable hc, List.map_cons, ih hline]
    rfl

lemma textOf_printable {line : Text} (h : ∀ c ∈ line, isPrintable c) :
    textOf (line.map byteOf) = line := by
  rw [textOf, ← strBytes_printable h, fromUtf8_strBytes]
  simp

lemma textOf_byteOf {c : Char} (h : isPrintable c) : textOf [byteOf c] = [c] := by
  have hline : ∀ c' ∈ [c], isPrintable c' := by simpa using h
  exact textOf_printable hline

/-! ### The line -/

/-- The line that is recalled, and the line in progress that is set aside. -/
def Recalls (e : LineEditor) : Option (ℕ × Text) → Prop
  | none => e.historyIdx = none
  | some (n, draft) => e.historyIdx = some n ∧ n < e.history.count ∧ Good draft ∧
      e.savedLen = draft.length ∧ e.savedBuf.toList.take e.savedLen = draft.map byteOf

/-- The editor holds the line that is meant. -/
structure Holds (e : LineEditor) (p : Plain) : Prop where
  esc : e.esc = p.esc
  content : e.content = p.line.map byteOf
  len : e.len = p.line.length
  pos : e.pos = p.cursor
  cursor_le : p.cursor ≤ p.line.length
  good : Good p.line
  recalls : Recalls e p.recalled
  keeps : Keeps e.history p.lines
  lines : ∀ line ∈ p.lines, Good line

namespace Holds

variable {e : LineEditor} {p : Plain}

lemma pos_le (h : Holds e p) : e.pos ≤ e.len := by
  rw [h.pos, h.len]
  exact h.cursor_le

lemma len_le (h : Holds e p) : e.len ≤ LINE_BUF := by
  rw [h.len]
  exact h.good.2

lemma textOf_content (h : Holds e p) : textOf e.content = p.line := by
  rw [h.content, textOf_printable h.good.1]

lemma textOf_before (h : Holds e p) : textOf (e.buf.toList.take e.pos) = p.line.take p.cursor := by
  have hbefore : e.buf.toList.take e.pos = (p.line.take p.cursor).map byteOf := by
    rw [List.map_take, ← h.content, LineEditor.content, List.take_take, h.pos, h.len,
      Nat.min_eq_left h.cursor_le]
  rw [hbefore, textOf_printable fun c hc => h.good.1 c (List.mem_of_mem_take hc)]

lemma withEsc (h : Holds e p) (esc : EscState) : Holds { e with esc := esc } { p with esc := esc } :=
  { h with esc := rfl }

lemma withDisplay (h : Holds e p) (n : ℕ) : Holds { e with displayLen := n } p := { h with }

/-- The cursor anywhere in the line. -/
lemma move (h : Holds e p) {pos : ℕ} (hpos : pos ≤ p.line.length) :
    Holds { e with pos := pos } { p with cursor := pos } :=
  { h with pos := rfl, cursor_le := hpos }

lemma insert (h : Holds e p) {c : Char} (hc : isPrintable c) (hroom : e.len < LINE_BUF) :
    Holds (e.insert (byteOf c)).1
      { p with line := p.line.insertIdx p.cursor c, cursor := p.cursor + 1 } := by
  have hlength : (p.line.insertIdx p.cursor c).length = p.line.length + 1 :=
    List.length_insertIdx_of_le_length h.cursor_le _
  have hcontent := content_insert h.pos_le hroom (byteOf c)
  rw [LineEditor.insert, if_neg (by omega)] at hcontent ⊢
  refine { h with content := ?_, len := ?_, pos := ?_, cursor_le := ?_, good := ⟨?_, ?_⟩ }
  · rw [hcontent, h.content, h.pos, List.map_insertIdx]
  · rw [hlength]
    exact congrArg (· + 1) h.len
  · exact congrArg (· + 1) h.pos
  · dsimp only
    rw [hlength]
    exact Nat.succ_le_succ h.cursor_le
  · intro c' hc'
    rcases (List.mem_insertIdx h.cursor_le).mp hc' with rfl | hmem
    · exact hc
    · exact h.good.1 c' hmem
  · dsimp only
    rw [hlength, ← h.len]
    exact hroom

/-- A line with a byte less. -/
lemma good_eraseIdx (h : Holds e p) (i : ℕ) : Good (p.line.eraseIdx i) :=
  ⟨fun c hc => h.good.1 c (List.mem_of_mem_eraseIdx hc),
    (List.length_eraseIdx_le _ _).trans h.good.2⟩

lemma deleteBefore (h : Holds e p) (hpos : 0 < e.pos) :
    Holds e.deleteBefore.1
      { p with line := p.line.eraseIdx (p.cursor - 1), cursor := p.cursor - 1 } := by
  have hcursor : 0 < p.cursor := h.pos ▸ hpos
  have hle := h.cursor_le
  have hlength : (p.line.eraseIdx (p.cursor - 1)).length = p.line.length - 1 :=
    List.length_eraseIdx_of_lt (by omega)
  have hcontent := content_deleteBefore hpos h.pos_le h.len_le
  rw [LineEditor.deleteBefore, if_neg (by omega)] at hcontent ⊢
  refine { h with content := ?_, len := ?_, pos := ?_, cursor_le := ?_, good := h.good_eraseIdx _ }
  · rw [hcontent, h.content, h.pos, List.eraseIdx_map]
  · rw [hlength]
    exact congrArg (· - 1) h.len
  · exact congrArg (· - 1) h.pos
  · dsimp only
    rw [hlength]
    omega

lemma deleteAt (h : Holds e p) (hlt : e.pos < e.len) :
    Holds e.deleteAt.1 { p with line := p.line.eraseIdx p.cursor } := by
  have hcursor : p.cursor < p.line.length := h.pos ▸ h.len ▸ hlt
  have hlength : (p.line.eraseIdx p.cursor).length = p.line.length - 1 :=
    List.length_eraseIdx_of_lt hcursor
  have hcontent := content_deleteAt hlt h.len_le
  rw [LineEditor.deleteAt, if_neg (by omega)] at hcontent ⊢
  refine { h with content := ?_, len := ?_, cursor_le := ?_, good := h.good_eraseIdx _ }
  · rw [hcontent, h.content, h.pos, List.eraseIdx_map]
  · rw [hlength]
    exact congrArg (· - 1) h.len
  · dsimp only
    rw [hlength]
    omega

/-! ### Recall -/

/-- A line of the history in place of the line. -/
lemma bringBack (h : Holds e p) {n : ℕ} {draft : Text} (hn : n < e.history.count)
    (hdraft : Good draft) (hlen : e.savedLen = draft.length)
    (hsaved : e.savedBuf.toList.take e.savedLen = draft.map byteOf) :
    Holds ({ e with historyIdx := some n }.loadHistoryEntry n) (p.bringBack n draft) := by
  have hlines : n < p.lines.length := by
    have := h.keeps.1
    omega
  have hline : p.lines.getD n [] = p.lines[n] := List.getD_eq_getElem _ _ hlines
  have hgood : Good p.lines[n] := h.lines _ (List.getElem_mem _)
  have hget : e.history.get n = some p.lines[n] := by
    rw [h.keeps.get hn, List.getElem?_eq_getElem hlines]
  have hbytes := strBytes_printable hgood.1
  have hlength : (p.lines[n].map byteOf).length = p.lines[n].length := List.length_map _
  have hcopy := content_copyInto e.buf (hlength.trans_le hgood.2)
  rw [LineEditor.loadHistoryEntry]
  dsimp only
  rw [hget]
  dsimp only
  rw [hbytes, hlength, Nat.min_eq_left hgood.2, List.take_of_length_le hlength.le]
  rw [Plain.bringBack, Plain.replace, hline]
  exact
    { h with
      content := by rwa [hlength] at hcopy
      len := rfl
      pos := rfl
      cursor_le := Nat.le_refl _
      good := hgood
      recalls := ⟨rfl, hn, hdraft, hlen, hsaved⟩ }

lemma historyUp (h : Holds e p) : Holds e.historyUp p.up := by
  have hcount := h.keeps.1
  have hrecalls := h.recalls
  rw [LineEditor.historyUp, Plain.up]
  cases hp : p.recalled with
  | none =>
    rw [hp] at hrecalls
    have hidx : e.historyIdx = none := hrecalls
    rw [hidx]
    dsimp only
    by_cases hlines : p.lines = []
    · rw [if_pos hlines, if_pos (by rw [hcount, hlines]; rfl)]
      exact h
    · have hpos : 0 < p.lines.length := List.length_pos_iff.mpr hlines
      have hcount0 : 0 < e.history.count := by
        rw [hcount]
        exact Nat.lt_min.mpr ⟨hpos, by decide⟩
      rw [if_neg hlines, if_neg (Nat.ne_of_gt hcount0)]
      have hset : Holds { e with savedBuf := e.buf, savedLen := e.len } p :=
        { h with recalls := by rw [hp]; exact hidx }
      exact hset.bringBack hcount0 h.good h.len h.content
  | some kept =>
    obtain ⟨n, draft⟩ := kept
    rw [hp] at hrecalls
    obtain ⟨hidx, hn, hdraft, hlen, hsaved⟩ := hrecalls
    rw [hidx]
    dsimp only
    by_cases hnext : n + 1 < e.history.count
    · rw [if_neg (by omega), if_pos (by rwa [Plain.reach, ← hcount])]
      exact h.bringBack hnext hdraft hlen hsaved
    · rw [if_pos (by omega), if_neg (by rwa [Plain.reach, ← hcount])]
      exact h

lemma historyDown (h : Holds e p) : Holds e.historyDown p.down := by
  have hrecalls := h.recalls
  rw [LineEditor.historyDown, Plain.down]
  cases hp : p.recalled with
  | none =>
    rw [hp] at hrecalls
    have hidx : e.historyIdx = none := hrecalls
    rw [hidx]
    exact h
  | some kept =>
    obtain ⟨n, draft⟩ := kept
    rw [hp] at hrecalls
    obtain ⟨hidx, hn, hdraft, hlen, hsaved⟩ := hrecalls
    rw [hidx]
    cases n with
    | zero =>
      exact
        { h with
          content := hsaved
          len := hlen
          pos := hlen
          cursor_le := Nat.le_refl _
          good := hdraft
          recalls := rfl }
    | succ n => exact h.bringBack (by omega) hdraft hlen hsaved

end Holds

lemma displayLen_loadHistoryEntry (e : LineEditor) (idx : ℕ) :
    (e.loadHistoryEntry idx).displayLen = e.displayLen := by
  rw [LineEditor.loadHistoryEntry]
  split <;> rfl

lemma displayLen_historyUp (e : LineEditor) : e.historyUp.displayLen = e.displayLen := by
  rw [LineEditor.historyUp]
  split <;> split
  · rfl
  · exact displayLen_loadHistoryEntry _ _
  · rfl
  · exact displayLen_loadHistoryEntry _ _

lemma displayLen_historyDown (e : LineEditor) : e.historyDown.displayLen = e.displayLen := by
  rw [LineEditor.historyDown]
  split
  · rfl
  · rfl
  · exact displayLen_loadHistoryEntry _ _

/-! ### The screen -/

/-- Within a call, the terminal shows the prompt and the line. -/
structure Within (call : ReadLine) (desk : Desk) (p : Plain) : Prop where
  holds : Holds desk.editor p
  display : desk.editor.displayLen = p.line.length
  prompt : ∀ c ∈ call.prompt, isPrintable c
  shows : Shows desk.screen (call.prompt ++ p.line) (call.prompt.length + p.cursor)

/-- A reply reads on, with the line on the screen. -/
def LeadsTo (call : ReadLine) (screen : Screen) (reply : Reply) (p : Plain) : Prop :=
  reply.result = none ∧ Within call ⟨reply.editor, feed screen reply.sent⟩ p

section Reply

variable {call : ReadLine} {e : LineEditor} {s : Screen} {p : Plain}

/-- A repaint shows the line, whatever line it is sent over. -/
lemma repaint_leadsTo (h : Holds e p) (hprompt : ∀ c ∈ call.prompt, isPrintable c) {old : Text}
    {cursor : ℕ} (hold : e.displayLen = old.length) (hshows : Shows s (call.prompt ++ old) cursor) :
    LeadsTo call s (call.repaint e) p := by
  have hline : ∀ c ∈ call.prompt ++ p.line, isPrintable c := by
    intro c hc
    exact (List.mem_append.mp hc).elim (hprompt c) (h.good.1 c)
  have hsent : (call.repaint e).sent =
      CR :: (call.prompt ++ p.line) ++ List.replicate (old.length - p.line.length) ' ' ++
        List.replicate (p.line.length - p.cursor + (old.length - p.line.length)) BS := by
    rw [ReadLine.repaint, LineEditor.redraw, LineEditor.redrawWithPrevLen, h.textOf_content, hold,
      h.len, h.pos]
    simp
  have hle := h.cursor_le
  have hcol : (call.prompt ++ p.line).length + (old.length - p.line.length) -
      (p.line.length - p.cursor + (old.length - p.line.length)) =
        call.prompt.length + p.cursor := by
    rw [List.length_append]
    omega
  refine ⟨rfl, h.withDisplay _, h.len, hprompt, ?_⟩
  dsimp only
  rw [hsent, ← hcol]
  exact hshows.repaint hline (by simp; omega)

namespace Within

lemma silent (h : Within call ⟨e, s⟩ p) : LeadsTo call s (ReadLine.silent e) p := ⟨rfl, h⟩

lemma withEsc (h : Within call ⟨e, s⟩ p) (esc : EscState) :
    Within call ⟨{ e with esc := esc }, s⟩ { p with esc := esc } :=
  { h with holds := h.holds.withEsc esc }

/-- The line repainted over itself with a change. -/
lemma change (h : Within call ⟨e, s⟩ p) {e' : LineEditor} {p' : Plain} (h' : Holds e' p')
    (hdisplay : e'.displayLen = e.displayLen) : LeadsTo call s (call.repaint e') p' :=
  repaint_leadsTo h' h.prompt (hdisplay.trans h.display) h.shows

lemma type (h : Within call ⟨e, s⟩ p) {c : Char} (hc : isPrintable c) :
    LeadsTo call s (call.type e (byteOf c)) (p.press call.withHistory (.char c)) := by
  have hlen : e.len = p.line.length := h.holds.len
  rw [Plain.press]
  by_cases hroom : p.line.length < LINE_BUF
  · have hinsert : e.insert (byteOf c) = ((e.insert (byteOf c)).1, true) := by
      rw [LineEditor.insert, if_neg (by omega)]
    have hholds := h.holds.insert hc (by omega : e.len < LINE_BUF)
    have hdisplay : (e.insert (byteOf c)).1.displayLen = e.displayLen := by
      rw [LineEditor.insert, if_neg (by omega)]
    rw [if_pos hroom, ReadLine.type, hinsert]
    dsimp only
    split
    · next hend =>
      -- at the line's end the byte is echoed
      have hcursor : p.cursor = p.line.length := by rw [← h.holds.pos, ← h.holds.len, hend]
      have hline : p.line.insertIdx p.line.length c = p.line ++ [c] := List.insertIdx_length_self
      refine ⟨rfl, hholds.withDisplay _, hholds.len, h.prompt, ?_⟩
      have hshows := h.shows
      rw [hcursor, ← List.length_append] at hshows
      have happend := hshows.append hc
      have hecho : textOf [byteOf c] = [c] := textOf_byteOf hc
      dsimp only
      rw [hecho, hcursor, hline, ← List.append_assoc, ← Nat.add_assoc, ← List.length_append]
      exact happend
    · exact h.change hholds hdisplay
  · have hinsert : e.insert (byteOf c) = (e, false) := by rw [LineEditor.insert, if_pos (by omega)]
    rw [if_neg hroom, ReadLine.type, hinsert]
    exact h.silent

lemma backspace (h : Within call ⟨e, s⟩ p) :
    LeadsTo call s (call.backspace e) (p.press call.withHistory .backspace) := by
  have hpos : e.pos = p.cursor := h.holds.pos
  have hlen : e.len = p.line.length := h.holds.len
  rw [Plain.press]
  by_cases hstart : 0 < p.cursor
  · have hdelete : e.deleteBefore = (e.deleteBefore.1, true) := by
      rw [LineEditor.deleteBefore, if_neg (by omega)]
    have hholds := h.holds.deleteBefore (by omega : 0 < e.pos)
    have hdisplay : e.deleteBefore.1.displayLen = e.displayLen := by
      rw [LineEditor.deleteBefore, if_neg (by omega)]
    rw [if_pos hstart, ReadLine.backspace, hdelete]
    dsimp only
    split
    · next hend =>
      -- at the line's end the character is rubbed out
      have hcursor : p.cursor = p.line.length := by
        have hend' : p.cursor - 1 = (p.line.eraseIdx (p.cursor - 1)).length := by
          rw [← hholds.len, ← hend, hholds.pos]
        have hle : p.cursor ≤ p.line.length := h.holds.cursor_le
        rw [List.length_eraseIdx_of_lt (by omega)] at hend'
        omega
      refine ⟨rfl, hholds.withDisplay _, hholds.len, h.prompt, ?_⟩
      obtain ⟨line, c, hline⟩ := List.eq_nil_or_concat p.line |>.resolve_left
        (List.length_pos_iff.mp (hcursor ▸ hstart))
      rw [List.concat_eq_append] at hline
      have hlast : p.cursor - 1 = line.length := by
        rw [hcursor, hline]
        simp
      have herase : p.line.eraseIdx line.length = line := by
        rw [hline, List.eraseIdx_append_of_length_le (Nat.le_refl _), Nat.sub_self]
        simp
      have hshows := h.shows
      dsimp only at hshows ⊢
      rw [hlast, herase, ← List.length_append]
      rw [show p.cursor = line.length + 1 by omega, hline, ← List.append_assoc, ← Nat.add_assoc,
        ← List.length_append] at hshows
      exact hshows.rubOut
    · exact h.change hholds hdisplay
  · have hdelete : e.deleteBefore = (e, false) := by
      rw [LineEditor.deleteBefore, if_pos (by omega)]
    rw [if_neg hstart, ReadLine.backspace, hdelete]
    exact h.silent

lemma delete (h : Within call ⟨e, s⟩ p) :
    LeadsTo call s (call.delete e) (p.press call.withHistory .delete) := by
  have hpos : e.pos = p.cursor := h.holds.pos
  have hlen : e.len = p.line.length := h.holds.len
  rw [Plain.press]
  by_cases hend : p.cursor < p.line.length
  · have hdelete : e.deleteAt = (e.deleteAt.1, true) := by
      rw [LineEditor.deleteAt, if_neg (by omega)]
    have hdisplay : e.deleteAt.1.displayLen = e.displayLen := by
      rw [LineEditor.deleteAt, if_neg (by omega)]
    rw [ReadLine.delete, hdelete]
    exact h.change (h.holds.deleteAt (by omega : e.pos < e.len)) hdisplay
  · have hdelete : e.deleteAt = (e, false) := by rw [LineEditor.deleteAt, if_pos (by omega)]
    rw [ReadLine.delete, hdelete, List.eraseIdx_of_length_le (Nat.le_of_not_lt hend)]
    exact h.silent

lemma left (h : Within call ⟨e, s⟩ p) :
    LeadsTo call s (ReadLine.left e) (p.press call.withHistory .left) := by
  have hpos : e.pos = p.cursor := h.holds.pos
  rw [ReadLine.left, Plain.press, hpos]
  split
  · next hstart =>
    have hle : p.cursor ≤ p.line.length := h.holds.cursor_le
    refine ⟨rfl, h.holds.move (by omega), h.display, h.prompt, Shows.back ?_⟩
    dsimp only
    rw [Nat.add_assoc, Nat.sub_add_cancel hstart]
    exact h.shows
  · next hstart =>
    rw [show p.cursor - 1 = p.cursor by omega]
    exact h.silent

lemma right (h : Within call ⟨e, s⟩ p) :
    LeadsTo call s (ReadLine.right e) (p.press call.withHistory .right) := by
  have hpos : e.pos = p.cursor := h.holds.pos
  have hlen : e.len = p.line.length := h.holds.len
  rw [ReadLine.right, Plain.press, hpos]
  by_cases hend : p.cursor < p.line.length
  · have hbyte : e.buf.toList.getD p.cursor 0 = byteOf p.line[p.cursor] := by
      have hcontent : e.content[p.cursor]? = (p.line.map byteOf)[p.cursor]? := by
        rw [h.holds.content]
      rw [getElem?_content, if_pos (by omega), List.getElem?_map, List.getElem?_eq_getElem hend]
        at hcontent
      rw [List.getD_eq_getElem?_getD, hcontent]
      rfl
    have hc : isPrintable p.line[p.cursor] := h.holds.good.1 _ (List.getElem_mem _)
    rw [if_pos (hlen.symm ▸ hend), hbyte, textOf_byteOf hc, Nat.min_eq_left hend]
    refine ⟨rfl, h.holds.move hend, h.display, h.prompt, h.shows.over hc ?_⟩
    rw [List.getElem?_append_right (Nat.le_add_right _ _), Nat.add_sub_cancel_left,
      List.getElem?_eq_getElem hend]
  · have hle : p.cursor ≤ p.line.length := h.holds.cursor_le
    rw [if_neg (hlen.symm ▸ hend), show min (p.cursor + 1) p.line.length = p.cursor by omega]
    exact h.silent

/-- Home and End send the line up to the cursor. -/
lemma jump (h : Within call ⟨e, s⟩ p) {pos : ℕ} (hle : pos ≤ p.line.length) :
    LeadsTo call s ⟨{ e with pos := pos }, { e with pos := pos }.reposition call.prompt, none⟩
      { p with cursor := pos } := by
  have hholds := h.holds.move hle
  refine ⟨rfl, hholds, h.display, h.prompt, ?_⟩
  have hpre : ∀ c ∈ call.prompt ++ p.line.take pos, isPrintable c := by
    intro c hc
    exact (List.mem_append.mp hc).elim (h.prompt c) fun hmem =>
      h.holds.good.1 c (List.mem_of_mem_take hmem)
  have hline : (call.prompt ++ p.line.take pos) ++ p.line.drop pos = call.prompt ++ p.line := by
    rw [List.append_assoc, List.take_append_drop]
  have hshows := h.shows.reposition hline hpre
  rw [List.length_append, List.length_take, Nat.min_eq_left hle] at hshows
  dsimp only
  rw [LineEditor.reposition, hholds.textOf_before]
  exact hshows

lemma home (h : Within call ⟨e, s⟩ p) :
    LeadsTo call s (call.home e) (p.press call.withHistory .home) := by
  have hpos : e.pos = p.cursor := h.holds.pos
  rw [ReadLine.home, Plain.press]
  split
  · exact h.jump (Nat.zero_le _)
  · next hstart =>
    rw [show (0 : ℕ) = p.cursor by omega]
    exact h.silent

lemma toEnd (h : Within call ⟨e, s⟩ p) :
    LeadsTo call s (call.toEnd e) (p.press call.withHistory .toEnd) := by
  have hpos : e.pos = p.cursor := h.holds.pos
  have hlen : e.len = p.line.length := h.holds.len
  rw [ReadLine.toEnd, Plain.press]
  split
  · rw [← hlen]
    exact h.jump hlen.le
  · next hend =>
    have hle : p.cursor ≤ p.line.length := h.holds.cursor_le
    rw [show p.line.length = p.cursor by omega]
    exact h.silent

lemma up (h : Within call ⟨e, s⟩ p) :
    LeadsTo call s (if call.withHistory then call.repaint e.historyUp else ReadLine.silent e)
      (p.press call.withHistory .up) := by
  rw [Plain.press]
  split
  · exact h.change h.holds.historyUp (displayLen_historyUp e)
  · exact h.silent

lemma down (h : Within call ⟨e, s⟩ p) :
    LeadsTo call s (if call.withHistory then call.repaint e.historyDown else ReadLine.silent e)
      (p.press call.withHistory .down) := by
  rw [Plain.press]
  split
  · exact h.change h.holds.historyDown (displayLen_historyDown e)
  · exact h.silent

end Within

end Reply

end OneRom.EditScreen
