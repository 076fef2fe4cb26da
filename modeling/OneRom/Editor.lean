import OneRom.Calls
import OneRom.HexFile
import OneRom.OtpEntry
import OneRom.SlotArg
import OneRom.Terminal

/-!
One ROM Lab's line editor. It reads a line byte by byte and keeps the terminal's line like its own
with carriage returns, backspaces and text alone.

The indices of its buffer are in bounds wherever `pos ≤ len ≤ LINE_BUF`, which the editor keeps.
-/

namespace OneRom.Editor

open OneRom.Calls OneRom.OtpEntry OneRom.SlotArg OneRom.Terminal
open OneRom.HexFile (ascii)

def LINE_BUF : ℕ := 80
def HISTORY_CAP : ℕ := 16

inductive EscState
  | normal
  | gotEsc
  | gotBracket
  | gotBracket3
  deriving DecidableEq, Repr

/-! ### History -/

structure History where
  entries : Vector (Option Text) HISTORY_CAP
  /-- The next slot that is written. -/
  head : Fin HISTORY_CAP
  count : ℕ

namespace History

def new : History := ⟨Vector.replicate HISTORY_CAP none, ⟨0, by decide⟩, 0⟩

def slot (h : History) (idx : ℕ) : Fin HISTORY_CAP :=
  ⟨(h.head + HISTORY_CAP - 1 - idx) % HISTORY_CAP, Nat.mod_lt _ (by decide)⟩

/-- The `idx`th newest line. -/
def get (h : History) (idx : ℕ) : Option Text :=
  if h.count ≤ idx then none else h.entries.get (h.slot idx)

def push (h : History) (line : Text) : History :=
  if line = [] then h
  else if 0 < h.count ∧ h.get 0 = some line then h
  else
    { entries := h.entries.set h.head (some line)
      head := ⟨(h.head + 1) % HISTORY_CAP, Nat.mod_lt _ (by decide)⟩
      count := if h.count < HISTORY_CAP then h.count + 1 else h.count }

end History

/-! ### The buffer -/

abbrev Buf : Type := Vector UInt8 LINE_BUF

structure LineEditor where
  buf : Buf
  len : ℕ
  pos : ℕ
  esc : EscState
  history : History
  /-- The line of the history that the cursor is in, if it isn't in the one in progress. -/
  historyIdx : Option ℕ
  /-- The line in progress, when the cursor left it. -/
  savedBuf : Buf
  savedLen : ℕ
  /-- The length of what the terminal shows after the prompt. -/
  displayLen : ℕ

/-- The text of some bytes, or none where they are not UTF-8. -/
def textOf (bytes : List UInt8) : Text := ((fromUtf8 bytes).map String.toList).getD []

/-- `for i in start..stop { buf[i - 1] = buf[i] }` -/
def shiftDown (buf : Buf) (start stop : ℕ) : Buf :=
  (List.range' start (stop - start)).foldl
    (fun buf i => buf.setIfInBounds (i - 1) (buf.toList.getD i 0)) buf

/-- `while i > pos { buf[i] = buf[i - 1]; i -= 1 }` -/
def shiftUp (buf : Buf) (pos : ℕ) : ℕ → Buf
  | 0 => buf
  | i + 1 =>
    if pos < i + 1 then shiftUp (buf.setIfInBounds (i + 1) (buf.toList.getD i 0)) pos i else buf

namespace LineEditor

def new : LineEditor where
  buf := Vector.replicate LINE_BUF 0
  len := 0
  pos := 0
  esc := .normal
  history := .new
  historyIdx := none
  savedBuf := Vector.replicate LINE_BUF 0
  savedLen := 0
  displayLen := 0

def content (e : LineEditor) : List UInt8 := e.buf.toList.take e.len

/-- Inserts a byte before the cursor, where there is room. -/
def insert (e : LineEditor) (b : UInt8) : LineEditor × Bool :=
  if LINE_BUF ≤ e.len then (e, false)
  else ({ e with
    buf := (shiftUp e.buf e.pos e.len).setIfInBounds e.pos b
    pos := e.pos + 1
    len := e.len + 1 }, true)

def deleteBefore (e : LineEditor) : LineEditor × Bool :=
  if e.pos = 0 then (e, false)
  else ({ e with buf := shiftDown e.buf e.pos e.len, pos := e.pos - 1, len := e.len - 1 }, true)

def deleteAt (e : LineEditor) : LineEditor × Bool :=
  if e.len ≤ e.pos then (e, false)
  else ({ e with buf := shiftDown e.buf (e.pos + 1) e.len, len := e.len - 1 }, true)

/-- Overwrites the start of a buffer. -/
def copyInto (buf : Buf) (bytes : List UInt8) : Buf :=
  bytes.zipIdx.foldl (fun buf (b, i) => buf.setIfInBounds i b) buf

def loadHistoryEntry (e : LineEditor) (idx : ℕ) : LineEditor :=
  match e.history.get idx with
  | none => e
  | some line =>
    let bytes := strBytes (String.ofList line)
    let n := min bytes.length LINE_BUF
    { e with buf := copyInto e.buf (bytes.take n), len := n, pos := n }

def historyUp (e : LineEditor) : LineEditor :=
  match e.historyIdx with
  | none =>
    if e.history.count = 0 then e
    else
      { e with savedBuf := e.buf, savedLen := e.len, historyIdx := some 0 }.loadHistoryEntry 0
  | some idx =>
    if e.history.count ≤ idx + 1 then e
    else { e with historyIdx := some (idx + 1) }.loadHistoryEntry (idx + 1)

def historyDown (e : LineEditor) : LineEditor :=
  match e.historyIdx with
  | none => e
  | some 0 =>
    { e with historyIdx := none, buf := e.savedBuf, len := e.savedLen, pos := e.savedLen }
  | some (idx + 1) => { e with historyIdx := some idx }.loadHistoryEntry idx

/-! ### The display -/

/-- What a full repaint sends over a line of `prevLen` bytes. -/
def redrawWithPrevLen (e : LineEditor) (prompt : Text) (prevLen : ℕ) : Text :=
  let clearTail := prevLen - e.len
  let moveBack := (e.len - e.pos) + clearTail
  CR :: prompt ++ textOf e.content ++ List.replicate clearTail ' ' ++ List.replicate moveBack BS

/-- A full repaint, and what it sends. -/
def redraw (e : LineEditor) (prompt : Text) : LineEditor × Text :=
  ({ e with displayLen := e.len }, e.redrawWithPrevLen prompt e.displayLen)

/-- What Home and End send: the line up to the cursor. -/
def reposition (e : LineEditor) (prompt : Text) : Text :=
  CR :: prompt ++ textOf (e.buf.toList.take e.pos)

end LineEditor

/-! ### Reading a line -/

/-- A call of `read_line`. -/
structure ReadLine where
  prompt : Text
  withHistory : Bool

/-- What a byte does: the editor after it, what it sends, and the line, or the cancellation, that
it ends the call with. -/
structure Reply where
  editor : LineEditor
  sent : Text
  result : Option (Option Text)

namespace ReadLine

variable (call : ReadLine)

def begin (e : LineEditor) : LineEditor :=
  { e with
    buf := Vector.replicate LINE_BUF 0
    len := 0
    pos := 0
    esc := .normal
    historyIdx := none
    displayLen := 0 }

/-- Sends nothing, and reads on. -/
def silent (e : LineEditor) : Reply := ⟨e, [], none⟩

/-- Repaints the line. -/
def repaint (e : LineEditor) : Reply := ⟨(e.redraw call.prompt).1, (e.redraw call.prompt).2, none⟩

def enter (e : LineEditor) : Reply :=
  let line := trim (textOf e.content)
  ⟨{ e with
      history := if call.withHistory then e.history.push line else e.history
      displayLen := 0 },
    [], some (some line)⟩

def cancel (e : LineEditor) : Reply :=
  ⟨{ e with displayLen := 0 }, ['^', 'C', '\r', '\n'], some none⟩

def backspace (e : LineEditor) : Reply :=
  match e.deleteBefore with
  | (e, false) => silent e
  | (e, true) =>
    if e.pos = e.len then ⟨{ e with displayLen := e.len }, [BS, ' ', BS], none⟩
    else call.repaint e

/-- Inserts any byte from 0x20 on, and echoes the ones that are text on their own. -/
def type (e : LineEditor) (b : UInt8) : Reply :=
  match e.insert b with
  | (e', false) => silent e'
  | (e', true) =>
    if e.pos = e.len then ⟨{ e' with displayLen := e'.len }, textOf [b], none⟩
    else call.repaint e'

def normal (e : LineEditor) (b : UInt8) : Reply :=
  if b = 0x0D then call.enter e
  else if b = 0x0A then silent e
  else if b = 0x03 then cancel e
  else if b = 0x1B then silent { e with esc := .gotEsc }
  else if b = 0x08 ∨ b = 0x7F then call.backspace e
  else if 0x20 ≤ b then call.type e b
  else silent e

def right (e : LineEditor) : Reply :=
  if e.pos < e.len then ⟨{ e with pos := e.pos + 1 }, textOf [e.buf.toList.getD e.pos 0], none⟩
  else silent e

def left (e : LineEditor) : Reply :=
  if 0 < e.pos then ⟨{ e with pos := e.pos - 1 }, [BS], none⟩ else silent e

def home (e : LineEditor) : Reply :=
  if 0 < e.pos then ⟨{ e with pos := 0 }, { e with pos := 0 }.reposition call.prompt, none⟩
  else silent e

def toEnd (e : LineEditor) : Reply :=
  if e.pos < e.len then
    ⟨{ e with pos := e.len }, { e with pos := e.len }.reposition call.prompt, none⟩
  else silent e

/-- The final byte of a sequence. -/
def bracket (e : LineEditor) (b : UInt8) : Reply :=
  let e := { e with esc := .normal }
  if b = ascii 'A' then if call.withHistory then call.repaint e.historyUp else silent e
  else if b = ascii 'B' then if call.withHistory then call.repaint e.historyDown else silent e
  else if b = ascii 'C' then right e
  else if b = ascii 'D' then left e
  else if b = ascii 'H' then call.home e
  else if b = ascii 'F' then call.toEnd e
  else if b = ascii '3' then silent { e with esc := .gotBracket3 }
  else silent e

def delete (e : LineEditor) : Reply :=
  match e.deleteAt with
  | (e, false) => silent e
  | (e, true) => call.repaint e

def recv (e : LineEditor) (b : UInt8) : Reply :=
  match e.esc with
  | .normal => call.normal e b
  | .gotEsc => silent { e with esc := if b = ascii '[' then .gotBracket else .normal }
  | .gotBracket => call.bracket e b
  | .gotBracket3 =>
    if b = ascii '~' then call.delete { e with esc := .normal }
    else silent { e with esc := .normal }

end ReadLine

/-- The editor, and the line of the terminal that it writes to. -/
structure Desk where
  editor : LineEditor
  screen : Screen

/-- Calls of `read_line`, each on a fresh line, with all that they send delivered. -/
def lineEditor : Reader ReadLine UInt8 (Option Text) Desk where
  start call desk := ⟨ReadLine.begin desk.editor, feed blank call.prompt⟩
  step call desk b :=
    let reply := call.recv desk.editor b
    (⟨reply.editor, feed desk.screen reply.sent⟩, reply.result)

end OneRom.Editor
