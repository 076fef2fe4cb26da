import OneRom.FallbackMatch
import OneRom.RamSlot

/-!
Waiting for a knock, in the captures that come in through a ring.

The ring is filled while it is read, so the code's steps and the captures come in any order.
`waitForKnock_iff` says for which knocks the wait ends where the knock is first heard, with the
captures that follow it.
-/

namespace OneRom.KnockWait

open OneRom.AddrMap OneRom.FallbackMatch OneRom.Hw OneRom.PinMaps OneRom.RomSlot OneRom.SlotLayout
open OneRom.RamSlot (chip2316)

/-! ### The wait -/

/-- How many bits a capture has. -/
def captureBits (dataSize : ℕ) : ℕ :=
  match dataSize with
  | 8 => 8
  | 16 => 16
  | _ => 32

/-- What is waited for. A knock has a value at least. -/
structure Wait where
  knock : OraKnock
  dataSize : ℕ
  ringEntriesLog2 : ℕ
  debounceCs : Bool
  payloadLen : ℕ
  /-- The entry of the ring that is read first. -/
  startPos : ℕ

inductive Phase
  | detect (knockPos : ℕ)
  | collect (payload : List ℕ)
  | done (payload : List ℕ)

/-- The ring and what the code has of it. The captures so far, and how many of them have been read,
are told apart by nothing that the code does. -/
structure State where
  ring : ℕ → ℕ
  writePos : ℕ
  readPtr : ℕ
  /-- The end of what was captured when the code last looked. -/
  wp : Option ℕ
  phase : Phase
  captures : List ℕ
  consumed : ℕ

namespace Wait

variable (w : Wait)

def ringEntries : ℕ := 2 ^ w.ringEntriesLog2

def debounce (entry : ℕ) : Bool := w.knock.xMask ≠ 0 ∧ entry &&& w.knock.xMask ≠ 0

def ignored (entry : ℕ) : Bool := w.debounceCs && w.debounce entry

/-- The next entry of the ring. -/
def advance (pos : ℕ) : ℕ := if w.ringEntries ≤ pos + 1 then 0 else pos + 1

def nextPos (knockPos entry : ℕ) : ℕ :=
  if w.knock.matchValues[knockPos]? = some (entry &&& w.knock.mask) then knockPos + 1
  else if w.knock.matchValues[0]? = some (entry &&& w.knock.mask) then 1 else 0

/-- An entry is read. -/
def read (s : State) (phase : Phase) (wp : Option ℕ) : State :=
  { s with
    readPtr := w.advance s.readPtr
    wp := wp
    phase := phase
    consumed := s.consumed + 1 }

/-- A step of the code: it looks how far the ring is filled, or reads an entry. -/
def codeStep (s : State) : State :=
  match s.phase, s.wp with
  | .detect _, none => { s with wp := some s.writePos }
  | .detect knockPos, some wp =>
    if s.readPtr = wp then { s with wp := none }
    else
      let entry := s.ring s.readPtr
      if w.ignored entry then w.read s (.detect knockPos) (some wp)
      else if w.knock.matchValues.length ≤ w.nextPos knockPos entry then w.read s (.collect []) none
      else w.read s (.detect (w.nextPos knockPos entry)) (some wp)
  | .collect payload, none =>
    if payload.length < w.payloadLen then { s with wp := some s.writePos }
    else { s with phase := .done payload }
  | .collect payload, some wp =>
    if s.readPtr = wp ∨ w.payloadLen ≤ payload.length then { s with wp := none }
    else
      let entry := s.ring s.readPtr
      if w.ignored entry then w.read s (.collect payload) (some wp)
      else w.read s (.collect (payload ++ [entry])) (some wp)
  | .done _, _ => s

/-- A capture comes in. -/
def capture (s : State) (entry : ℕ) : State :=
  { s with
    ring := Function.update s.ring s.writePos entry
    writePos := w.advance s.writePos
    captures := s.captures ++ [entry] }

/-- The states of a wait. A capture comes in where the ring isn't full: an entry is left over, as a
ring whose last entry is written reads as an empty one. -/
inductive Reachable : State → Prop
  | start (ring : ℕ → ℕ) : Reachable
      ⟨ring, w.startPos % w.ringEntries, w.startPos % w.ringEntries, none, .detect 0, [], 0⟩
  | code {s : State} : Reachable s → Reachable (w.codeStep s)
  | capture {s : State} (entry : ℕ) : Reachable s → entry < 2 ^ captureBits w.dataSize →
      w.advance s.writePos ≠ s.readPtr → Reachable (w.capture s entry)

/-! ### What is waited for -/

/-- The captures that aren't ignored. -/
def kept (captures : List ℕ) : List ℕ := captures.filter fun entry => !w.ignored entry

/-- What a knock is compared with. -/
def seen (captures : List ℕ) : List ℕ := (w.kept captures).map (· &&& w.knock.mask)

/-- The last captures of the first `n` are the knock. -/
def Heard (captures : List ℕ) (n : ℕ) : Prop := w.knock.matchValues <:+ w.seen (captures.take n)

/-- The knock is heard after `n` captures, and not before. -/
def FirstHeard (captures : List ℕ) (n : ℕ) : Prop :=
  w.Heard captures n ∧ ∀ i < n, ¬w.Heard captures i

/-- The captures from `d` up to `c` that aren't ignored. -/
def between (captures : List ℕ) (d c : ℕ) : List ℕ := w.kept ((captures.take c).drop d)

/-- The code detects the knock where it is first heard, and returns the captures that follow it. -/
def Right (s : State) : Prop :=
  match s.phase with
  | .detect _ => ∀ i ≤ s.consumed, ¬w.Heard s.captures i
  | .collect payload => ∃ d ≤ s.consumed, w.FirstHeard s.captures d ∧
      payload = w.between s.captures d s.consumed ∧ payload.length ≤ w.payloadLen
  | .done payload => ∃ d ≤ s.consumed, w.FirstHeard s.captures d ∧
      payload = w.between s.captures d s.consumed ∧ payload.length = w.payloadLen ∧
      (∀ c, d ≤ c → c < s.consumed → (w.between s.captures d c).length < w.payloadLen) ∧
      s.readPtr = (w.startPos + s.consumed) % w.ringEntries

/-- The knock and what follows it have been captured. -/
def Complete (captures : List ℕ) : Prop :=
  ∃ d c, d ≤ c ∧ c ≤ captures.length ∧ w.Heard captures d ∧
    w.payloadLen ≤ (w.between captures d c).length

end Wait

/-- Whatever the ring, the payload and the captures, a wait is right, and ends where all it waits
for has been captured. -/
def KnockExact (knock : OraKnock) (dataSize : ℕ) : Prop :=
  ∀ w : Wait, w.knock = knock → w.dataSize = dataSize → ∀ s, w.Reachable s →
    w.Right s ∧ (w.Complete s.captures → ∃ n payload, (w.codeStep^[n] s).phase = .done payload)

/-! ### The ring -/

section Ring

variable {w : Wait} {s : State}

lemma ringEntries_pos (w : Wait) : 0 < w.ringEntries := Nat.two_pow_pos _

lemma advance_mod (w : Wait) (n : ℕ) : w.advance (n % w.ringEntries) = (n + 1) % w.ringEntries := by
  have hlt := Nat.mod_lt n (ringEntries_pos w)
  have hmod : (n + 1) % w.ringEntries = (n % w.ringEntries + 1) % w.ringEntries :=
    (Nat.mod_add_mod ..).symm
  rw [Wait.advance, hmod]
  split_ifs with hlast
  · rw [show n % w.ringEntries + 1 = w.ringEntries by omega, Nat.mod_self]
  · exact (Nat.mod_eq_of_lt (by omega)).symm

/-- Captures that are in the ring together have entries of their own. -/
lemma mod_inj {N a i j : ℕ} (hij : i ≤ j) (hlt : j - i < N) (h : (a + i) % N = (a + j) % N) :
    i = j := by
  have hdvd := (Nat.modEq_iff_dvd' (by omega)).mp (show a + i ≡ a + j [MOD N] from h)
  rw [show a + j - (a + i) = j - i by omega] at hdvd
  have := Nat.eq_zero_of_dvd_of_lt hdvd hlt
  omega

/-- The ring holds the captures that haven't been read, and the code's places are in it. -/
structure RingOk (w : Wait) (s : State) : Prop where
  le : s.consumed ≤ s.captures.length
  room : s.captures.length - s.consumed < w.ringEntries
  writePos : s.writePos = (w.startPos + s.captures.length) % w.ringEntries
  readPtr : s.readPtr = (w.startPos + s.consumed) % w.ringEntries
  ring : ∀ i, s.consumed ≤ i → ∀ h : i < s.captures.length,
    s.ring ((w.startPos + i) % w.ringEntries) = s.captures[i]
  wp : ∀ p, s.wp = some p → ∃ v, s.consumed ≤ v ∧ v ≤ s.captures.length ∧
    p = (w.startPos + v) % w.ringEntries
  width : ∀ entry ∈ s.captures, entry < 2 ^ captureBits w.dataSize

lemma ringOk_start (w : Wait) (ring : ℕ → ℕ) : RingOk w
    ⟨ring, w.startPos % w.ringEntries, w.startPos % w.ringEntries, none, .detect 0, [], 0⟩ where
  le := le_rfl
  room := ringEntries_pos w
  writePos := rfl
  readPtr := rfl
  ring := fun _ _ h => absurd h (Nat.not_lt_zero _)
  wp := fun _ h => by cases h
  width := by simp

/-- A capture is written to an entry of its own. -/
lemma RingOk.capture (h : RingOk w s) {entry : ℕ} (hwidth : entry < 2 ^ captureBits w.dataSize)
    (hfull : w.advance s.writePos ≠ s.readPtr) : RingOk w (w.capture s entry) := by
  have hle := h.le
  have hroom := h.room
  have hlen : (s.captures ++ [entry]).length = s.captures.length + 1 := by simp
  -- a capture that filled the ring would leave the two places equal
  have hspace : s.captures.length + 1 - s.consumed < w.ringEntries := by
    rcases Nat.lt_or_ge (s.captures.length + 1 - s.consumed) w.ringEntries with hlt | hge
    · exact hlt
    · refine absurd ?_ hfull
      rw [h.writePos, advance_mod, h.readPtr,
        show w.startPos + s.captures.length + 1 = w.startPos + s.consumed + w.ringEntries by omega,
        Nat.add_mod_right]
  exact
    { le := by
        change s.consumed ≤ (s.captures ++ [entry]).length
        omega
      room := by
        change (s.captures ++ [entry]).length - s.consumed < _
        omega
      writePos := by
        change w.advance s.writePos = (w.startPos + (s.captures ++ [entry]).length) % _
        rw [h.writePos, advance_mod, hlen, Nat.add_assoc]
      readPtr := h.readPtr
      ring := by
        intro i hi hlt
        change i < (s.captures ++ [entry]).length at hlt
        change Function.update s.ring s.writePos entry _ = (s.captures ++ [entry])[i]
        have hlt' : i < s.captures.length + 1 := hlen ▸ hlt
        rw [h.writePos]
        rcases Nat.lt_or_ge i s.captures.length with hold | hnew
        · rw [Function.update_of_ne, List.getElem_append_left hold]
          · exact h.ring i hi hold
          · intro heq
            have hi' : s.consumed ≤ i := hi
            have := mod_inj hold.le (by omega) heq
            omega
        · obtain rfl : i = s.captures.length := by omega
          rw [Function.update_self, List.getElem_concat_length rfl]
      wp := by
        intro p hp
        obtain ⟨v, hv, hle', heq⟩ := h.wp p hp
        refine ⟨v, hv, ?_, heq⟩
        change v ≤ (s.captures ++ [entry]).length
        omega
      width := by
        intro x hx
        rcases List.mem_append.mp hx with hx | hx
        · exact h.width x hx
        · rw [List.mem_singleton.mp hx]
          exact hwidth }

/-- The code looks how far the ring is filled, or that it has read all it knew of, or is done. -/
lemma RingOk.look (h : RingOk w s) {wp : Option ℕ} (hwp : wp = none ∨ wp = some s.writePos)
    (phase : Phase) : RingOk w { s with wp := wp, phase := phase } where
  le := h.le
  room := h.room
  writePos := h.writePos
  readPtr := h.readPtr
  ring := h.ring
  wp := by
    intro p hp
    rcases hwp with rfl | rfl
    · cases hp
    · cases hp
      exact ⟨s.captures.length, h.le, le_rfl, h.writePos⟩
  width := h.width

/-- Where the code finds an entry it knew of, it is the next capture. -/
lemma RingOk.next (h : RingOk w s) {p : ℕ} (hwp : s.wp = some p) (hne : s.readPtr ≠ p) :
    ∃ hlt : s.consumed < s.captures.length, s.ring s.readPtr = s.captures[s.consumed] := by
  obtain ⟨v, hv, hle, rfl⟩ := h.wp p hwp
  have hlt : s.consumed < s.captures.length := by
    rcases Nat.lt_or_ge s.consumed v with hlt | hge
    · omega
    · exact absurd (by rw [h.readPtr, show s.consumed = v by omega]) hne
  exact ⟨hlt, by rw [h.readPtr, h.ring _ le_rfl hlt]⟩

lemma RingOk.read (h : RingOk w s) {p : ℕ} (hwp : s.wp = some p) (hne : s.readPtr ≠ p)
    {wp : Option ℕ} (hnext : wp = none ∨ wp = some p) (phase : Phase) :
    RingOk w (w.read s phase wp) := by
  obtain ⟨v, hv, hle, heq⟩ := h.wp p hwp
  have hlt : s.consumed < v := by
    rcases Nat.lt_or_ge s.consumed v with hlt | hge
    · exact hlt
    · exact absurd (by rw [h.readPtr, heq, show s.consumed = v by omega]) hne
  have hroom := h.room
  exact
    { le := by
        change s.consumed + 1 ≤ s.captures.length
        omega
      room := by
        change s.captures.length - (s.consumed + 1) < _
        omega
      writePos := h.writePos
      readPtr := by
        change w.advance s.readPtr = (w.startPos + (s.consumed + 1)) % _
        rw [h.readPtr, advance_mod, Nat.add_assoc]
      ring := fun i hi hlt => h.ring i (by change s.consumed + 1 ≤ i at hi; omega) hlt
      wp := by
        intro q hq
        change wp = some q at hq
        rcases hnext with rfl | rfl
        · cases hq
        · cases hq
          exact ⟨v, hlt, hle, heq⟩
      width := h.width }

end Ring

/-! ### What has been read -/

section Captures

variable {w : Wait} {captures : List ℕ} {d c n : ℕ}

/-- What the matcher has seen in the first captures. -/
def matched (w : Wait) (captures : List ℕ) (n : ℕ) : ℕ :=
  run w.knock.matchValues (w.seen (captures.take n))

lemma kept_concat (captures : List ℕ) (entry : ℕ) :
    w.kept (captures ++ [entry]) = w.kept captures ++ if w.ignored entry then [] else [entry] := by
  unfold Wait.kept
  cases hignored : w.ignored entry <;> simp [hignored]

lemma seen_take_succ (h : n < captures.length) : w.seen (captures.take (n + 1)) =
    w.seen (captures.take n) ++
      if w.ignored captures[n] then [] else [captures[n] &&& w.knock.mask] := by
  rw [take_concat (List.getElem?_eq_getElem h), Wait.seen, kept_concat, List.map_append,
    apply_ite (List.map _)]
  rfl

lemma matched_zero (w : Wait) (captures : List ℕ) : matched w captures 0 = 0 := rfl

/-- The matcher takes a step for an entry that isn't ignored. -/
lemma matched_succ (h : n < captures.length) : matched w captures (n + 1) =
    if w.ignored captures[n] then matched w captures n
    else w.nextPos (matched w captures n) captures[n] := by
  rw [matched, seen_take_succ h]
  split_ifs with hignored
  · rw [List.append_nil, matched]
  · rw [run_concat]
    rfl

lemma between_self (w : Wait) (captures : List ℕ) (d : ℕ) : w.between captures d d = [] := by
  rw [Wait.between, List.drop_eq_nil_of_le (List.length_take_le _ _)]
  rfl

lemma between_succ (hd : d ≤ c) (h : c < captures.length) : w.between captures d (c + 1) =
    w.between captures d c ++ if w.ignored captures[c] then [] else [captures[c]] := by
  rw [Wait.between, take_concat (List.getElem?_eq_getElem h), List.drop_append_of_le_length,
    kept_concat, Wait.between]
  rw [List.length_take]
  omega

/-- Captures that come in later change nothing of what has been read. -/
lemma take_append_capture (h : n ≤ captures.length) (entry : ℕ) :
    (captures ++ [entry]).take n = captures.take n := List.take_append_of_le_length h

/-- What the matcher had seen before an entry, it had seen after some captures. -/
lemma exists_matched {before after : List ℕ} {x : ℕ}
    (h : w.seen (captures.take n) = before ++ x :: after) :
    ∃ i < n, run w.knock.matchValues before = matched w captures i := by
  induction n generalizing after with
  | zero => simp [Wait.seen, Wait.kept] at h
  | succ n ih =>
    have hlater : ∀ {after}, w.seen (captures.take n) = before ++ x :: after →
        ∃ i < n + 1, run w.knock.matchValues before = matched w captures i := fun heq =>
      let ⟨i, hi, hrun⟩ := ih heq
      ⟨i, by omega, hrun⟩
    rcases Nat.lt_or_ge n captures.length with hlt | hge
    · rw [seen_take_succ hlt] at h
      split_ifs at h with hignored
      · exact hlater (by rwa [List.append_nil] at h)
      · -- the entry is the last one, or comes before it
        rcases List.eq_nil_or_concat after with rfl | ⟨after, y, rfl⟩
        · obtain ⟨heq, -⟩ := List.append_inj' h rfl
          exact ⟨n, by omega, by rw [← heq, matched]⟩
        · rw [List.concat_eq_append, ← List.cons_append, ← List.append_assoc] at h
          exact hlater (List.append_inj' h rfl).1
    · exact hlater (by rwa [List.take_of_length_le (by omega), ← List.take_of_length_le hge] at h)

/-- **The matcher hears the knock** where it is first heard. -/
lemma matched_eq_length_iff
    (hno : (∀ v ∈ w.knock.matchValues, v < 2 ^ captureBits w.dataSize) →
      NoFallback w.knock.matchValues)
    (hwidth : ∀ entry ∈ captures, entry < 2 ^ captureBits w.dataSize)
    (hbefore : ∀ i < n, matched w captures i < w.knock.matchValues.length) :
    matched w captures n = w.knock.matchValues.length ↔ w.Heard captures n := by
  by_cases hfit : ∀ v ∈ w.knock.matchValues, v < 2 ^ captureBits w.dataSize
  · refine run_eq_length_iff (hno hfit) fun before x after heq => ?_
    obtain ⟨i, hi, hrun⟩ := exists_matched heq
    exact hrun ▸ hbefore i hi
  · -- no capture has the bits of such a value
    have hnever : ¬w.Heard captures n := fun hheard => hfit fun v hv => by
      obtain ⟨entry, hentry, rfl⟩ := List.mem_map.mp (hheard.subset hv)
      exact Nat.and_le_left.trans_lt
        (hwidth entry (List.mem_of_mem_take (List.mem_of_mem_filter hentry)))
    refine iff_of_false (fun heq => hnever ?_) hnever
    have hsuffix := (take_run w.knock.matchValues (w.seen (captures.take n))).2
    rwa [show run w.knock.matchValues (w.seen (captures.take n)) = _ from heq,
      List.take_length] at hsuffix

end Captures

section Steps

variable {w : Wait} {s : State}

/-- The knock has been matched after `d` captures, and not before. -/
def MatchedAt (w : Wait) (captures : List ℕ) (d : ℕ) : Prop :=
  matched w captures d = w.knock.matchValues.length ∧
    ∀ i < d, matched w captures i < w.knock.matchValues.length

/-- The payload is what has come in since the knock, and was never complete before. -/
def Collected (w : Wait) (s : State) (payload : List ℕ) : Prop :=
  ∃ d ≤ s.consumed, MatchedAt w s.captures d ∧ payload = w.between s.captures d s.consumed ∧
    ∀ c, d ≤ c → c < s.consumed → (w.between s.captures d c).length < w.payloadLen

/-- The code's place in the knock and its payload are those of what it has read. -/
def Tracked (w : Wait) (s : State) : Prop :=
  match s.phase with
  | .detect knockPos => knockPos = matched w s.captures s.consumed ∧
      ∀ i ≤ s.consumed, matched w s.captures i < w.knock.matchValues.length
  | .collect payload => Collected w s payload ∧ payload.length ≤ w.payloadLen
  | .done payload => Collected w s payload ∧ payload.length = w.payloadLen

lemma matched_capture {n : ℕ} (h : n ≤ s.captures.length) (entry : ℕ) :
    matched w (w.capture s entry).captures n = matched w s.captures n := by
  rw [matched, Wait.capture, take_append_capture h, matched]

lemma between_capture {d c : ℕ} (h : c ≤ s.captures.length) (entry : ℕ) :
    w.between (w.capture s entry).captures d c = w.between s.captures d c := by
  rw [Wait.between, Wait.capture, take_append_capture h, Wait.between]

lemma Collected.capture {payload : List ℕ} (hle : s.consumed ≤ s.captures.length)
    (h : Collected w s payload) (entry : ℕ) : Collected w (w.capture s entry) payload := by
  obtain ⟨d, hd, ⟨hmatched, hbefore⟩, hpayload, hshort⟩ := h
  refine ⟨d, hd, ⟨?_, fun i hi => ?_⟩, ?_, fun c hdc hc => ?_⟩
  · rw [matched_capture (by omega), hmatched]
  · rw [matched_capture (by omega)]
    exact hbefore i hi
  · rw [hpayload]
    exact (between_capture hle entry).symm
  · change c < s.consumed at hc
    rw [between_capture (by omega)]
    exact hshort c hdc hc

lemma Tracked.capture (hle : s.consumed ≤ s.captures.length) (h : Tracked w s) (entry : ℕ) :
    Tracked w (w.capture s entry) := by
  have hphase : (w.capture s entry).phase = s.phase := rfl
  revert h
  unfold Tracked
  rw [hphase]
  cases s.phase with
  | detect knockPos =>
    rintro ⟨hpos, hbefore⟩
    refine ⟨hpos.trans (matched_capture hle entry).symm, fun i hi => ?_⟩
    change i ≤ s.consumed at hi
    rw [matched_capture (by omega)]
    exact hbefore i hi
  | collect payload => exact fun h => ⟨h.1.capture hle entry, h.2⟩
  | done payload => exact fun h => ⟨h.1.capture hle entry, h.2⟩

/-- The entry that is read in the collecting phase is added to the payload. -/
lemma Collected.read {payload : List ℕ} (h : Collected w s payload)
    (hshort : payload.length < w.payloadLen) (hlt : s.consumed < s.captures.length)
    (phase : Phase) (wp : Option ℕ) : Collected w (w.read s phase wp)
      (payload ++ if w.ignored s.captures[s.consumed] then [] else [s.captures[s.consumed]]) := by
  obtain ⟨d, hd, hmatched, rfl, hbefore⟩ := h
  refine ⟨d, Nat.le_succ_of_le hd, hmatched, (between_succ hd hlt).symm, fun c hdc hc => ?_⟩
  rcases Nat.lt_succ_iff_lt_or_eq.mp hc with hc | rfl
  · exact hbefore c hdc hc
  · exact hshort

/-- What a step of the code does. -/
lemma codeStep_cases (w : Wait) (s : State) :
    (∃ wp, (wp = none ∨ wp = some s.writePos) ∧ w.codeStep s = { s with wp := wp }) ∨
    (∃ payload, s.phase = .collect payload ∧ w.payloadLen ≤ payload.length ∧
      w.codeStep s = { s with phase := .done payload }) ∨
    (∃ payload, s.phase = .done payload ∧ w.codeStep s = s) ∨
    ∃ p, s.wp = some p ∧ s.readPtr ≠ p ∧
      ((∃ knockPos, s.phase = .detect knockPos ∧ w.codeStep s =
        if w.ignored (s.ring s.readPtr) then w.read s (.detect knockPos) (some p)
        else if w.knock.matchValues.length ≤ w.nextPos knockPos (s.ring s.readPtr) then
          w.read s (.collect []) none
        else w.read s (.detect (w.nextPos knockPos (s.ring s.readPtr))) (some p)) ∨
      ∃ payload, s.phase = .collect payload ∧ payload.length < w.payloadLen ∧ w.codeStep s =
        w.read s (.collect (payload ++ if w.ignored (s.ring s.readPtr) then []
          else [s.ring s.readPtr])) (some p)) := by
  obtain ⟨ring, writePos, readPtr, wp, phase, captures, consumed⟩ := s
  cases phase with
  | detect knockPos =>
    cases wp with
    | none => exact .inl ⟨_, .inr rfl, rfl⟩
    | some p =>
      by_cases heq : readPtr = p
      · exact .inl ⟨none, .inl rfl, by simp [Wait.codeStep, heq]⟩
      · exact .inr (.inr (.inr ⟨p, rfl, heq, .inl ⟨knockPos, rfl, by
          simp [Wait.codeStep, heq]⟩⟩))
  | collect payload =>
    cases wp with
    | none =>
      by_cases hlen : payload.length < w.payloadLen
      · exact .inl ⟨_, .inr rfl, by simp [Wait.codeStep, hlen]⟩
      · exact .inr (.inl ⟨payload, rfl, by omega, by simp [Wait.codeStep, hlen]⟩)
    | some p =>
      by_cases hstop : readPtr = p ∨ w.payloadLen ≤ payload.length
      · exact .inl ⟨none, .inl rfl, by simp [Wait.codeStep, hstop]⟩
      · obtain ⟨heq, hlen⟩ := not_or.mp hstop
        refine .inr (.inr (.inr ⟨p, rfl, heq, .inr ⟨payload, rfl, by omega, ?_⟩⟩))
        cases hignored : w.ignored (ring readPtr) <;>
          simp [Wait.codeStep, hstop, hignored]
  | done payload => exact .inr (.inr (.inl ⟨payload, rfl, rfl⟩))

lemma Tracked.codeStep (hring : RingOk w s) (h : Tracked w s) : Tracked w (w.codeStep s) := by
  rcases codeStep_cases w s with ⟨wp, -, hstep⟩ | ⟨payload, hphase, hlen, hstep⟩ |
    ⟨payload, -, hstep⟩ | ⟨p, hwp, hne, ⟨knockPos, hphase, hstep⟩ | ⟨payload, hphase, hlen, hstep⟩⟩
  · rw [hstep]
    exact h
  · rw [hstep]
    rw [Tracked, hphase] at h
    exact ⟨h.1, le_antisymm h.2 hlen⟩
  · rw [hstep]
    exact h
  · obtain ⟨hlt, hentry⟩ := hring.next hwp hne
    rw [hstep, hentry]
    rw [Tracked, hphase] at h
    obtain ⟨rfl, hbefore⟩ := h
    have hsucc := matched_succ (w := w) hlt
    have hle : ∀ i < s.consumed + 1, matched w s.captures i < w.knock.matchValues.length :=
      fun i hi => hbefore i (by omega)
    split_ifs at hsucc ⊢ with hignored hfound
    · refine ⟨hsucc.symm, fun i hi => ?_⟩
      rcases Nat.le_succ_iff.mp hi with hi | rfl
      · exact hbefore i hi
      · exact hsucc ▸ hbefore s.consumed le_rfl
    · -- the last value of the knock has come in
      have hmatched : matched w s.captures (s.consumed + 1) = w.knock.matchValues.length :=
        le_antisymm (take_run _ _).1 (hsucc ▸ hfound)
      exact ⟨⟨s.consumed + 1, le_rfl, ⟨hmatched, hle⟩, (between_self ..).symm,
        fun c hdc hc => absurd hc (by change ¬c < s.consumed + 1; omega)⟩, Nat.zero_le _⟩
    · refine ⟨hsucc.symm, fun i hi => ?_⟩
      rcases Nat.le_succ_iff.mp hi with hi | rfl
      · exact hbefore i hi
      · exact hsucc.trans_lt (Nat.lt_of_not_le hfound)
  · obtain ⟨hlt, hentry⟩ := hring.next hwp hne
    rw [hstep, hentry]
    rw [Tracked, hphase] at h
    refine ⟨h.1.read hlen hlt _ _, ?_⟩
    rw [List.length_append]
    split_ifs <;> simp <;> omega

lemma RingOk.codeStep (h : RingOk w s) : RingOk w (w.codeStep s) := by
  rcases codeStep_cases w s with ⟨wp, hwp, hstep⟩ | ⟨payload, -, -, hstep⟩ |
    ⟨payload, -, hstep⟩ | ⟨p, hwp, hne, ⟨knockPos, -, hstep⟩ | ⟨payload, -, -, hstep⟩⟩
  · exact hstep ▸ h.look hwp s.phase
  · rw [hstep]
    exact ⟨h.le, h.room, h.writePos, h.readPtr, h.ring, h.wp, h.width⟩
  · rw [hstep]
    exact h
  · rw [hstep]
    split_ifs
    · exact h.read hwp hne (.inr rfl) _
    · exact h.read hwp hne (.inl rfl) _
    · exact h.read hwp hne (.inr rfl) _
  · exact hstep ▸ h.read hwp hne (.inr rfl) _

/-- **The states of a wait** hold the captures that haven't been read, and what is found in the
others. -/
lemma Reachable.tracked (hknock : w.knock.matchValues ≠ []) (h : w.Reachable s) :
    RingOk w s ∧ Tracked w s := by
  induction h with
  | start ring =>
    refine ⟨ringOk_start w ring, (matched_zero w []).symm, fun i hi => ?_⟩
    obtain rfl := Nat.le_zero.mp hi
    exact List.length_pos_iff.mpr hknock
  | code _ ih => exact ⟨ih.1.codeStep, ih.2.codeStep ih.1⟩
  | capture entry _ hwidth hfull ih => exact ⟨ih.1.capture hwidth hfull, ih.2.capture ih.1.le entry⟩

end Steps

/-! ### Where a wait ends -/

section Progress

variable {w : Wait} {s : State}

/-- More has to come in. -/
def Waiting (w : Wait) (s : State) : Prop :=
  match s.phase with
  | .detect _ => True
  | .collect payload => payload.length < w.payloadLen
  | .done _ => False

/-- The code has read all there is, or is done. -/
def Drained (w : Wait) (s : State) : Prop :=
  (∃ payload, s.phase = .done payload) ∨ Waiting w s ∧ s.consumed = s.captures.length

@[simp] lemma codeStep_captures (w : Wait) (s : State) : (w.codeStep s).captures = s.captures := by
  rcases codeStep_cases w s with ⟨wp, -, hstep⟩ | ⟨payload, -, -, hstep⟩ | ⟨payload, -, hstep⟩ |
    ⟨p, -, -, ⟨knockPos, -, hstep⟩ | ⟨payload, -, -, hstep⟩⟩ <;> rw [hstep]
  · split_ifs <;> rfl
  · rfl

lemma iterate_reachable (h : w.Reachable s) (n : ℕ) :
    w.Reachable (w.codeStep^[n] s) ∧ (w.codeStep^[n] s).captures = s.captures := by
  induction n with
  | zero => exact ⟨h, rfl⟩
  | succ n ih =>
    rw [Function.iterate_succ_apply', codeStep_captures]
    exact ⟨ih.1.code, ih.2⟩

lemma codeStep_look (hwait : Waiting w s) (hwp : s.wp = none) :
    w.codeStep s = { s with wp := some s.writePos } := by
  obtain ⟨ring, writePos, readPtr, wp, phase, captures, consumed⟩ := s
  subst hwp
  cases phase with
  | detect knockPos => rfl
  | collect payload => exact if_pos hwait
  | done payload => exact hwait.elim

lemma codeStep_empty {p : ℕ} (hwait : Waiting w s) (hwp : s.wp = some p) (heq : s.readPtr = p) :
    w.codeStep s = { s with wp := none } := by
  obtain ⟨ring, writePos, readPtr, wp, phase, captures, consumed⟩ := s
  subst hwp
  cases phase with
  | detect knockPos => exact if_pos heq
  | collect payload => exact if_pos (.inl heq)
  | done payload => exact hwait.elim

lemma codeStep_read {p : ℕ} (hwait : Waiting w s) (hwp : s.wp = some p) (hne : s.readPtr ≠ p) :
    (w.codeStep s).consumed = s.consumed + 1 := by
  obtain ⟨ring, writePos, readPtr, wp, phase, captures, consumed⟩ := s
  subst hwp
  cases phase with
  | detect knockPos =>
    change (ite _ _ _ : State).consumed = _
    rw [if_neg hne]
    dsimp only
    split_ifs <;> rfl
  | collect payload =>
    change (ite _ _ _ : State).consumed = _
    rw [if_neg (not_or.mpr ⟨hne, Nat.not_le.mpr hwait⟩)]
    dsimp only
    split_ifs <;> rfl
  | done payload => exact hwait.elim

/-- Where there is a capture to read, the code comes to read it. -/
lemma exists_read (hring : RingOk w s) (hwait : Waiting w s)
    (hlt : s.consumed < s.captures.length) :
    ∃ n, (w.codeStep^[n] s).consumed = s.consumed + 1 := by
  have hne : s.readPtr ≠ s.writePos := fun heq => by
    rw [hring.readPtr, hring.writePos] at heq
    have := mod_inj hlt.le hring.room heq
    omega
  cases hwp : s.wp with
  | none =>
    refine ⟨2, ?_⟩
    rw [Function.iterate_succ_apply, Function.iterate_one, codeStep_look hwait hwp]
    exact codeStep_read (s := { s with wp := some s.writePos }) hwait rfl hne
  | some p =>
    by_cases heq : s.readPtr = p
    · -- the code has read all it knew of, and looks again
      refine ⟨3, ?_⟩
      rw [Function.iterate_succ_apply, Function.iterate_succ_apply, Function.iterate_one,
        codeStep_empty hwait hwp heq, codeStep_look (s := { s with wp := none }) hwait rfl]
      exact codeStep_read (s := { s with wp := some s.writePos }) hwait rfl hne
    · exact ⟨1, codeStep_read hwait hwp heq⟩

lemma exists_done {payload : List ℕ} (hphase : s.phase = .collect payload)
    (hlen : w.payloadLen ≤ payload.length) :
    ∃ n, (w.codeStep^[n] s).phase = .done payload := by
  obtain ⟨ring, writePos, readPtr, wp, phase, captures, consumed⟩ := s
  subst hphase
  have hfull : ¬payload.length < w.payloadLen := Nat.not_lt.mpr hlen
  cases wp with
  | none => exact ⟨1, by simp [Wait.codeStep, hfull]⟩
  | some p => exact ⟨2, by simp [Wait.codeStep, hlen, hfull]⟩

/-- The code comes to have read all there is, or to be done. -/
lemma exists_drained (hknock : w.knock.matchValues ≠ []) (h : w.Reachable s) :
    ∃ n, Drained w (w.codeStep^[n] s) := by
  induction hleft : s.captures.length - s.consumed using Nat.strong_induction_on generalizing s with
  | h left ih =>
  obtain ⟨hring, -⟩ := Reachable.tracked hknock h
  by_cases hwait : Waiting w s
  · rcases Nat.eq_or_lt_of_le hring.le with heq | hlt
    · exact ⟨0, .inr ⟨hwait, heq⟩⟩
    · obtain ⟨n, hread⟩ := exists_read hring hwait hlt
      obtain ⟨hreach, hcaptures⟩ := iterate_reachable h n
      obtain ⟨m, hdrained⟩ := ih _ (by rw [hcaptures, hread]; omega) hreach rfl
      exact ⟨m + n, by rwa [Function.iterate_add_apply]⟩
  · cases hphase : s.phase with
    | detect knockPos => exact absurd (by rw [Waiting, hphase]; trivial) hwait
    | collect payload =>
      rw [Waiting, hphase] at hwait
      obtain ⟨n, hdone⟩ := exists_done hphase (Nat.le_of_not_lt hwait)
      exact ⟨n, .inl ⟨payload, hdone⟩⟩
    | done payload => exact ⟨0, .inl ⟨payload, hphase⟩⟩

/-- What has come in since the knock only grows. -/
lemma between_length_le (w : Wait) (captures : List ℕ) {d d' c c' : ℕ} (hd : d' ≤ d) (hc : c ≤ c') :
    (w.between captures d c).length ≤ (w.between captures d' c').length := by
  have htake : captures.take c = (captures.take c').take c := by
    rw [List.take_take, Nat.min_eq_left hc]
  have hdrop : (captures.take c').drop d = ((captures.take c').drop d').drop (d - d') := by
    rw [List.drop_drop, Nat.add_sub_cancel' hd]
  have hshort : ((captures.take c).drop d).Sublist ((captures.take c').drop d) :=
    htake ▸ (List.take_sublist c (captures.take c')).drop d
  have hlong : ((captures.take c').drop d).Sublist ((captures.take c').drop d') :=
    hdrop ▸ List.drop_sublist (d - d') _
  exact ((hshort.trans hlong).filter _).length_le

end Progress

section Exact

variable {w : Wait} {s : State}

/-- What is matched is heard, and nothing before it is. -/
lemma MatchedAt.firstHeard {d : ℕ}
    (hno : (∀ v ∈ w.knock.matchValues, v < 2 ^ captureBits w.dataSize) →
      NoFallback w.knock.matchValues)
    (hring : RingOk w s) (h : MatchedAt w s.captures d) : w.FirstHeard s.captures d := by
  obtain ⟨hmatched, hbefore⟩ := h
  refine ⟨(matched_eq_length_iff hno hring.width hbefore).mp hmatched, fun i hi hheard => ?_⟩
  have := (matched_eq_length_iff hno hring.width fun k hk => hbefore k (by omega)).mpr hheard
  exact (hbefore i hi).ne this

lemma right_of_tracked
    (hno : (∀ v ∈ w.knock.matchValues, v < 2 ^ captureBits w.dataSize) →
      NoFallback w.knock.matchValues)
    (hring : RingOk w s) (h : Tracked w s) : w.Right s := by
  revert h
  unfold Tracked Wait.Right
  cases s.phase with
  | detect knockPos =>
    rintro ⟨-, hbefore⟩ i hi hheard
    have := (matched_eq_length_iff hno hring.width fun k hk => hbefore k (by omega)).mpr hheard
    exact (hbefore i hi).ne this
  | collect payload =>
    rintro ⟨⟨d, hd, hmatched, hpayload, -⟩, hlen⟩
    exact ⟨d, hd, hmatched.firstHeard hno hring, hpayload, hlen⟩
  | done payload =>
    rintro ⟨⟨d, hd, hmatched, hpayload, hshort⟩, hlen⟩
    exact ⟨d, hd, hmatched.firstHeard hno hring, hpayload, hlen, hshort, hring.readPtr⟩

/-- Where all has been captured, a wait that has read all there is doesn't wait for more. -/
lemma not_waiting (hright : w.Right s) (hconsumed : s.consumed = s.captures.length)
    (h : w.Complete s.captures) : ¬Waiting w s := by
  obtain ⟨d, c, hdc, hc, hheard, hlen⟩ := h
  revert hright
  unfold Wait.Right Waiting
  cases s.phase with
  | detect knockPos => exact fun hright => absurd hheard (hright d (by omega))
  | collect payload =>
    rintro ⟨d', -, ⟨-, hfirst⟩, rfl, -⟩ hwait
    have hd : d' ≤ d := by
      by_contra hlt
      exact hfirst d (by omega) hheard
    have := between_length_le w s.captures hd (hc.trans_eq hconsumed.symm)
    omega
  | done payload => exact fun _ hwait => hwait

lemma exists_done_of_complete (hknock : w.knock.matchValues ≠ [])
    (hno : (∀ v ∈ w.knock.matchValues, v < 2 ^ captureBits w.dataSize) →
      NoFallback w.knock.matchValues)
    (h : w.Reachable s) (hcomplete : w.Complete s.captures) :
    ∃ n payload, (w.codeStep^[n] s).phase = .done payload := by
  obtain ⟨n, hdrained⟩ := exists_drained hknock h
  obtain ⟨hreach, hcaptures⟩ := iterate_reachable h n
  obtain ⟨hring, htracked⟩ := Reachable.tracked hknock hreach
  rcases hdrained with ⟨payload, hdone⟩ | ⟨hwait, hconsumed⟩
  · exact ⟨n, payload, hdone⟩
  · exact absurd hwait (not_waiting (right_of_tracked hno hring htracked) hconsumed
      (hcaptures.symm ▸ hcomplete))

end Exact

/-! ### A knock that is missed -/

section Missed

variable {w : Wait} {text : List ℕ}

lemma seen_eq (hdebounce : w.debounceCs = false)
    (hmask : ∀ x ∈ text, x &&& w.knock.mask = x) : w.seen text = text := by
  have hkept : w.kept text = text := List.filter_eq_self.mpr fun x _ => by
    rw [Wait.ignored, hdebounce]
    rfl
  rw [Wait.seen, hkept]
  conv_rhs => rw [← List.map_id text]
  exact List.map_congr_left hmask

/-- Where the matcher never comes to the knock's end, the code detects nothing. -/
lemma detect_of_unmatched {s : State} (htracked : Tracked w s)
    (hunmatched : ∀ i, matched w s.captures i < w.knock.matchValues.length) :
    ∃ knockPos, s.phase = .detect knockPos := by
  revert htracked
  unfold Tracked
  cases s.phase with
  | detect knockPos => exact fun _ => ⟨knockPos, rfl⟩
  | collect payload => exact fun ⟨⟨d, _, hmatched, _⟩, _⟩ => absurd hmatched.1 (hunmatched d).ne
  | done payload => exact fun ⟨⟨d, _, hmatched, _⟩, _⟩ => absurd hmatched.1 (hunmatched d).ne

/-- With a ring of two entries, the captures come in one by one, and the code reads each. -/
lemma exists_unmatched (hknock : w.knock.matchValues ≠ []) (hring : w.ringEntriesLog2 = 1)
    (hwidth : ∀ x ∈ text, x < 2 ^ captureBits w.dataSize)
    (hunmatched : ∀ i, matched w text i < w.knock.matchValues.length) :
    ∃ s, w.Reachable s ∧ s.captures = text ∧ s.consumed = text.length ∧
      ∃ knockPos, s.phase = .detect knockPos := by
  induction text using List.reverseRecOn with
  | nil => exact ⟨_, .start fun _ => 0, rfl, rfl, 0, rfl⟩
  | append_singleton text x ih =>
    have hbefore : ∀ i, matched w text i < w.knock.matchValues.length := fun i => by
      have htake : text.take i = (text ++ [x]).take (min i text.length) := by
        rw [take_append_capture (Nat.min_le_right _ _), ← List.take_eq_take_min]
      rw [matched, htake]
      exact hunmatched _
    obtain ⟨s, hreach, rfl, hconsumed, -⟩ :=
      ih (fun y hy => hwidth y (List.mem_append_left _ hy)) hbefore
    obtain ⟨hok, -⟩ := Reachable.tracked hknock hreach
    have hfull : w.advance s.writePos ≠ s.readPtr := by
      rw [hok.writePos, advance_mod, hok.readPtr, hconsumed, Wait.ringEntries, hring]
      omega
    have hcapture : w.Reachable (w.capture s x) := hreach.capture x (hwidth x (by simp)) hfull
    obtain ⟨n, hdrained⟩ := exists_drained hknock hcapture
    obtain ⟨hreach', hcaptures⟩ := iterate_reachable hcapture n
    obtain ⟨knockPos, hphase⟩ := detect_of_unmatched (Reachable.tracked hknock hreach').2
      (hcaptures ▸ hunmatched)
    rcases hdrained with ⟨payload, hdone⟩ | ⟨-, hread⟩
    · rw [hphase] at hdone
      cases hdone
    · exact ⟨_, hreach', hcaptures, hread.trans (congrArg List.length hcaptures), knockPos, hphase⟩

/-- A knock whose values are captured as they are is missed if it needs a longer fallback. -/
lemma not_knockExact {knock : OraKnock} {dataSize : ℕ} (hknock : knock.matchValues ≠ [])
    (hmask : ∀ v ∈ knock.matchValues, v &&& knock.mask = v)
    (hfit : ∀ v ∈ knock.matchValues, v < 2 ^ captureBits dataSize)
    (hfall : ¬NoFallback knock.matchValues) : ¬KnockExact knock dataSize := fun hexact => by
  obtain ⟨text, hheard, hmem, hmissed⟩ := exists_missed hfall
  -- nothing is ignored, and no payload is waited for
  let w : Wait := ⟨knock, dataSize, 1, false, 0, 0⟩
  have hseen : ∀ i, w.seen (text.take i) = text.take i := fun i =>
    seen_eq rfl fun x hx => hmask x (hmem x (List.mem_of_mem_take hx))
  obtain ⟨s, hreach, rfl, hconsumed, knockPos, hphase⟩ := exists_unmatched (w := w) hknock rfl
    (fun x hx => hfit x (hmem x hx)) fun i => by
      rw [matched, hseen]
      exact hmissed _ (List.take_prefix i text)
  obtain ⟨hright, -⟩ := hexact w rfl rfl s hreach
  rw [Wait.Right, hphase] at hright
  refine hright s.captures.length hconsumed.ge ?_
  rw [Wait.Heard, hseen, List.take_length]
  exact hheard

end Missed

/-! ### The knocks of a slot -/

section Knocks

variable {slot : OneromRomSlot} {hw : OneromHardwareInfo} {knockSeq : List ℕ} {knockBits : ℕ}
  {knock : OraKnock}

lemma testBit_scatterPins_eq (base : ℕ) (pins : List ℕ) (level : ℕ → ℕ → Bool) (p : ℕ) :
    (scatterPins base pins level).testBit p =
      pins.zipIdx.any fun x => level x.1 x.2 && (bitAt (bitPos x.1 base)).testBit p := by
  have hfold := testBit_foldl_bitAt pins.zipIdx (fun x : ℕ × ℕ => level x.1 x.2)
    (fun x => bitPos x.1 base) 0 p
  rwa [Nat.zero_testBit, Bool.false_or] at hfold

lemma testBit_scatterPins_mono {base p : ℕ} {pins : List ℕ} {level level' : ℕ → ℕ → Bool}
    (hle : ∀ gpio n, level gpio n → level' gpio n)
    (h : (scatterPins base pins level).testBit p) : (scatterPins base pins level').testBit p := by
  rw [testBit_scatterPins_eq, List.any_eq_true] at h ⊢
  obtain ⟨x, hx, hbit⟩ := h
  rw [Bool.and_eq_true] at hbit
  exact ⟨x, hx, (Bool.and_eq_true _ _).mpr ⟨hle _ _ hbit.1, hbit.2⟩⟩

/-- A knock has a value, and no value has a bit outside the mask. -/
lemma pioInitKnock_ok (h : pioInitKnock slot hw knockSeq knockBits = .ok knock) :
    knock.matchValues ≠ [] ∧ ∀ v ∈ knock.matchValues, v &&& knock.mask = v := by
  have harg : ¬(knockSeq = [] ∨ knockBits = 0 ∨ MAX_ADDR_PINS < knockBits) := fun harg => by
    rw [pioInitKnock, if_pos harg] at h
    cases h
  have hpins : ¬(addrPins slot).length < knockBits := fun hpins => by
    rw [pioInitKnock, if_neg harg, if_pos hpins] at h
    cases h
  rw [pioInitKnock, if_neg harg, if_neg hpins] at h
  cases h
  refine ⟨fun hnil => harg (.inl (List.map_eq_nil_iff.mp hnil)), fun v hv => ?_⟩
  obtain ⟨seq, -, rfl⟩ := List.mem_map.mp hv
  refine Nat.eq_of_testBit_eq fun p => ?_
  rw [Nat.testBit_and, Bool.and_eq_left_iff_imp]
  exact testBit_scatterPins_mono fun gpio n hlevel =>
    ((Bool.and_eq_true _ _).mp hlevel).1

/-- **What a wait for a knock comes to.** It is exact where no entry that isn't the expected one
leaves two or more values of the knock heard, or where a value has bits that no capture has, and the
knock is never heard. -/
theorem waitForKnock_iff (h : pioInitKnock slot hw knockSeq knockBits = .ok knock) (dataSize : ℕ) :
    KnockExact knock dataSize ↔
      ((∀ v ∈ knock.matchValues, v < 2 ^ captureBits dataSize) →
        NoFallback knock.matchValues) := by
  obtain ⟨hknock, hmask⟩ := pioInitKnock_ok h
  constructor
  · intro hexact hfit
    by_contra hfall
    exact not_knockExact hknock hmask hfit hfall hexact
  · rintro hno w rfl rfl s hreach
    obtain ⟨hring, htracked⟩ := Reachable.tracked hknock hreach
    exact ⟨right_of_tracked hno hring htracked, exists_done_of_complete hknock hno hreach⟩

deriving instance DecidableEq for OraKnock

/-- A knock whose first value comes twice, as it is captured on a fire-24-a. -/
def knockTwice : OraKnock := ⟨0xFF, [0x55, 0x55, 0xAA], 0x3000, 0⟩

/-- Where the first value comes three times, the knock is missed. -/
theorem waitForKnock_missed : ∃ slot addr cs,
    buildRomSlot fire24A .single chip2316 [] false = .ok (slot, addr, cs) ∧
      pioInitKnock slot ⟨[], []⟩ [0xAA, 0xAA, 0x55] 8 = .ok knockTwice ∧
      ¬KnockExact knockTwice 32 := by
  refine ⟨_, _, _, rfl, by decide +kernel, ?_⟩
  exact not_knockExact (by decide) (by decide) (by decide) (by decide)

/-- A knock that is heard wherever it comes. -/
theorem waitForKnock_heard : ∃ slot addr cs,
    buildRomSlot fire24A .single chip2316 [] false = .ok (slot, addr, cs) ∧
      KnockExact ⟨0xFF, [0x55, 0xAA, 0xA5], 0x3000, 0⟩ 32 := by
  have hbuild : ∃ slot addr cs,
      buildRomSlot fire24A .single chip2316 [] false = .ok (slot, addr, cs) ∧
        pioInitKnock slot ⟨[], []⟩ [0xAA, 0x55, 0xA5] 8 =
          .ok ⟨0xFF, [0x55, 0xAA, 0xA5], 0x3000, 0⟩ := ⟨_, _, _, rfl, by decide +kernel⟩
  obtain ⟨slot, addr, cs, hslot, hknock⟩ := hbuild
  exact ⟨slot, addr, cs, hslot, (waitForKnock_iff hknock 32).mpr fun _ => by decide⟩

end Knocks

end OneRom.KnockWait
