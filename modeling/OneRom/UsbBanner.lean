import OneRom.OtpEntry
import OneRom.UsbTransfer

/-!
The banner that the USB plugin writes to a terminal ahead of the log. A line is made again from its
start on each step, with what falls before the cursor dropped, and the cursor goes on by what the
endpoint took.

`write_steps` says that a pass puts out a piece of what is left of `bannerText`, and `write_all`
that one which the endpoint takes enough of puts out all of it.
-/

namespace OneRom.UsbBanner

open OneRom.OtpEntry (strBytes)
open OneRom.Resumable OneRom.UsbTransfer

/-! ### The device -/

/-- What the device says of itself. A string is the characters before its terminator. -/
structure Device where
  board : Option (List UInt8)
  version : Option (List UInt8)
  name : Option (List UInt8)
  /-- Empty where it could not be read. -/
  serial : List UInt8
  /-- `category_enabled`, which may not know a category. -/
  categories : Option (ℕ → Option UInt32)
  /-- Another plugin reads the log. -/
  inUse : Bool

def LOG_DRAIN_CHUNK : ℕ := 64
def LOG_BANNER_TITLE : String := "----- One ROM USB log -----"
def LOG_BANNER_RULE : String := "---------------------------"
def LOG_BANNER_LINE_END : List UInt8 := [0x0D, 0x0A]
def LOG_BANNER_LINE_MAX : ℕ := 255
def LOG_BANNER_LINE_COMPLETE : ℕ := 6

def bannerCategories : List String :=
  ["boot", "plugin-internal", "debug", "error", "plugin-application", "plugin-debug"]

variable (dev : Device)

/-- The names of the categories that are enabled, in order. -/
def enabledCategories (enabled : ℕ → Option UInt32) : List String :=
  (List.range bannerCategories.length).filterMap fun ii =>
    match enabled ii with
    | none => none
    | some e => if e = 0 then none else bannerCategories[ii]?

/-- The pieces of a line, in the order that they are put into it. -/
def bannerLine : ℕ → List (List UInt8)
  | 0 => [strBytes LOG_BANNER_TITLE]
  | 1 =>
    [strBytes "One ROM"] ++
      (match dev.board with
        | some board => [strBytes " ", board]
        | none => []) ++
      (match dev.version with
        | some ver => [strBytes " ", ver]
        | none => [])
  | 2 =>
    (match dev.name with
      | some name => [strBytes "Name: ", name] ++ if dev.serial ≠ [] then [strBytes " "] else []
      | none => []) ++
      (if dev.serial ≠ [] then [strBytes "Serial: ", dev.serial] else [])
  | 3 =>
    match dev.categories with
    | none => []
    | some enabled =>
      match enabledCategories enabled with
      | [] => [strBytes "Logging:"]
      | c :: cs =>
        [strBytes "Logging:", strBytes " ", strBytes c] ++
          cs.flatMap fun c => [strBytes ", ", strBytes c]
  | 4 => [strBytes LOG_BANNER_RULE]
  | 5 =>
    if dev.inUse then
      [strBytes
        "!!! USB logging unavailable - another plugin is already reading the log !!!"]
    else []
  | _ => []

/-! ### The sink -/

/-- Where a line is being assembled: `out` has what was placed of it. -/
structure Sink where
  out : List UInt8
  max : ℕ
  skip : ℕ
  total : ℕ
  cap : ℕ

/-- Appends a piece of the line. -/
def bannerPut (sink : Sink) : List UInt8 → Sink
  | [] => sink
  | c :: str =>
    if sink.total < sink.cap then
      if 0 < sink.skip then
        bannerPut { sink with skip := sink.skip - 1, total := sink.total + 1 } str
      else if sink.out.length < sink.max then
        bannerPut { sink with out := sink.out ++ [c], total := sink.total + 1 } str
      else bannerPut { sink with total := sink.total + 1 } str
    else sink

/-- Closes the line, unless there is nothing in it. The terminator is past the cap. -/
def bannerEndLine (sink : Sink) : Sink :=
  if sink.total = 0 then sink
  else bannerPut { sink with cap := LOG_BANNER_LINE_MAX } LOG_BANNER_LINE_END

/-- The line, from `offset` and with room for `max` of it. -/
def makeLine (line offset max : ℕ) : Sink :=
  bannerEndLine ((bannerLine dev line).foldl bannerPut
    ⟨[], max, offset, 0, LOG_BANNER_LINE_MAX - LOG_BANNER_LINE_END.length⟩)

/-! ### Writing -/

/-- What the endpoint has room for, and how much it takes of what it is given. -/
structure Offer where
  room : ℕ
  takes : ℕ

structure Cursor where
  line : ℕ
  offset : UInt8
  deriving DecidableEq

/-- Writes as much of the banner as the endpoint will take. There is no room after the last offer. -/
def logBannerWrite : Cursor → List Offer → List UInt8 × Cursor
  | x, [] => ([], x)
  | x, o :: os =>
    if LOG_BANNER_LINE_COMPLETE ≤ x.line then ([], x)
    else if o.room = 0 then ([], x)
    else
      let sink := makeLine dev x.line x.offset.toNat (min o.room LOG_DRAIN_CHUNK)
      let written := min o.takes sink.out.length
      let done := x.offset.toNat + written
      if sink.total ≤ done then
        (logBannerWrite ⟨x.line + 1, 0⟩ os).map (sink.out.take written ++ ·) id
      else if written = 0 then ([], x)
      else
        (logBannerWrite ⟨x.line, UInt8.ofNat done⟩ os).map (sink.out.take written ++ ·) id

/-- One pass, which is the last where it completes the banner. -/
def pass : Generator Cursor (List Offer) UInt8 Empty := fun x os =>
  let (bytes, y) := logBannerWrite dev x os
  .ok (bytes, decide (y.line = LOG_BANNER_LINE_COMPLETE), y)

/-! ### The text -/

/-- A line as it is read, which is nothing where the line is empty. -/
def lineText (line : ℕ) : List UInt8 :=
  let content := (bannerLine dev line).flatten
  if content = [] then []
  else content.take (LOG_BANNER_LINE_MAX - LOG_BANNER_LINE_END.length) ++ LOG_BANNER_LINE_END

/-- The lines from `line` on, each once and in order. -/
def textFrom (line : ℕ) : List UInt8 :=
  (List.range' line (LOG_BANNER_LINE_COMPLETE - line)).flatMap (lineText dev)

/-- The whole banner. -/
def bannerText : List UInt8 := textFrom dev 0

/-! ### What a sink holds -/

/-- The sink has had `text` put into it, from `offset` and with room for `max`. -/
structure Sink.Holds (sink : Sink) (offset max cap : ℕ) (text : List UInt8) : Prop where
  out : sink.out = (text.drop offset).take max
  max : sink.max = max
  skip : sink.skip = offset - text.length
  total : sink.total = text.length
  cap : sink.cap = cap

lemma bannerPut_holds {sink : Sink} {offset max cap : ℕ} {text : List UInt8}
    (h : sink.Holds offset max cap text) (str : List UInt8) :
    (bannerPut sink str).Holds offset max cap (text ++ str.take (cap - text.length)) := by
  induction str generalizing sink text with
  | nil => simpa [bannerPut] using h
  | cons c str ih =>
    obtain ⟨out, m, skip, total, k⟩ := sink
    obtain ⟨hout, hmax, hskip, htotal, hcap⟩ := h
    dsimp only at hout hmax hskip htotal hcap
    subst hout hmax hskip htotal hcap
    rw [bannerPut]
    dsimp only
    split
    · next hcap =>
      have hmore : text ++ (c :: str).take (k - text.length) =
          (text ++ [c]) ++ str.take (k - (text ++ [c]).length) := by
        obtain ⟨n, hn⟩ : ∃ n, k - text.length = n + 1 := ⟨k - text.length - 1, by omega⟩
        rw [hn, List.take_succ_cons, List.length_append, List.length_singleton,
          show k - (text.length + 1) = n by omega, List.append_assoc, List.singleton_append]
      rw [hmore]
      split
      · next hskip =>
        refine ih ⟨?_, rfl, ?_, by simp, rfl⟩
        · simp [List.drop_eq_nil_of_le (show text.length ≤ offset by omega),
            List.drop_eq_nil_of_le (show (text ++ [c]).length ≤ offset by simp; omega)]
        · simp
          omega
      · next hskip =>
        have hdrop : (text ++ [c]).drop offset = text.drop offset ++ [c] := by
          rw [List.drop_append_of_le_length (by omega)]
        split
        · next hroom =>
          refine ih ⟨?_, rfl, by simp; omega, by simp, rfl⟩
          simp only [List.length_take] at hroom
          dsimp only
          rw [hdrop, List.take_of_length_le (by omega),
            List.take_of_length_le (by simp at hroom ⊢; omega)]
        · next hroom =>
          refine ih ⟨?_, rfl, by simp; omega, by simp, rfl⟩
          simp only [List.length_take] at hroom
          dsimp only
          rw [hdrop, List.take_append_of_le_length (by omega)]
    · next hcap =>
      rw [show k - text.length = 0 by omega, List.take_zero, List.append_nil]
      exact ⟨rfl, rfl, rfl, rfl, rfl⟩

/-- The pieces of a line that were put make up the line, cut to the cap. -/
lemma foldl_bannerPut_holds {sink : Sink} {offset max cap : ℕ} {text : List UInt8}
    (h : sink.Holds offset max cap (text.take cap)) (pieces : List (List UInt8)) :
    (pieces.foldl bannerPut sink).Holds offset max cap ((text ++ pieces.flatten).take cap) := by
  induction pieces generalizing sink text with
  | nil => simpa using h
  | cons str pieces ih =>
    have hput := bannerPut_holds h str
    have htake : text.take cap ++ str.take (cap - (text.take cap).length) =
        (text ++ str).take cap := by
      rw [List.take_append, List.length_take, show cap - min cap text.length = cap - text.length by
        omega]
    rw [htake] at hput
    rw [List.flatten_cons, ← List.append_assoc]
    exact ih hput

variable {dev}

/-- **The sink**: a line that is made from a place on is the line from there, for as far as there is
room, and its whole length is known however little room there is. -/
lemma makeLine_eq (line offset max : ℕ) :
    (makeLine dev line offset max).out = ((lineText dev line).drop offset).take max ∧
      (makeLine dev line offset max).total = (lineText dev line).length := by
  have hnil : Sink.Holds ⟨[], max, offset, 0, LOG_BANNER_LINE_MAX - LOG_BANNER_LINE_END.length⟩
      offset max (LOG_BANNER_LINE_MAX - LOG_BANNER_LINE_END.length)
      (([] : List UInt8).take (LOG_BANNER_LINE_MAX - LOG_BANNER_LINE_END.length)) :=
    ⟨by simp, rfl, by simp, by simp, rfl⟩
  have hput := foldl_bannerPut_holds hnil (bannerLine dev line)
  rw [List.nil_append] at hput
  rw [makeLine, bannerEndLine, lineText]
  by_cases hempty : (bannerLine dev line).flatten = []
  · rw [hempty] at hput ⊢
    rw [if_pos (by simpa using hput.total), if_pos rfl]
    exact ⟨by simpa using hput.out, by simpa using hput.total⟩
  · have hpos := List.length_pos_of_ne_nil hempty
    rw [if_neg hempty, if_neg ?_]
    · generalize List.foldl bannerPut _ _ = sink at hput ⊢
      obtain ⟨hout, hmax, hskip, htotal, -⟩ := hput
      have hopen : Sink.Holds { sink with cap := LOG_BANNER_LINE_MAX } offset max
          LOG_BANNER_LINE_MAX ((bannerLine dev line).flatten.take
            (LOG_BANNER_LINE_MAX - LOG_BANNER_LINE_END.length)) :=
        ⟨hout, hmax, hskip, htotal, rfl⟩
      have hend := bannerPut_holds hopen LOG_BANNER_LINE_END
      have hfits : LOG_BANNER_LINE_END.length ≤ LOG_BANNER_LINE_MAX -
          ((bannerLine dev line).flatten.take
            (LOG_BANNER_LINE_MAX - LOG_BANNER_LINE_END.length)).length := by
        rw [List.length_take]
        rw [show LOG_BANNER_LINE_MAX = 255 from rfl, show LOG_BANNER_LINE_END.length = 2 from rfl]
        omega
      rw [List.take_of_length_le hfits] at hend
      exact ⟨hend.out, hend.total⟩
    · rw [hput.total, List.length_take]
      rw [show LOG_BANNER_LINE_MAX - LOG_BANNER_LINE_END.length = 253 from rfl]
      omega

lemma length_lineText (line : ℕ) : (lineText dev line).length ≤ LOG_BANNER_LINE_MAX := by
  rw [lineText]
  split
  · exact Nat.zero_le _
  · rw [List.length_append, List.length_take]
    rw [show LOG_BANNER_LINE_END.length = 2 from rfl, show LOG_BANNER_LINE_MAX = 255 from rfl]
    omega

/-! ### Passes -/

/-- A cursor that a pass can have left: at a line's start, or inside it. -/
structure Valid (dev : Device) (x : Cursor) : Prop where
  line : x.line ≤ LOG_BANNER_LINE_COMPLETE
  offset : x.offset = 0 ∨
    x.line < LOG_BANNER_LINE_COMPLETE ∧ x.offset.toNat < (lineText dev x.line).length

/-- What is left of the banner at a cursor. -/
def left (dev : Device) (x : Cursor) : List UInt8 := (textFrom dev x.line).drop x.offset.toNat

def start : Cursor := ⟨0, 0⟩

lemma valid_start : Valid dev start := ⟨Nat.zero_le _, Or.inl rfl⟩

@[simp] lemma left_start : left dev start = bannerText dev := rfl

lemma textFrom_of_lt {line : ℕ} (h : line < LOG_BANNER_LINE_COMPLETE) :
    textFrom dev line = lineText dev line ++ textFrom dev (line + 1) := by
  rw [textFrom, textFrom, show LOG_BANNER_LINE_COMPLETE - line =
    (LOG_BANNER_LINE_COMPLETE - (line + 1)) + 1 by omega, List.range'_succ, List.flatMap_cons]

@[simp] lemma textFrom_complete : textFrom dev LOG_BANNER_LINE_COMPLETE = [] := rfl

lemma Valid.offset_le {x : Cursor} (h : Valid dev x) :
    x.offset.toNat ≤ (lineText dev x.line).length := by
  rcases h.offset with h0 | ⟨-, hlt⟩
  · simp [h0]
  · omega

lemma left_eq {x : Cursor} (h : Valid dev x) (hline : x.line < LOG_BANNER_LINE_COMPLETE) :
    left dev x = (lineText dev x.line).drop x.offset.toNat ++ textFrom dev (x.line + 1) := by
  rw [left, textFrom_of_lt hline, List.drop_append_of_le_length h.offset_le]

/-- What a step of the loop does with an offer that has room: it goes on to the next line having
put out the rest of this one, or stops having put out nothing of it, or goes on inside it. -/
lemma step_cases {x : Cursor} (h : Valid dev x) (hline : x.line < LOG_BANNER_LINE_COMPLETE)
    {o : Offer} (hroom : 0 < o.room) (os : List Offer) :
    (∃ out y, Valid dev y ∧ left dev x = out ++ left dev y ∧
      (y.line = x.line + 1 ∨ y.line = x.line ∧ out ≠ []) ∧
      (0 < o.takes → (lineText dev x.line).drop x.offset.toNat ≠ [] → out ≠ []) ∧
      logBannerWrite dev x (o :: os) = (logBannerWrite dev y os).map (out ++ ·) id) ∨
    (o.takes = 0 ∧ (lineText dev x.line).drop x.offset.toNat ≠ [] ∧
      logBannerWrite dev x (o :: os) = ([], x)) := by
  obtain ⟨hout, htotal⟩ :=
    @makeLine_eq dev x.line x.offset.toNat (min o.room LOG_DRAIN_CHUNK)
  have hle := h.offset_le
  have hmax := @length_lineText dev x.line
  rw [show LOG_BANNER_LINE_MAX = 255 from rfl] at hmax
  rw [logBannerWrite, if_neg (by omega), if_neg (by omega)]
  dsimp only
  rw [hout, htotal, List.take_take]
  set text := lineText dev x.line with htext
  set k := min o.takes ((text.drop x.offset.toNat).take (min o.room LOG_DRAIN_CHUNK)).length with hk
  have hklen : k ≤ text.length - x.offset.toNat ∧ k ≤ min o.room LOG_DRAIN_CHUNK := by
    rw [List.length_take, List.length_drop] at hk
    omega
  have hkpos : 0 < o.takes → text.drop x.offset.toNat ≠ [] → 0 < k := by
    intro htakes hne
    have hpos := List.length_pos_of_ne_nil hne
    have hchunk : 0 < LOG_DRAIN_CHUNK := by decide
    rw [hk, List.length_take]
    omega
  rw [Nat.min_eq_left hklen.2]
  have hne : 0 < k → (text.drop x.offset.toNat).take k ≠ [] := by
    intro hpos hnil
    have hlen := congrArg List.length hnil
    rw [List.length_take, List.length_drop, List.length_nil] at hlen
    omega
  split
  · next hdone =>
    refine Or.inl ⟨_, ⟨x.line + 1, 0⟩, ⟨hline, Or.inl rfl⟩, ?_, Or.inl rfl,
      fun htakes hleft => hne (hkpos htakes hleft), rfl⟩
    rw [left_eq h hline, ← htext, List.take_of_length_le (by rw [List.length_drop]; omega)]
    rfl
  · next hdone =>
    split
    · next hzero =>
      refine Or.inr ⟨?_, ?_, rfl⟩
      · by_contra htakes
        have := hkpos (by omega) (by rw [Ne, List.drop_eq_nil_iff]; omega)
        omega
      · rw [Ne, List.drop_eq_nil_iff]
        omega
    · next hzero =>
      have hcast : (UInt8.ofNat (x.offset.toNat + k)).toNat = x.offset.toNat + k := by
        rw [UInt8.toNat_ofNat']
        omega
      have hy : Valid dev ⟨x.line, UInt8.ofNat (x.offset.toNat + k)⟩ :=
        ⟨h.line, Or.inr ⟨hline, by rw [hcast, ← htext]; omega⟩⟩
      refine Or.inl ⟨_, _, hy, ?_, Or.inr ⟨rfl, hne (by omega)⟩,
        fun htakes hleft => hne (hkpos htakes hleft), rfl⟩
      rw [left_eq h hline, left_eq hy hline, hcast, ← htext, ← List.append_assoc,
        ← List.drop_drop, List.take_append_drop]

lemma write_complete {x : Cursor} (hline : LOG_BANNER_LINE_COMPLETE ≤ x.line) (os : List Offer) :
    logBannerWrite dev x os = ([], x) := by
  cases os with
  | nil => rw [logBannerWrite]
  | cons o os => rw [logBannerWrite, if_pos hline]

lemma left_complete {x : Cursor} (hline : x.line = LOG_BANNER_LINE_COMPLETE) :
    left dev x = [] := by
  rw [left, hline, textFrom_complete, List.drop_nil]

/-- **A pass** puts out a piece of what is left of the banner, and leaves the cursor after it. -/
lemma write_steps {x : Cursor} (h : Valid dev x) (os : List Offer) :
    Valid dev (logBannerWrite dev x os).2 ∧
      left dev x = (logBannerWrite dev x os).1 ++ left dev (logBannerWrite dev x os).2 := by
  induction os generalizing x with
  | nil => exact ⟨h, rfl⟩
  | cons o os ih =>
    rcases Nat.lt_or_ge x.line LOG_BANNER_LINE_COMPLETE with hline | hline
    swap
    · rw [write_complete hline]
      exact ⟨h, rfl⟩
    rcases Nat.eq_zero_or_pos o.room with hroom | hroom
    · rw [logBannerWrite, if_neg (by omega), if_pos hroom]
      exact ⟨h, rfl⟩
    rcases step_cases h hline hroom os with ⟨out, y, hy, hleft, -, -, heq⟩ | ⟨-, -, heq⟩
    · obtain ⟨hvalid, hrest⟩ := ih hy
      rw [heq]
      exact ⟨hvalid, by rw [hleft, hrest, ← List.append_assoc]; rfl⟩
    · rw [heq]
      exact ⟨h, rfl⟩

/-- An offer that the endpoint takes something of. -/
def Takes (o : Offer) : Prop := 0 < o.room ∧ 0 < o.takes

/-- **Unlimited room**: a pass with offers enough, each of which the endpoint takes something of,
completes the banner. -/
lemma write_all {x : Cursor} (h : Valid dev x) {os : List Offer} (hos : ∀ o ∈ os, Takes o)
    (hlen : (left dev x).length + (LOG_BANNER_LINE_COMPLETE - x.line) ≤ os.length) :
    (logBannerWrite dev x os).2.line = LOG_BANNER_LINE_COMPLETE := by
  induction os generalizing x with
  | nil =>
    have hline := h.line
    rw [List.length_nil] at hlen
    rw [logBannerWrite]
    dsimp only
    omega
  | cons o os ih =>
    rcases Nat.lt_or_ge x.line LOG_BANNER_LINE_COMPLETE with hline | hline
    swap
    · rw [write_complete hline]
      exact Nat.le_antisymm h.line hline
    obtain ⟨⟨hroom, htakes⟩, hos⟩ := List.forall_mem_cons.mp hos
    rcases step_cases h hline hroom os with ⟨out, y, hy, hleft, hgoes, -, heq⟩ | ⟨hzero, -⟩
    · rw [heq]
      refine ih hy hos ?_
      rw [hleft, List.length_append, List.length_cons] at hlen
      rcases hgoes with hnext | ⟨hsame, hne⟩
      · omega
      · have := List.length_pos_of_ne_nil hne
        omega
    · omega

/-- A pass that the endpoint takes something of until the last line puts out something. -/
lemma write_feeds {x : Cursor} (h : Valid dev x) {os : List Offer} {n : ℕ}
    (hn : LOG_BANNER_LINE_COMPLETE - x.line ≤ n) (hlen : n ≤ os.length)
    (hos : ∀ o ∈ os.take n, Takes o) (hne : left dev x ≠ []) :
    (logBannerWrite dev x os).1 ≠ [] := by
  have hline : x.line < LOG_BANNER_LINE_COMPLETE :=
    Nat.lt_of_le_of_ne h.line fun heq => hne (left_complete heq)
  induction os generalizing x n with
  | nil =>
    rw [List.length_nil] at hlen
    omega
  | cons o os ih =>
    obtain ⟨n, rfl⟩ : ∃ m, n = m + 1 := ⟨n - 1, by omega⟩
    rw [List.take_succ_cons] at hos
    obtain ⟨⟨hroom, htakes⟩, hos⟩ := List.forall_mem_cons.mp hos
    rw [List.length_cons] at hlen
    rcases step_cases h hline hroom os with ⟨out, y, hy, hleft, hgoes, hout, heq⟩ | ⟨hzero, -⟩
    swap
    · omega
    rw [heq]
    intro hnil
    obtain ⟨rfl, hnil⟩ := List.append_eq_nil_iff.mp hnil
    -- nothing was left of this line, so the next is as far from the end as the offers allow
    rcases hgoes with hnext | ⟨-, hne⟩
    swap
    · exact hne rfl
    rw [List.nil_append] at hleft
    have hney : left dev y ≠ [] := by rwa [← hleft]
    have hliney : y.line < LOG_BANNER_LINE_COMPLETE :=
      Nat.lt_of_le_of_ne hy.line fun heq => hney (left_complete heq)
    exact ih hy (by omega) (by omega) hos hney hliney hnil

lemma pass_resumes : Resumes (pass dev) (Valid dev) (left dev) where
  step x os hx := by
    obtain ⟨hvalid, hleft⟩ := write_steps hx os
    refine ⟨_, _, _, rfl, hvalid, hleft, fun hdone => ?_⟩
    exact left_complete (of_decide_eq_true hdone)

/-- The endpoint takes something at each line, if need be. -/
def Feeds (os : List Offer) : Prop :=
  LOG_BANNER_LINE_COMPLETE ≤ os.length ∧ ∀ o ∈ os.take LOG_BANNER_LINE_COMPLETE, Takes o

/-- **The banner**: however the endpoint takes it, what is put out is a beginning of the text, and
all of it when the cursor is past the last line. -/
lemma banner_chunked (passes : List (List Offer)) :
    ∃ calls y, drain (pass dev) start passes = .ok (calls, y) ∧
      sent calls <+: bannerText dev ∧
      (y.line = LOG_BANNER_LINE_COMPLETE → sent calls = bannerText dev) := by
  obtain ⟨calls, y, hdrain, hy, hleft⟩ := pass_resumes.drain valid_start passes
  rw [left_start] at hleft
  refine ⟨calls, y, hdrain, ⟨_, hleft.symm⟩, fun hline => ?_⟩
  rw [hleft, left_complete hline, List.append_nil]

/-- All of the text is put out where the endpoint keeps taking something. -/
lemma banner_fair (passes : ℕ → List Offer)
    (hfair : ∀ n, ∃ k, n ≤ k ∧ Feeds (passes k)) :
    ∃ n calls y, drain (pass dev) start ((List.range n).map passes) = .ok (calls, y) ∧
      sent calls = bannerText dev := by
  have hfeeds : ∀ x os out done y, Valid dev x → Feeds os → left dev x ≠ [] →
      pass dev x os = .ok (out, done, y) → out ≠ [] := by
    intro x os out done y hx hos hne hgen
    have hout : (logBannerWrite dev x os).1 = out := congrArg Prod.fst (Except.ok.inj hgen)
    rw [← hout]
    exact write_feeds hx (Nat.sub_le ..) hos.1 hos.2 hne
  exact pass_resumes.drain_all hfeeds valid_start passes hfair

/-- With room enough, one pass puts out the whole of it. -/
lemma banner_unlimited {os : List Offer} (hos : ∀ o ∈ os, Takes o)
    (hlen : (bannerText dev).length + LOG_BANNER_LINE_COMPLETE ≤ os.length) :
    (logBannerWrite dev start os).1 = bannerText dev ∧
      (logBannerWrite dev start os).2.line = LOG_BANNER_LINE_COMPLETE := by
  have hstart : Valid dev start := valid_start
  have hline := write_all hstart hos hlen
  obtain ⟨-, hleft⟩ := write_steps hstart os
  rw [left_start, left_complete hline, List.append_nil] at hleft
  exact ⟨hleft.symm, hline⟩

/-! ### Chunking -/

/-- **USB responses do not depend on how they are chunked.** An accepted command's response has the
length that was asked for and is put out in order, in pieces for which there is room, the last of
them by the call that is done; and the banner is put out as it is with unlimited room. -/
theorem usb_chunking {fw : Firmware} {apply : CmdId → Cmd → Except PbStatus Unit} {cmd : Cmd}
    {x : InXfer} (dev : Device) (haccept : dispatch fw apply cmd = .ok (some x)) :
    ((response fw cmd).length = cmd.transferLen ∧
      (∀ maxLens, ∃ calls y, drain (fill fw cmd) x maxLens = .ok (calls, y) ∧
        Chunked fw cmd calls) ∧
      ∀ maxLens : ℕ → ℕ, (∀ n, ∃ k, n ≤ k ∧ unit cmd ≤ maxLens k) →
        ∃ n calls y, drain (fill fw cmd) x ((List.range n).map maxLens) = .ok (calls, y) ∧
          sent calls = response fw cmd) ∧
    (∀ passes, ∃ calls y, drain (pass dev) start passes = .ok (calls, y) ∧
      sent calls <+: bannerText dev ∧
      (y.line = LOG_BANNER_LINE_COMPLETE → sent calls = bannerText dev)) ∧
    (∀ passes : ℕ → List Offer, (∀ n, ∃ k, n ≤ k ∧ Feeds (passes k)) →
      ∃ n calls y, drain (pass dev) start ((List.range n).map passes) = .ok (calls, y) ∧
        sent calls = bannerText dev) ∧
    ∀ os, (∀ o ∈ os, Takes o) →
      (bannerText dev).length + LOG_BANNER_LINE_COMPLETE ≤ os.length →
        (logBannerWrite dev start os).1 = bannerText dev ∧
          (logBannerWrite dev start os).2.line = LOG_BANNER_LINE_COMPLETE :=
  ⟨response_chunked haccept, banner_chunked, banner_fair, fun _ => banner_unlimited⟩

/-- A firmware with GPIOs, and LEDs that it does not tell of. -/
def firmwareEx : Firmware :=
  ⟨.a, true, true, fun gpio => ⟨gpio, 1, 0⟩, false, none, false⟩

/-- A query of four GPIOs from the third. -/
def queryEx : Cmd := ⟨0x84, 16, 16, #v[3, 4, 0, 0, 0, 0, 0, 0, 0, 0, 0, 0, 0, 0, 0, 0]⟩

def deviceEx : Device := ⟨some (strBytes "fire-24-a"), none, none, [], none, true⟩

theorem usb_chunking_query :
    dispatch firmwareEx (fun _ _ => .ok ()) queryEx = .ok (some ⟨0, 16, 3, 0⟩) ∧
    ∃ calls y, drain (fill firmwareEx queryEx) ⟨0, 16, 3, 0⟩ [7, 3, 64] = .ok (calls, y) ∧
      Chunked firmwareEx queryEx calls := by
  have haccept : dispatch firmwareEx (fun _ _ => .ok ()) queryEx = .ok (some ⟨0, 16, 3, 0⟩) := rfl
  exact ⟨haccept, (usb_chunking deviceEx haccept).1.2.1 [7, 3, 64]⟩

end OneRom.UsbBanner
