import OneRom.OtpEntry

/-!
A One ROM board, as its configuration describes it.

The fields are those the OTP store and the generator read; the proofs a board carries are the
checks the configuration's build makes of every board.
-/

namespace OneRom.Hw

open OneRom.OtpEntry

/-- The GPIO of a pin a board doesn't have. -/
def GPIO_NONE : ℕ := 255

/-- A Fire board has an RP2350, an Ice board an STM32F4. -/
inductive Model
  | fire
  | ice
  deriving DecidableEq, Repr

structure Board where
  name : String
  /-- A board's configuration file is named after it, and the name starts with a letter. -/
  name_ne : name ≠ "" := by decide
  chipPins : ℕ
  /-- The GPIOs each pin of the socket is bonded to. -/
  socketPinMap : List (ℕ × List ℕ) := []
  /-- The GPIOs each of the X header's pins is bonded to. -/
  xPinMap : List (ℕ × List ℕ) := []
  pinByte : ℕ := GPIO_NONE
  xJumperPull : ℕ := 0
  model : Model := .fire
  /-- The chip select of a second flash chip, on the boards that can have one. -/
  externalFlashCsPin : Option UInt8 := none
  bonds : ∀ entry ∈ socketPinMap ++ xPinMap, entry.2.length ≤ 2 := by decide +kernel
  /-- No GPIO is bonded twice. -/
  apart : ((socketPinMap ++ xPinMap).flatMap (·.2)).Nodup := by decide +kernel
  exposed : ∀ entry ∈ socketPinMap ++ xPinMap, ∀ gpio ∈ entry.2, gpio < 48 := by decide +kernel
  /-- The `/BYTE` line of the chips that have one is pin 31. -/
  byte : pinByte = GPIO_NONE ∨ ∃ entry ∈ socketPinMap, entry.1 = 31 ∧ pinByte ∈ entry.2 := by
    decide +kernel

lemma Board.length_name_pos (board : Board) : 0 < (strBytes board.name).length := by
  have h : board.name.toByteArray.size ≠ 0 := by
    simpa [String.utf8ByteSize_eq_zero_iff] using board.name_ne
  simpa [strBytes, Nat.pos_iff_ne_zero] using h

namespace Board

variable (board : Board)

def gpiosForSocketPin (pin : ℕ) : List ℕ :=
  ((board.socketPinMap.find? (·.1 == pin)).map (·.2)).getD []

def gpiosForXPin (pin : ℕ) : List ℕ := ((board.xPinMap.find? (·.1 == pin)).map (·.2)).getD []

end Board

/-! ### Pins -/

/-- Where a GPIO may be bonded to. -/
inductive Pin
  | socket (n : ℕ)
  | x (n : ℕ)
  deriving DecidableEq, Repr

def Board.gpios (board : Board) : Pin → List ℕ
  | .socket n => board.gpiosForSocketPin n
  | .x n => board.gpiosForXPin n

lemma mem_find_getD {l : List (ℕ × List ℕ)} {n g : ℕ}
    (h : g ∈ ((l.find? (·.1 == n)).map (·.2)).getD []) :
    ∃ entry ∈ l, entry.1 = n ∧ g ∈ entry.2 := by
  cases hf : l.find? (·.1 == n) with
  | none => simp [hf] at h
  | some entry =>
    refine ⟨entry, List.mem_of_find?_eq_some hf, by simpa using List.find?_some hf, ?_⟩
    simpa [hf] using h

lemma eq_of_mem_flatMap_nodup {α β : Type*} {l : List α} {f : α → List β}
    (h : (l.flatMap f).Nodup) {a b : α} (ha : a ∈ l) (hb : b ∈ l) {x : β} (hxa : x ∈ f a)
    (hxb : x ∈ f b) : a = b := by
  by_contra hne
  have hpairwise := (List.nodup_flatMap.mp h).2
  have : Std.Symm (Function.onFun List.Disjoint f) := ⟨fun _ _ hd => hd.symm⟩
  exact hpairwise.forall ha hb hne hxa hxb

variable {board : Board}

lemma Board.lt_of_mem_gpios {p : Pin} {g : ℕ} (h : g ∈ board.gpios p) : g < 48 := by
  cases p with
  | socket n =>
    obtain ⟨entry, he, -, hg⟩ := mem_find_getD h
    exact board.exposed entry (List.mem_append_left _ he) g hg
  | x n =>
    obtain ⟨entry, he, -, hg⟩ := mem_find_getD h
    exact board.exposed entry (List.mem_append_right _ he) g hg

/-- A GPIO is bonded to one pin. -/
lemma Board.pin_eq {p q : Pin} {g : ℕ} (hp : g ∈ board.gpios p) (hq : g ∈ board.gpios q) :
    p = q := by
  have hdisj := List.nodup_append.mp (List.flatMap_append ▸ board.apart)
  cases p with
  | socket m =>
    obtain ⟨a, ha, rfl, hga⟩ := mem_find_getD hp
    cases q with
    | socket n =>
      obtain ⟨b, hb, rfl, hgb⟩ := mem_find_getD hq
      rw [eq_of_mem_flatMap_nodup hdisj.1 ha hb hga hgb]
    | x n =>
      obtain ⟨b, hb, rfl, hgb⟩ := mem_find_getD hq
      exact absurd rfl (hdisj.2.2 g (List.mem_flatMap.mpr ⟨a, ha, hga⟩) g
        (List.mem_flatMap.mpr ⟨b, hb, hgb⟩))
  | x m =>
    obtain ⟨a, ha, rfl, hga⟩ := mem_find_getD hp
    cases q with
    | socket n =>
      obtain ⟨b, hb, rfl, hgb⟩ := mem_find_getD hq
      exact absurd rfl (hdisj.2.2 g (List.mem_flatMap.mpr ⟨b, hb, hgb⟩) g
        (List.mem_flatMap.mpr ⟨a, ha, hga⟩))
    | x n =>
      obtain ⟨b, hb, rfl, hgb⟩ := mem_find_getD hq
      rw [eq_of_mem_flatMap_nodup hdisj.2.1 ha hb hga hgb]

/-- The `/BYTE` line's GPIO is that of pin 31. -/
lemma Board.pin_of_byte {p : Pin} (hp : board.pinByte ∈ board.gpios p) : p = .socket 31 := by
  rcases board.byte with hnone | ⟨entry, he, hpin, hg⟩
  · exact absurd (board.lt_of_mem_gpios hp) (by rw [hnone]; decide)
  · have hdisj := List.nodup_append.mp (List.flatMap_append ▸ board.apart)
    cases p with
    | socket n =>
      obtain ⟨b, hb, rfl, hgb⟩ := mem_find_getD hp
      rw [← eq_of_mem_flatMap_nodup hdisj.1 he hb hg hgb, hpin]
    | x n =>
      obtain ⟨b, hb, -, hgb⟩ := mem_find_getD hp
      exact absurd rfl (hdisj.2.2 _ (List.mem_flatMap.mpr ⟨entry, he, hg⟩) _
        (List.mem_flatMap.mpr ⟨b, hb, hgb⟩))

/-! ### The boards -/

/-- The pins of a socket that carry a signal. -/
def signalPins (quantity : ℕ) (nonSignal : List ℕ) : List ℕ :=
  (List.range' 1 quantity).filter (· ∉ nonSignal)

def signal24 : List ℕ := signalPins 24 [12, 24]
def signal28 : List ℕ := signalPins 28 [14, 28]
def signal32 : List ℕ := signalPins 32 [16, 32]
def signal40 : List ℕ := signalPins 40 [11, 21, 30]

/-- Pins bonded to one GPIO each, in order. -/
def bonded (pins gpios : List ℕ) : List (ℕ × List ℕ) := pins.zip (gpios.map fun gpio => [gpio])

def socket24A : List (ℕ × List ℕ) := bonded signal24
  [0, 1, 2, 3, 4, 5, 6, 7, 16, 17, 18, 19, 20, 21, 22, 23, 15, 14, 13, 12, 11, 10]

def socket24C : List (ℕ × List ℕ) := bonded signal24
  [16, 17, 18, 20, 19, 22, 23, 21, 7, 6, 5, 2, 0, 1, 3, 4, 11, 13, 10, 12, 14, 15]

def socket24E : List (ℕ × List ℕ) := bonded signal24
  [16, 17, 18, 19, 20, 21, 22, 23, 7, 6, 5, 0, 1, 2, 3, 4, 11, 13, 10, 12, 14, 15]

def socket24Eadb01 : List (ℕ × List ℕ) := bonded signal24
  [16, 17, 18, 19, 20, 21, 22, 23, 7, 6, 5, 0, 1, 2, 3, 4, 11, 13, 10, 12, 9, 8]

def socket24UsbB : List (ℕ × List ℕ) := bonded signal24
  [16, 17, 18, 20, 19, 22, 23, 21, 7, 6, 5, 0, 1, 2, 3, 4, 8, 9, 10, 11, 12, 13]

def socket28A : List (ℕ × List ℕ) := bonded signal28
  [16, 17, 18, 20, 19, 21, 22, 23, 24, 25, 7, 6, 5, 0, 1, 2, 3, 4, 9, 11, 8, 13, 12, 14, 15, 10]

def socket28C : List (ℕ × List ℕ) := bonded signal28
  [18, 19, 20, 21, 22, 23, 24, 25, 26, 27, 0, 1, 2, 3, 4, 5, 6, 7, 10, 13, 11, 14, 15, 16, 17, 12]

def socket32A : List (ℕ × List ℕ) := signal32.zip
  [[13], [16], [25], [26], [27], [28], [29], [30], [31], [32], [33], [34], [0], [1], [2], [3], [4],
   [5], [6], [7], [15], [17], [14, 35], [18], [19], [20], [21], [22], [23], [24]]

def socket32B : List (ℕ × List ℕ) := signal32.zip
  [[13, 35], [12, 18], [19], [26], [27], [28], [29], [30], [31], [32], [33], [34], [0], [1], [2],
   [3], [4], [5], [6], [7], [14], [20], [15, 36], [21], [22], [23], [24], [25], [11, 17], [10, 16]]

def socket40A : List (ℕ × List ℕ) := signal40.zip
  [[28], [29], [30], [31], [32], [33], [34], [35], [36], [17], [16], [0], [8], [1], [9], [2], [10],
   [3], [11], [4], [12], [5], [13], [6], [14], [7], [15, 37], [18], [19], [20], [21], [22], [23],
   [24], [25], [26], [27]]

def socket40B : List (ℕ × List ℕ) := signal40.zip
  [[36], [28], [29], [30], [31], [32], [33], [34], [35], [17], [16], [0], [8], [1], [9], [2], [10],
   [3], [11], [4], [12], [5], [13], [6], [14], [7], [15, 37], [18], [19], [20], [21], [22], [23],
   [24], [25], [26], [27]]

def fire24A : Board where
  name := "fire-24-a"
  chipPins := 24
  socketPinMap := socket24A
  xPinMap := [(1, [9]), (2, [8])]

def fire24C : Board where
  name := "fire-24-c"
  chipPins := 24
  socketPinMap := socket24C
  xPinMap := [(1, [9]), (2, [8])]

def fire24D : Board where
  name := "fire-24-d"
  chipPins := 24
  socketPinMap := socket24C
  xPinMap := [(1, [9]), (2, [8])]

def fire24E : Board where
  name := "fire-24-e"
  chipPins := 24
  socketPinMap := socket24E
  xPinMap := [(1, [9]), (2, [8])]

def fire24Eadb01 : Board where
  name := "fire-24-eadb01"
  chipPins := 24
  socketPinMap := socket24Eadb01
  xPinMap := [(1, [15]), (2, [14])]

def fire24F : Board where
  name := "fire-24-f"
  chipPins := 24
  socketPinMap := socket24E
  xPinMap := [(1, [9]), (2, [8])]

def fire24G : Board where
  name := "fire-24-g"
  chipPins := 24
  socketPinMap := socket24E
  xPinMap := [(1, [9]), (2, [8])]

def fire24UsbB : Board where
  name := "fire-24-usb-b"
  chipPins := 24
  socketPinMap := socket24UsbB
  xPinMap := [(1, [14]), (2, [15])]

def fire28A : Board where
  name := "fire-28-a"
  chipPins := 28
  socketPinMap := socket28A

def fire28B : Board where
  name := "fire-28-b"
  chipPins := 28
  socketPinMap := socket28A

def fire28C : Board where
  name := "fire-28-c"
  chipPins := 28
  socketPinMap := socket28C
  xPinMap := [(1, [9, 28]), (2, [8, 29])]

def fire28D : Board where
  name := "fire-28-d"
  chipPins := 28
  socketPinMap := socket28C
  xPinMap := [(1, [9, 28]), (2, [8, 29])]

def fire32A : Board where
  name := "fire-32-a"
  chipPins := 32
  socketPinMap := socket32A
  externalFlashCsPin := some 47

def fire32B : Board where
  name := "fire-32-b"
  chipPins := 32
  socketPinMap := socket32B
  externalFlashCsPin := some 47

def fire32C : Board where
  name := "fire-32-c"
  chipPins := 32
  socketPinMap := socket32B
  externalFlashCsPin := some 47

def fire40A : Board where
  name := "fire-40-a"
  chipPins := 40
  socketPinMap := socket40A
  pinByte := 18
  externalFlashCsPin := some 47

def fire40B : Board where
  name := "fire-40-b"
  chipPins := 40
  socketPinMap := socket40B
  pinByte := 18
  externalFlashCsPin := some 47

def fire40C : Board where
  name := "fire-40-c"
  chipPins := 40
  socketPinMap := socket40B
  pinByte := 18
  externalFlashCsPin := some 47

def ice24D : Board where
  name := "ice-24-d"
  chipPins := 24
  xJumperPull := 1
  model := .ice

def ice24E : Board where
  name := "ice-24-e"
  chipPins := 24
  xJumperPull := 1
  model := .ice

def ice24F : Board where
  name := "ice-24-f"
  chipPins := 24
  xJumperPull := 1
  model := .ice

def ice24G : Board where
  name := "ice-24-g"
  chipPins := 24
  model := .ice

def ice24I : Board where
  name := "ice-24-i"
  chipPins := 24
  model := .ice

def ice24J : Board where
  name := "ice-24-j"
  chipPins := 24
  model := .ice

def ice24UsbH : Board where
  name := "ice-24-usb-h"
  chipPins := 24
  model := .ice

def ice28A : Board where
  name := "ice-28-a"
  chipPins := 28
  xJumperPull := 1
  model := .ice

/-- The boards there are. -/
def boards : List Board :=
  [fire24A, fire24C, fire24D, fire24E, fire24Eadb01, fire24F, fire24G,
   fire24UsbB, fire28A, fire28B, fire28C, fire28D, fire32A, fire32B, fire32C, fire40A, fire40B,
   fire40C, ice24D, ice24E, ice24F, ice24G, ice24I, ice24J, ice24UsbH, ice28A]

/-- A board with X pins has the pins of its socket bonded to one GPIO each. -/
lemma single_of_xPins : ∀ board ∈ boards, board.xPinMap ≠ [] →
    ∀ entry ∈ board.socketPinMap, entry.2.length = 1 := by
  decide +kernel

end OneRom.Hw
