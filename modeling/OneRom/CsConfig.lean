import OneRom.ChipTypes

/-!
The control line settings of a chip: as the user states them, and as the generator holds them.

`CsConfig.from_chip_type` folds what is stated into one of three variants, and the accessors read
a line's setting back.
-/

namespace OneRom.CsConfig

open OneRom.ChipTypes

inductive CsLogic
  | activeLow
  | activeHigh
  /-- The line isn't monitored. -/
  | ignore
  deriving DecidableEq, Repr

inductive CsConfig
  | chipSelect (cs1 : CsLogic) (cs2 cs3 cs4 : Option CsLogic)
  | ceOe
  | ceOeExplicit (ce oe : CsLogic)
  deriving DecidableEq, Repr

/-- The settings a user states for a chip's lines. -/
structure Stated where
  cs1 : Option CsLogic := none
  cs2 : Option CsLogic := none
  cs3 : Option CsLogic := none
  cs4 : Option CsLogic := none
  ce : Option CsLogic := none
  oe : Option CsLogic := none
  deriving DecidableEq, Repr

def Stated.line (s : Stated) : LineName → Option CsLogic
  | .cs1 => s.cs1
  | .cs2 => s.cs2
  | .cs3 => s.cs3
  | .cs4 => s.cs4
  | .ce => s.ce
  | .oe => s.oe
  | _ => none

namespace CsConfig

/-- From the CS lines. `none` is the panic where a CS line is used and CS1 isn't specified. -/
def new (cs1 cs2 cs3 cs4 : Option CsLogic) : Option CsConfig :=
  if cs1.isNone ∧ cs2.isNone ∧ cs3.isNone ∧ cs4.isNone then some .ceOe
  else cs1.map fun cs1 => .chipSelect cs1 cs2 cs3 cs4

/-- From `ce` and `oe`, active low where they aren't stated. -/
def newWithCeOe (ce oe : Option CsLogic) : CsConfig :=
  let ce := ce.getD .activeLow
  let oe := oe.getD .activeLow
  if ce = .activeLow ∧ oe = .activeLow then .ceOe else .ceOeExplicit ce oe

/-- What the generator makes of a CS line: where its polarity is fixed the chip type decides,
unless the line is ignored. -/
def resolve (t : ChipType) (name : LineName) (user : Option CsLogic) : Option CsLogic :=
  match t.line name with
  | none => user
  | some spec =>
    match spec.lineType.fixedActiveLevel with
    | none => user
    | some activeHigh =>
      if user = some .ignore then some .ignore
      else if activeHigh then some .activeHigh else some .activeLow

def fromChipType (t : ChipType) (s : Stated) : Option CsConfig :=
  if s.ce.isSome ∨ s.oe.isSome then some (newWithCeOe s.ce s.oe)
  else new (resolve t .cs1 s.cs1) (resolve t .cs2 s.cs2) (resolve t .cs3 s.cs3)
    (resolve t .cs4 s.cs4)

def cs1Logic : CsConfig → Option CsLogic
  | .chipSelect cs1 _ _ _ => some cs1
  | .ceOe => some .activeLow
  | .ceOeExplicit ce oe => if ce ≠ .ignore then some ce else some oe

def cs2Logic : CsConfig → Option CsLogic
  | .chipSelect _ cs2 _ _ => cs2
  | .ceOe => some .activeLow
  | .ceOeExplicit ce oe => if ce ≠ .ignore then some oe else some ce

def cs3Logic : CsConfig → Option CsLogic
  | .chipSelect _ _ cs3 _ => cs3
  | _ => none

def cs4Logic : CsConfig → Option CsLogic
  | .chipSelect _ _ _ cs4 => cs4
  | _ => none

end CsConfig

/-- A line's setting, by name. Active low where the configuration has no such line. -/
def controlLineLogic (name : LineName) (c : CsConfig) : CsLogic :=
  match name with
  | .ce =>
    match c with
    | .ceOeExplicit ce _ => ce
    | _ => .activeLow
  | .oe =>
    match c with
    | .ceOeExplicit _ oe => oe
    | _ => .activeLow
  | .cs1 => c.cs1Logic.getD .activeLow
  | .cs2 => c.cs2Logic.getD .activeLow
  | .cs3 => c.cs3Logic.getD .activeLow
  | .cs4 => c.cs4Logic.getD .activeLow
  | _ => .activeLow

end OneRom.CsConfig
