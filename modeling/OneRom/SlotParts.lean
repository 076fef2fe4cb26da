import OneRom.Bonds
import OneRom.SlotArg

/-!
A `--slot` argument: settings as `key=value`, with commas between them.

`parse_slot` goes through the parts in order and keeps the last value given for each setting. A key
may not come twice, but a setting has several keys, so it may be given twice under two of them.
`parseSlot_orderFree_iff` says when the order of the parts makes no difference.
-/

namespace OneRom.SlotParts

open OneRom.Bonds OneRom.Checks OneRom.ChipTypes OneRom.CsConfig OneRom.SlotArg OneRom.SlotArg.QuotesOnly

/-- What is read of a board: how many pins its chips have, and the chip types it might take. -/
structure Board where
  chipPins : ℕ
  candidateChipNames : String

/-- What a slot argument is read against. -/
structure Env where
  board : Board
  /-- The home directory, where it is set. -/
  home : Option Text
  /-- What a text stands for between the quotes of a JSON string. -/
  unquote : Text → Option Text

/-! ### Settings -/

inductive Setting
  | file | label | type | cs1 | cs2 | cs3 | cs4 | sizeHandling | cpuFreq | vreg | led | force16bit
  | standby | format | loadAddress | transform
  deriving DecidableEq, Repr

/-- A value given for a setting. -/
inductive Given
  | file (v : Text)
  | label (v : Text)
  | type (v : Text)
  | cs1 (v : CsLogic)
  | cs2 (v : CsLogic)
  | cs3 (v : CsLogic)
  | cs4 (v : CsLogic)
  | sizeHandling (v : SizeHandling)
  | cpuFreq (v : ℕ)
  | vreg (v : FireVreg)
  | led (v : Bool)
  | force16bit (v : Bool)
  | standby (v : Bool)
  | format (v : FileFormat)
  | loadAddress (v : ℕ)
  | transform (v : List Transform)
  deriving DecidableEq, Repr

def Given.setting : Given → Setting
  | .file _ => .file
  | .label _ => .label
  | .type _ => .type
  | .cs1 _ => .cs1
  | .cs2 _ => .cs2
  | .cs3 _ => .cs3
  | .cs4 _ => .cs4
  | .sizeHandling _ => .sizeHandling
  | .cpuFreq _ => .cpuFreq
  | .vreg _ => .vreg
  | .led _ => .led
  | .force16bit _ => .force16bit
  | .standby _ => .standby
  | .format _ => .format
  | .loadAddress _ => .loadAddress
  | .transform _ => .transform

/-- The settings given so far. -/
structure Vars where
  file : Option Text := none
  label : Option Text := none
  chipTypeStr : Option Text := none
  cs1 : Option CsLogic := none
  cs2 : Option CsLogic := none
  cs3 : Option CsLogic := none
  cs4 : Option CsLogic := none
  sizeHandling : Option SizeHandling := none
  cpuFreq : Option ℕ := none
  vreg : Option FireVreg := none
  led : Option Bool := none
  force16bit : Option Bool := none
  standby : Option Bool := none
  format : Option FileFormat := none
  loadAddress : Option ℕ := none
  transform : List Transform := []
  deriving DecidableEq, Repr

/-- The last value given for a setting stands. -/
def Vars.give (vars : Vars) : Given → Vars
  | .file v => { vars with file := some v }
  | .label v => { vars with label := some v }
  | .type v => { vars with chipTypeStr := some v }
  | .cs1 v => { vars with cs1 := some v }
  | .cs2 v => { vars with cs2 := some v }
  | .cs3 v => { vars with cs3 := some v }
  | .cs4 v => { vars with cs4 := some v }
  | .sizeHandling v => { vars with sizeHandling := some v }
  | .cpuFreq v => { vars with cpuFreq := some v }
  | .vreg v => { vars with vreg := some v }
  | .led v => { vars with led := some v }
  | .force16bit v => { vars with force16bit := some v }
  | .standby v => { vars with standby := some v }
  | .format v => { vars with format := some v }
  | .loadAddress v => { vars with loadAddress := some v }
  | .transform v => { vars with transform := v }

/-! ### Parsing -/

/-- A path from the home directory, where it starts with a tilde. -/
def expandTilde (home : Option Text) (path : Text) : Text :=
  match stripPrefix ['~', '/'] path, home with
  | some rest, some home => home ++ '/' :: rest
  | _, _ => path

def SLOT_KEYS : List String :=
  ["file", "label", "type", "cs1", "cs2", "cs3", "cs4", "size-handling", "size", "cpu-freq",
    "cpu-vreg", "led", "force-16-bit", "standby", "format", "load-address", "transform"]

section

variable (env : Env) (slot : Text)

/-- The value a key and the text after it give. -/
def parseValue (key : String) (value : Text) : Except Error Given :=
  if key ∈ ["file", "path", "url"] then .ok (.file (expandTilde env.home value))
  else if key ∈ ["label", "name"] then .ok (.label value)
  else if key ∈ ["type", "rom-type", "rom_type", "chip_type", "chip-type"] then .ok (.type value)
  else if key = "cs1" then .cs1 <$> parseCsLogic slot key value
  else if key = "cs2" then .cs2 <$> parseCsLogic slot key value
  else if key = "cs3" then .cs3 <$> parseCsLogic slot key value
  else if key = "cs4" then .cs4 <$> parseCsLogic slot key value
  else if key ∈ ["size-handling", "size_handling", "size"] then
    .sizeHandling <$> parseSizeHandling slot env.unquote value
  else if key ∈ ["cpu", "freq", "frequency", "cpu-freq", "cpu_freq", "cpu_frequency",
      "cpu-frequency"] then .cpuFreq <$> parseCpuFreq slot key value
  else if key ∈ ["vreg", "cpu-vreg", "cpu_vreg"] then
    .vreg <$> parseVreg slot env.unquote key value
  else if key ∈ ["led", "status_led", "status-led"] then .led <$> parseBool slot key value
  else if key ∈ ["16bit", "force_16bit", "force_16_bit", "force-16bit", "force-16-bit"] then
    .force16bit <$> parseBool slot key value
  else if key = "standby" then .standby <$> parseBool slot key value
  else if key = "format" then .format <$> parseFormat slot value
  else if key ∈ ["load_address", "load-address", "load_addr"] then
    .loadAddress <$> parseLoadAddress slot value
  else if key ∈ ["transform", "trans"] then .transform <$> parseTransform slot value
  else .error (slotError slot ("Unrecognised slot key '" ++ key ++ "'")
    ("\n  Supported keys: " ++ ", ".intercalate SLOT_KEYS))

/-- A part's key, and the text after its first equals sign. -/
def splitPart (part : Text) : Except Error (Text × Text) :=
  okOr ((splitOnce '=' part).map fun e => (trim e.1, e.2))
    (slotError slot ("Slot key '" ++ String.ofList part ++
      "' is missing a value - expected '" ++ String.ofList part ++ "=<value>'"))

/-- Goes through the parts. `seen` are the keys so far. -/
def parseParts (seen : List Text) (vars : Vars) : List Text → Except Error Vars
  | [] => .ok vars
  | part :: rest => do
    let (key, value) ← splitPart slot part
    refuse (key ∈ seen)
      (slotError slot ("Duplicate slot key '" ++ String.ofList key ++ "' found."))
    let given ← parseValue env slot (String.ofList key) value
    parseParts (key :: seen) (vars.give given) rest

/-! ### Validation -/

/-- A chip type and the text the user wrote for it. -/
structure ChipTypeSpec where
  raw : Text
  resolved : ChipType
  deriving DecidableEq, Repr

structure SlotSpec where
  file : Option Text
  label : Option Text
  chipType : ChipTypeSpec
  cs1 : Option CsLogic
  cs2 : Option CsLogic
  cs3 : Option CsLogic
  cs4 : Option CsLogic
  sizeHandling : Option SizeHandling
  cpuFreq : Option ℕ
  vreg : Option FireVreg
  led : Option Bool
  force16bit : Option Bool
  standby : Option Bool
  format : Option FileFormat
  loadAddress : Option ℕ
  transform : List Transform
  deriving DecidableEq, Repr

def lineText : LineName → String
  | .busy => "busy"
  | .byte => "byte"
  | .ce => "ce"
  | .cs1 => "cs1"
  | .cs2 => "cs2"
  | .cs3 => "cs3"
  | .cs4 => "cs4"
  | .oe => "oe"
  | .write => "write"

/-- The setting stated for a line. Only the CS lines have one. -/
def suppliedFor (vars : Vars) : LineName → Option CsLogic
  | .cs1 => vars.cs1
  | .cs2 => vars.cs2
  | .cs3 => vars.cs3
  | .cs4 => vars.cs4
  | _ => none

/-- A configurable line is stated; a fixed one isn't, though it may be ignored. -/
def validateLine (type : ChipType) (vars : Vars) (line : ControlLineSpec) : Except Error Unit :=
  let supplied := suppliedFor vars line.name
  match line.lineType with
  | .configurable => refuse (supplied = none) (slotError slot
      ("Chip type " ++ type.name ++ " requires " ++ lineText line.name ++ " to be specified"))
  | fixed => refuse (∃ logic ∈ supplied, logic ≠ .ignore) (slotError slot
      ("Chip type " ++ type.name ++ " has fixed " ++
        (if fixed = .fixedActiveHigh then "active-high" else "active-low") ++ " " ++
        lineText line.name ++ ", do not specify it"))

/-- A line that is stated is one the chip has, but for the `cs1` that selects a half. -/
def validateStated (type : ChipType) (vars : Vars) (name : LineName) : Except Error Unit :=
  if name = .cs1 ∧ type.requiresHalfSelectCs1 then .ok ()
  else refuse (suppliedFor vars name ≠ none ∧ ¬type.controlLines.any (·.name == name))
    (slotError slot ("Chip type " ++ type.name ++ " has no " ++ lineText name ++ " line"))

def validateCsLines (type : ChipType) (vars : Vars) : Except Error Unit := do
  type.controlLines.forM (validateLine slot type vars)
  [LineName.cs1, .cs2, .cs3, .cs4].forM (validateStated slot type vars)

def fileOptional (type : ChipType) (vars : Vars) : Bool :=
  match type.chipFunction with
  | .ram => true
  | .rom => vars.standby = some true
  | .plugin => false

/-- The checks of the settings together. -/
def validate (vars : Vars) : Except Error SlotSpec := do
  let raw ← okOr vars.chipTypeStr (slotError slot "slot missing 'type' key")
  let resolved ← okOr (chipTypeFromStr raw)
    (.unsupportedChipType (String.ofList raw) env.board.candidateChipNames)
  refuse (vars.file = none ∧ ¬fileOptional resolved vars)
    (slotError slot "Missing 'file' key for ROM chip.")
  validateCsLines slot resolved vars
  refuse (vars.force16bit ≠ none ∧ env.board.chipPins ≠ 40)
    (slotError slot "force-16-bit is only valid on 40-pin boards")
  refuse (vars.loadAddress ≠ none ∧ (vars.format = none ∨ vars.format = some .binary))
    (slotError slot "load-address is only valid with format=ihex or format=srec")
  pure { vars with chipType := ⟨raw, resolved⟩ }

end

/-- The parts of an argument. -/
def parts (slot : String) : List Text := slot.toList.splitOn ','

def parseSlot (env : Env) (slot : String) : Except Error SlotSpec := do
  let vars ← parseParts env slot.toList [] {} (parts slot)
  validate env slot.toList vars

/-! ### What the parts of an argument give -/

section

variable {env : Env} {slot : Text}

lemma quotesOnly_parseValue (key : String) (value : Text) :
    QuotesOnly fun slot => parseValue env slot key value := by
  have hcs := quotesOnly_parseCsLogic key value
  have hbool := quotesOnly_parseBool key value
  unfold parseValue
  refine (const _).ite ((const _).ite ((const _).ite ((hcs.map _).ite ((hcs.map _).ite
    ((hcs.map _).ite ((hcs.map _).ite (.ite ?_ (.ite ?_ (.ite ?_ ((hbool.map _).ite
    ((hbool.map _).ite ((hbool.map _).ite (.ite ?_ (.ite ?_ (.ite ?_ (error _))))))))))))))))
  · exact (quotesOnly_parseSizeHandling _ _).map _
  · exact (quotesOnly_parseCpuFreq _ _).map _
  · exact (quotesOnly_parseVreg _ _ _).map _
  · exact (quotesOnly_parseFormat _).map _
  · exact (quotesOnly_parseLoadAddress _).map _
  · exact (quotesOnly_parseTransform _).map _

lemma quotesOnly_validateLine (type : ChipType) (vars : Vars) (line : ControlLineSpec) :
    QuotesOnly fun slot => validateLine slot type vars line := by
  unfold validateLine
  dsimp only
  split <;> exact refused _ _

lemma quotesOnly_validate (vars : Vars) : QuotesOnly fun slot => validate env slot vars := by
  unfold validate validateCsLines validateStated
  refine (option _ _).bind fun raw => (const _).bind fun type => (refused _ _).bind fun _ =>
    (bind ?_ fun _ => ?_).bind fun _ => (refused _ _).bind fun _ => (refused _ _).bind fun _ => const _
  · exact forM (quotesOnly_validateLine type vars) _
  · exact forM (fun _ => (const _).ite (refused _ _)) _

/-- The key of a part, as duplicates are looked for. -/
def keyOf (part : Text) : Option Text := (splitOnce '=' part).map fun e => trim e.1

/-- `part` gives `given`. -/
def Gives (env : Env) (slot part : Text) (given : Given) : Prop :=
  ∃ key value, splitPart slot part = .ok (key, value) ∧
    parseValue env slot (String.ofList key) value = .ok given

lemma splitPart_eq_ok {part key value : Text} :
    splitPart slot part = .ok (key, value) ↔ ∃ k, splitOnce '=' part = some (k, value) ∧
      trim k = key := by
  rw [splitPart]
  rcases splitOnce '=' part with _ | ⟨k, v⟩
  · simp [okOr]
  · simp [okOr, and_comm]

lemma Gives.keyOf {part : Text} {given : Given} (h : Gives env slot part given) :
    ∃ key value, splitPart slot part = .ok (key, value) ∧ keyOf part = some key ∧
      parseValue env slot (String.ofList key) value = .ok given := by
  obtain ⟨key, value, hsplit, hvalue⟩ := h
  obtain ⟨k, hk, hkey⟩ := splitPart_eq_ok.mp hsplit
  exact ⟨key, value, hsplit, by simp [SlotParts.keyOf, hk, hkey], hvalue⟩

/-- Parts are gone through where each gives something and no key comes twice. -/
lemma parseParts_eq_ok {ps : List Text} {seen : List Text} {vars final : Vars} :
    parseParts env slot seen vars ps = .ok final ↔
      ∃ gs, List.Forall₂ (Gives env slot) ps gs ∧ (ps.map keyOf).Nodup ∧
        (∀ p ∈ ps, ∀ key ∈ keyOf p, key ∉ seen) ∧ gs.foldl Vars.give vars = final := by
  induction ps generalizing seen vars with
  | nil => simp [parseParts]
  | cons part ps ih =>
    rw [parseParts, bind_eq_ok]
    constructor
    · rintro ⟨⟨key, value⟩, hsplit, hrest⟩
      obtain ⟨hnew, hrest⟩ := seq_eq_ok.mp hrest
      obtain ⟨given, hgiven, hrest⟩ := bind_eq_ok.mp hrest
      obtain ⟨gs, hgs, hnodup, hseen, hfold⟩ := ih.mp hrest
      obtain ⟨k, hk, hkey⟩ := splitPart_eq_ok.mp hsplit
      have hkeyOf : keyOf part = some key := by simp [keyOf, hk, hkey]
      refine ⟨given :: gs, .cons ⟨key, value, hsplit, hgiven⟩ hgs, ?_, ?_, hfold⟩
      · rw [List.map_cons, List.nodup_cons, hkeyOf]
        refine ⟨fun hmem => ?_, hnodup⟩
        obtain ⟨p, hp, hpkey⟩ := List.mem_map.mp hmem
        exact hseen p hp key hpkey (by simp)
      · rintro p hp k' hk'
        rcases List.mem_cons.mp hp with rfl | hp
        · obtain rfl := Option.some.inj (hkeyOf.symm.trans hk')
          exact refuse_eq_ok.mp hnew
        · exact fun hmem => hseen p hp k' hk' (List.mem_cons_of_mem _ hmem)
    · rintro ⟨gs, hgs, hnodup, hseen, hfold⟩
      cases hgs with
      | @cons _ given _ gs hgiven hgs =>
      obtain ⟨key, value, hsplit, hkeyOf, hvalue⟩ := hgiven.keyOf
      rw [List.map_cons, List.nodup_cons, hkeyOf] at hnodup
      refine ⟨(key, value), hsplit, seq_eq_ok.mpr ⟨?_, bind_eq_ok.mpr ⟨given, hvalue, ?_⟩⟩⟩
      · exact refuse_eq_ok.mpr (hseen part (by simp) key hkeyOf)
      · refine ih.mpr ⟨gs, hgs, hnodup.2, fun p hp k hk hmem => ?_, hfold⟩
        rcases List.mem_cons.mp hmem with rfl | hmem
        · exact hnodup.1 (List.mem_map.mpr ⟨p, hp, hk⟩)
        · exact hseen p (by simp [hp]) k hk hmem

lemma Gives.requote {part : Text} {given : Given} (h : Gives env slot part given) (slot' : Text) :
    Gives env slot' part given := by
  obtain ⟨key, value, hsplit, hvalue⟩ := h
  exact ⟨key, value, splitPart_eq_ok.mpr (splitPart_eq_ok.mp hsplit),
    quotesOnly_parseValue (String.ofList key) value slot slot' given hvalue⟩

lemma Gives.unique {part : Text} {g g' : Given} (h : Gives env slot part g)
    (h' : Gives env slot part g') : g = g' := by
  obtain ⟨key, value, hsplit, hvalue⟩ := h
  obtain ⟨key', value', hsplit', hvalue'⟩ := h'
  obtain ⟨rfl, rfl⟩ := Prod.mk.inj (Except.ok.inj (hsplit.symm.trans hsplit'))
  exact Except.ok.inj (hvalue.symm.trans hvalue')

/-- An argument is accepted where its parts are, and the checks of what they give together. -/
lemma parseSlot_eq_ok {s : String} {spec : SlotSpec} :
    parseSlot env s = .ok spec ↔
      ∃ gs, List.Forall₂ (Gives env slot) (parts s) gs ∧ ((parts s).map keyOf).Nodup ∧
        validate env slot (gs.foldl Vars.give {}) = .ok spec := by
  rw [parseSlot, bind_eq_ok]
  constructor
  · rintro ⟨vars, hvars, hspec⟩
    obtain ⟨gs, hgs, hnodup, -, rfl⟩ := parseParts_eq_ok.mp hvars
    exact ⟨gs, hgs.imp fun _ _ h => h.requote slot, hnodup,
      quotesOnly_validate _ s.toList slot spec hspec⟩
  · rintro ⟨gs, hgs, hnodup, hspec⟩
    refine ⟨_, parseParts_eq_ok.mpr ⟨gs, hgs.imp fun _ _ h => h.requote _, hnodup, ?_, rfl⟩, ?_⟩
    · simp
    · exact quotesOnly_validate _ slot s.toList spec hspec

/-! ### The order of the parts -/

/-- Values of two settings are given in either order. -/
lemma Vars.give_comm (vars : Vars) {g h : Given} (hne : g.setting ≠ h.setting) :
    (vars.give g).give h = (vars.give h).give g := by
  cases g <;> cases h <;> first | rfl | exact absurd rfl hne

/-- The value a setting has. -/
def Vars.value (vars : Vars) : Setting → Option Given
  | .file => vars.file.map .file
  | .label => vars.label.map .label
  | .type => vars.chipTypeStr.map .type
  | .cs1 => vars.cs1.map .cs1
  | .cs2 => vars.cs2.map .cs2
  | .cs3 => vars.cs3.map .cs3
  | .cs4 => vars.cs4.map .cs4
  | .sizeHandling => vars.sizeHandling.map .sizeHandling
  | .cpuFreq => vars.cpuFreq.map .cpuFreq
  | .vreg => vars.vreg.map .vreg
  | .led => vars.led.map .led
  | .force16bit => vars.force16bit.map .force16bit
  | .standby => vars.standby.map .standby
  | .format => vars.format.map .format
  | .loadAddress => vars.loadAddress.map .loadAddress
  | .transform => some (.transform vars.transform)

@[simp] lemma Vars.value_give (vars : Vars) (g : Given) :
    (vars.give g).value g.setting = some g := by
  cases g <;> rfl

/-- The settings a specification was made from. -/
def SlotSpec.vars (spec : SlotSpec) : Vars :=
  { spec with chipTypeStr := some spec.chipType.raw }

lemma validate_vars {vars : Vars} {spec : SlotSpec} (h : validate env slot vars = .ok spec) :
    spec.vars = vars := by
  obtain ⟨raw, hraw, h⟩ := bind_eq_ok.mp h
  obtain ⟨resolved, -, h⟩ := bind_eq_ok.mp h
  obtain ⟨-, h⟩ := seq_eq_ok.mp h
  obtain ⟨-, h⟩ := seq_eq_ok.mp h
  obtain ⟨-, h⟩ := seq_eq_ok.mp h
  obtain ⟨-, h⟩ := seq_eq_ok.mp h
  obtain rfl := pure_eq_ok.mp h
  have hraw : vars.chipTypeStr = some raw := by
    rcases hv : vars.chipTypeStr with _ | r <;> rw [hv] at hraw
    · cases hraw
    · rw [Except.ok.inj hraw]
  simp only [SlotSpec.vars, ← hraw]

/-- Every permutation of the parts of `s` is accepted, as the same specification. -/
def OrderFree (env : Env) (s : String) (spec : SlotSpec) : Prop :=
  ∀ s', (parts s').Perm (parts s) → parseSlot env s' = .ok spec

/-- The parts that give the same setting, under one key or another, give it the same value. -/
def Agree (env : Env) (s : String) : Prop :=
  ∀ p ∈ parts s, ∀ q ∈ parts s, ∀ g h, Gives env s.toList p g → Gives env s.toList q h →
    g.setting = h.setting → g = h

/-- No two parts give the same setting. -/
def GivenOnce (env : Env) (s : String) : Prop :=
  ∀ p ∈ parts s, ∀ q ∈ parts s, ∀ g h, Gives env s.toList p g → Gives env s.toList q h →
    g.setting = h.setting → p = q

lemma GivenOnce.agree {s : String} (h : GivenOnce env s) : Agree env s := by
  intro p hp q hq g g' hg hg' hsetting
  obtain rfl := h p hp q hq g g' hg hg' hsetting
  exact hg.unique hg'

lemma comma_notMem_parts {s : String} : ∀ part ∈ parts s, ',' ∉ part := by
  rw [parts]
  induction s.toList with
  | nil => simp
  | cons c cs ih =>
    rw [List.splitOn_cons_eq_if_modifyHead]
    split
    · simpa using ih
    · next hc =>
      have hc : ',' ≠ c := fun heq => hc (beq_iff_eq.mpr heq.symm)
      rcases hsplit : cs.splitOn ',' with _ | ⟨first, rest⟩
      · simp
      · rw [hsplit, List.forall_mem_cons] at ih
        simpa [hc] using ih

/-- Texts without commas are the parts of an argument. -/
lemma exists_parts {ps : List Text} (hne : ps ≠ []) (h : ∀ part ∈ ps, ',' ∉ part) :
    ∃ s, parts s = ps :=
  ⟨String.ofList ([','].intercalate ps), by
    rw [parts, String.toList_ofList, List.splitOn_intercalate ',' h hne]⟩

/-- Where the order makes no difference, a part that comes last has the say. -/
lemma OrderFree.value_of_mem {s : String} {spec : SlotSpec} (h : OrderFree env s spec)
    {part : Text} (hpart : part ∈ parts s) {g : Given} (hg : Gives env slot part g) :
    spec.vars.value g.setting = some g := by
  have hperm : ((parts s).erase part ++ [part]).Perm (parts s) :=
    (List.perm_append_singleton _ _).trans (List.perm_cons_erase hpart).symm
  obtain ⟨s', hs'⟩ := exists_parts  (by simp)
    fun p hp => comma_notMem_parts p (hperm.subset hp)
  obtain ⟨gs, hgs, -, hspec⟩ := parseSlot_eq_ok.mp (h s' (hs' ▸ hperm))
  rw [hs'] at hgs
  obtain ⟨last, hlast, hdrop⟩ : ∃ last, Gives env slot part last ∧
      gs.drop ((parts s).erase part).length = [last] := by
    have hdrop := (List.forall₂_drop_append gs _ _ hgs.flip).flip
    generalize gs.drop ((parts s).erase part).length = tail at hdrop ⊢
    cases hdrop with
    | cons hlast hnil =>
      cases hnil
      exact ⟨_, hlast, rfl⟩
  obtain rfl := hg.unique hlast
  rw [validate_vars hspec, ← List.take_append_drop ((parts s).erase part).length gs, hdrop,
    List.foldl_append]
  exact Vars.value_give _ _

/-- Where the parts that give the same setting agree, they are read as they are in any order. -/
lemma Agree.orderFree {s : String} {spec : SlotSpec} (hagree : Agree env s)
    (h : parseSlot env s = .ok spec) : OrderFree env s spec := by
  intro s' hperm
  obtain ⟨gs, hgs, hnodup, hspec⟩ := parseSlot_eq_ok.mp h
  obtain ⟨gs', hgs', hpermgs⟩ := List.perm_comp_forall₂ hperm hgs
  have hcomm : ∀ g ∈ gs, ∀ g' ∈ gs, ∀ vars : Vars,
      (vars.give g).give g' = (vars.give g').give g := by
    intro g hg g' hg' vars
    by_cases hsetting : g.setting = g'.setting
    · obtain ⟨p, hp, hpg⟩ := exists_left hgs hg
      obtain ⟨q, hq, hqg⟩ := exists_left hgs hg'
      rw [hagree p hp q hq g g' hpg hqg hsetting]
    · exact vars.give_comm hsetting
  refine parseSlot_eq_ok.mpr ⟨gs', hgs', (hperm.map keyOf).nodup_iff.mpr hnodup, ?_⟩
  rw [← hpermgs.symm.foldl_eq' hcomm]
  exact hspec

/-- **Order**: an accepted argument means the same in any order exactly when the parts that give the
same setting agree on its value, as they do where no setting is given twice. -/
theorem parseSlot_orderFree_iff (env : Env) (s : String) (spec : SlotSpec)
    (h : parseSlot env s = .ok spec) :
    (OrderFree env s spec ↔ Agree env s) ∧ (GivenOnce env s → OrderFree env s spec) := by
  refine ⟨⟨?_, fun hagree => hagree.orderFree h⟩, fun honce => honce.agree.orderFree h⟩
  intro hfree p hp q hq g g' hg hg' hsetting
  have hvalue := hfree.value_of_mem hp hg
  rw [hsetting, hfree.value_of_mem hq hg'] at hvalue
  exact (Option.some.inj hvalue).symm

end

/-- A board of 24 pins, as no more is read of it. -/
def env24 : Env := ⟨⟨24, ""⟩, none, some⟩

/-- What is read of an argument that gives no more than a file, a type and `cs1`. -/
def spec2364 (file : String) : SlotSpec where
  file := some file.toList
  label := none
  chipType := ⟨"2364".toList, .chip2364⟩
  cs1 := some .activeLow
  cs2 := none
  cs3 := none
  cs4 := none
  sizeHandling := none
  cpuFreq := none
  vreg := none
  led := none
  force16bit := none
  standby := none
  format := none
  loadAddress := none
  transform := []

theorem parseSlot_orderFree_iff_2364 :
    let s := "file=a.bin,type=2364,cs1=0"
    parseSlot env24 s = .ok (spec2364 "a.bin") ∧
      (OrderFree env24 s (spec2364 "a.bin") ↔ Agree env24 s) ∧
      (GivenOnce env24 s → OrderFree env24 s (spec2364 "a.bin")) := by
  have h : parseSlot env24 "file=a.bin,type=2364,cs1=0" = .ok (spec2364 "a.bin") := by
    decide +kernel
  exact ⟨h, parseSlot_orderFree_iff _ _ _ h⟩

/-- A file given under two keys: the last one is used, whichever that is. -/
theorem not_orderFree_two_files :
    let s := "file=a.bin,path=b.bin,type=2364,cs1=0"
    let s' := "path=b.bin,file=a.bin,type=2364,cs1=0"
    parseSlot env24 s = .ok (spec2364 "b.bin") ∧ parseSlot env24 s' = .ok (spec2364 "a.bin") ∧
      (parts s').Perm (parts s) ∧ ¬OrderFree env24 s (spec2364 "b.bin") := by
  have hs : parseSlot env24 "file=a.bin,path=b.bin,type=2364,cs1=0" = .ok (spec2364 "b.bin") := by
    decide +kernel
  have hs' : parseSlot env24 "path=b.bin,file=a.bin,type=2364,cs1=0" =
      .ok (spec2364 "a.bin") := by decide +kernel
  have hperm : (parts "path=b.bin,file=a.bin,type=2364,cs1=0").Perm
      (parts "file=a.bin,path=b.bin,type=2364,cs1=0") := by decide +kernel
  refine ⟨hs, hs', hperm, fun hfree => ?_⟩
  have hfile := Except.ok.inj (hs'.symm.trans (hfree _ hperm))
  exact absurd (congrArg SlotSpec.file hfile) (by decide +kernel)

end OneRom.SlotParts
