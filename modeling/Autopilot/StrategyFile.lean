/-
  Strategy files: a strategy written down by its author.

    [strategy]
    name = …
    continuous = true
    sub_slots = name:type, name:type

    [trigger.1]
    op = …
    params = …

    [action.1]
    op = …
    params = …

  `check` judges the shape of a file, `build` turns it into a strategy and `render`
  writes a strategy in this form.
-/
import Autopilot.Binding.Reader
import Autopilot.Ini.Numbered
import Autopilot.Strategy.Draft

namespace Autopilot

/-! ## Lists of sub-slots -/

/-- Reads one declaration, `name:type`. -/
def SubSlot.read (entry : String) : Except SlotListDefect SubSlot :=
  match splitAtFirst? ':' entry with
  | none => .error (.untyped entry)
  | some (name, type) =>
    let name := Text.trim name
    if name = "" then .error (.unnamed entry)
    else match SlotType.read type with
      | .ok type => .ok ⟨name, type⟩
      | .error cause => .error (.type cause)

/-- The entries of a list that is separated by commas; empty entries are passed over. -/
def commaEntries (s : String) : List String :=
  ((s.toList.splitOn ',').map fun cs => Text.trim (String.ofList cs)).filter (· ≠ "")

/-- Reads a list of declarations. -/
def SubSlot.readList (s : String) : Except SlotListDefect (List SubSlot) :=
  (commaEntries s).mapM SubSlot.read

namespace StrategyFile

/-- The sub-slots that a file declares. -/
def subSlots (ini : Ini) : Except Fault (List SubSlot) :=
  (SubSlot.readList (ini.valueD "strategy" "sub_slots")).mapError fun cause =>
    .configInvalid "strategy" "sub_slots" (.slotList cause)

/-! ## Shape -/

/-- The flag that makes a strategy run again must be a known word, if it is given. -/
def checkContinuous (ini : Ini) : Except Fault Unit :=
  match ini.value? "strategy" "continuous" with
  | none => .ok ()
  | some s =>
    match Ini.flag? (Text.trim s) with
    | some _ => .ok ()
    | none => .error (.configInvalid "strategy" "continuous"
        (.notBool (Text.lowercase (Text.trim s))))

/-- Every numbered section of a stem must name its operation. -/
def checkOperations (ini : Ini) (stem : String) (required : Bool) : Except Fault Unit := do
  let headings ← ini.numberedHeadings stem
  if required && headings.isEmpty then
    throw (.configMissing (Ini.numbered stem 1) "op")
  headings.forM fun heading => do
    let _ ← ini.require heading "op"
    pure ()

/-- Judges the shape of a strategy file. -/
def check (ini : Ini) : Except Fault Unit := do
  let _ ← ini.require "strategy" "name"
  checkContinuous ini
  let _ ← subSlots ini
  checkOperations ini "trigger" false
  checkOperations ini "action" true

/-! ## Building -/

/-- The operation of a numbered section. -/
def operation (ini : Ini) (kind : OperationKind) (heading : String) :
    Except Fault DraftOperation :=
  let name := Text.trim (ini.valueD heading "op")
  match Catalogue.find? kind name with
  | none => .error (.unknownOperation name)
  | some signature =>
    let params := ini.valueD heading "params"
    match Binding.readList (signature.params.map (·.type)) params with
    | .ok bindings => .ok ⟨name, bindings⟩
    | .error cause => .error (.unreadable ⟨heading, "params", params⟩ cause)

/-- The operations of one kind, in the order of their numbers. -/
def operations (ini : Ini) (kind : OperationKind) (stem : String) :
    Except Fault (List DraftOperation) := do
  let headings ← ini.numberedHeadings stem
  headings.mapM (operation ini kind)

/-- The draft that a file describes. -/
def draft (ini : Ini) : Except Fault Draft := do
  let slots ← subSlots ini
  let triggers ← operations ini .trigger "trigger"
  let actions ← operations ini .action "action"
  pure {
    name := Text.trim (ini.valueD "strategy" "name")
    flavor := if ini.bool "strategy" "continuous" true then .continuous else .oneShot
    subSlots := slots
    triggers := triggers
    actions := actions }

/-- Builds the strategy that a file describes. -/
def build (ini : Ini) : Except Fault Strategy := do
  let d ← draft ini
  d.build

/-- Judges a file and builds its strategy. -/
def checkAndBuild (ini : Ini) : Except Fault Strategy := do
  check ini
  build ini

/-! ## Writing -/

/-- The section of one operation. -/
def renderOperation (stem : String) (number : Nat) (op : Operation) : String :=
  "\n[" ++ Ini.numbered stem number ++ "]\nop = " ++ op.name ++ "\nparams = " ++
    ", ".intercalate (op.bindings.map Binding.text) ++ "\n"

/-- The sections of a list of operations, numbered from one. -/
def renderOperations (stem : String) (ops : List Operation) : String :=
  String.join (ops.zipIdx.map fun (op, place) => renderOperation stem (place + 1) op)

/-- The line that declares the sub-slots; a strategy without any has none. -/
def renderSubSlots (slots : List SubSlot) : String :=
  if slots.isEmpty then ""
  else "sub_slots = " ++ ", ".intercalate (slots.map SubSlot.text) ++ "\n"

/-- A strategy as a strategy file. -/
def render (s : Strategy) : String :=
  "[strategy]\nname = " ++ s.name ++ "\ncontinuous = " ++
    (if s.flavor = .continuous then "true" else "false") ++ "\n" ++
    renderSubSlots s.subSlots ++ renderOperations "trigger" s.triggers ++
    renderOperations "action" s.actions

end StrategyFile

end Autopilot
