/-
  Strategies: ordered actions gated by ordered triggers, and the sub-slots that every
  subscription fills in.

  A strategy holds operations that are resolved against the catalogue. It is meant to
  come from `Draft.build`, which checks everything that the types here leave open.
-/
import Autopilot.Binding
import Autopilot.Catalogue
import Autopilot.NameMap

namespace Autopilot

/-! ## Parts -/

/-- A value that each subscription supplies: its name and type. -/
structure SubSlot where
  name : String
  type : SlotType
  deriving DecidableEq

/-- The declaration as it is written in a strategy file. -/
def SubSlot.text (s : SubSlot) : String :=
  s.name ++ ":" ++ s.type.text

/-- Whether a strategy may run again. -/
inductive Flavor where
  /-- May run again whenever its triggers pass. -/
  | continuous
  /-- Ends after one successful execution. -/
  | oneShot
  deriving DecidableEq, Inhabited

namespace Flavor

/-- The tag of the flavor in the wire format. -/
def tag : Flavor → UInt8
  | .continuous => 0
  | .oneShot => 1

/-- The flavor with a tag. -/
def ofTag? (tag : UInt8) : Option Flavor :=
  if tag = 0 then some .continuous
  else if tag = 1 then some .oneShot
  else none

theorem ofTag?_tag (f : Flavor) : ofTag? f.tag = some f := by
  cases f <;> rfl

end Flavor

/-- One action or trigger of a strategy, with a binding for each parameter. -/
structure Operation where
  signature : Signature
  bindings : List Binding
  deriving DecidableEq

namespace Operation

/-- The name of the operation in the catalogue. -/
def name (op : Operation) : String :=
  op.signature.name

/-- The bindings with the parameters that they fill. -/
def arguments (op : Operation) : List (Binding × Parameter) :=
  op.bindings.zip op.signature.params

/-- The placeholders of the operation, in the order of its parameters. -/
def placeholders (op : Operation) : List String :=
  op.bindings.filterMap Binding.placeholder?

/-- Whether later actions may take the operation's return value. -/
def returnsValue (op : Operation) : Bool :=
  op.signature.returns.isSome

end Operation

/-- The type of a name in a table of sub-slots; the reserved slot is always an address. -/
def slotType? (slots : List SubSlot) (name : String) : Option SlotType :=
  if name = proxySlot then some .address
  else (slots.find? (·.name = name)).map (·.type)

/-! ## Strategies -/

/-- An automation strategy. -/
structure Strategy where
  name : String
  flavor : Flavor
  subSlots : List SubSlot
  triggers : List Operation
  actions : List Operation
  deriving DecidableEq

namespace Strategy

/-- All operations in the order in which they are judged: triggers, then actions. -/
def operations (s : Strategy) : List Operation :=
  s.triggers ++ s.actions

/-- The action at a position counted from one. -/
def action? (s : Strategy) (position : Nat) : Option Operation :=
  match position with
  | 0 => none
  | n + 1 => s.actions[n]?

/-- The place of a name in the table of sub-slots. -/
def subSlotIndex? (s : Strategy) (name : String) : Option Nat :=
  s.subSlots.findIdx? (·.name = name)

/-- The type of a sub-slot, the reserved slot included. -/
def subSlotType? (s : Strategy) (name : String) : Option SlotType :=
  slotType? s.subSlots name

/-- Every placeholder that an operation uses, with the type of the parameter it fills. -/
def variableTypes (s : Strategy) : NameMap SlotType :=
  NameMap.ofList <| s.operations.flatMap fun op =>
    op.arguments.filterMap fun (binding, param) =>
      binding.placeholder?.map fun name => (name, param.type)

end Strategy

end Autopilot
