/-
  Drafts: strategies as an author puts them down, and their building.

  A draft names its operations freely. `Draft.build` looks them up in the catalogue,
  holds the counts and names against their limits and judges the dataflow. It changes
  nothing: a strategy that is built has the draft's name, flavor, sub-slots and
  bindings. The checks run in a fixed order, and the first that fails is the fault.
-/
import Autopilot.Strategy.Dataflow
import Autopilot.Text.Blank

namespace Autopilot

/-! ## Limits -/

/-- Actions are counted from 1 to 127 where they are piped and mapped. -/
def maxActions : Nat := 127

/-- Sub-slots are mapped to the bytes from 128 on; 254 and 255 are kept free. -/
def maxSubSlots : Nat := 126

/-- Triggers are counted in one byte. -/
def maxTriggers : Nat := 255

/-- Parameters are counted in one byte. -/
def maxParameters : Nat := 255

/-- Names of sub-slots and placeholders are counted in one byte. -/
def maxNameBytes : Nat := 255

/-- The strategy's own name is counted in two bytes. -/
def maxStrategyNameBytes : Nat := 65535

/-- A count may reach its limit. -/
def checkLimit (what : Counted) (count limit : Nat) : Except Fault Unit :=
  if count ≤ limit then .ok () else .error (.limitExceeded what limit)

/-! ## Drafts -/

/-- An operation by name, with its bindings. -/
structure DraftOperation where
  name : String
  bindings : List Binding
  deriving DecidableEq

/-- A strategy that is not yet checked. -/
structure Draft where
  name : String
  flavor : Flavor := .continuous
  subSlots : List SubSlot := []
  triggers : List DraftOperation := []
  actions : List DraftOperation := []
  deriving DecidableEq

/-! ## Names of sub-slots -/

/-- Judges the sub-slots from some place of the table on; `earlier` are the names before it. -/
def checkSubSlots (strategy : String) (earlier : List String) : List SubSlot → Except Fault Unit
  | [] => .ok ()
  | slot :: rest =>
    if slot.name = "" ∨ slot.name = proxySlot then
      .error (.strategyInvalid strategy (.unusableSlot slot.name))
    else if maxNameBytes < slot.name.utf8ByteSize then
      .error (.limitExceeded .slotNameBytes maxNameBytes)
    else if slot.name ∈ earlier then .error (.duplicateSubSlot slot.name)
    else checkSubSlots strategy (slot.name :: earlier) rest

/-! ## Operations -/

/-- Judges the placeholder of a binding, if it has one. -/
def checkPlaceholder (operation : String) : Binding → Except Fault Unit
  | .placeholder name =>
    if name = "" then .error (.strategyInvalid operation .emptyPlaceholder)
    else checkLimit .placeholderBytes name.utf8ByteSize maxNameBytes
  | _ => .ok ()

/-- Looks an operation up and holds its bindings against its signature. -/
def DraftOperation.resolve (kind : OperationKind) (op : DraftOperation) :
    Except Fault Operation := do
  match Catalogue.find? kind op.name with
  | none => .error (.unknownOperation op.name)
  | some signature =>
    checkLimit .parameters op.bindings.length maxParameters
    op.bindings.forM (checkPlaceholder signature.name)
    if op.bindings.length = signature.arity then .ok ⟨signature, op.bindings⟩
    else .error (.arityMismatch signature.name signature.arity op.bindings.length)

/-! ## Building -/

namespace Draft

/-- Judges the name and the counts of a draft. -/
def checkShape (d : Draft) : Except Fault Unit := do
  if Text.isBlankText d.name then .error (.strategyInvalid d.name .blankName)
  if d.actions.isEmpty then .error (.strategyInvalid d.name .noAction)
  checkLimit .nameBytes d.name.utf8ByteSize maxStrategyNameBytes
  checkLimit .actions d.actions.length maxActions
  checkLimit .triggers d.triggers.length maxTriggers
  checkLimit .subSlots d.subSlots.length maxSubSlots
  checkSubSlots d.name [] d.subSlots

/-- Builds the strategy that a draft describes, if it is sound. -/
def build (d : Draft) : Except Fault Strategy := do
  d.checkShape
  let triggers ← d.triggers.mapM (DraftOperation.resolve .trigger)
  let actions ← d.actions.mapM (DraftOperation.resolve .action)
  Dataflow.check d.subSlots triggers actions
  pure ⟨d.name, d.flavor, d.subSlots, triggers, actions⟩

end Draft

end Autopilot
