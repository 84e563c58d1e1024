/-
  The dataflow of a strategy: where each operation may take its inputs from.

  One pass over the triggers and then the actions. It carries what the operations
  passed so far have settled: the return type of each action, and the type of each
  placeholder. A pipe must point strictly backwards to an action with a return value,
  so a strategy that passes has no cycle. Within one operation the pipes and the
  unverified inputs are judged over all parameters before anything else.
-/
import Autopilot.Fault
import Autopilot.Strategy.Basic

namespace Autopilot.Dataflow

/-- What the operations passed so far have settled. -/
structure Seen where
  /-- The return type of each action passed, in order. -/
  returns : List (Option SlotType)
  /-- The type of each placeholder, as it was first used. -/
  placeholders : NameMap SlotType

/-- Nothing is settled yet. -/
def Seen.none : Seen := ⟨[], NameMap.empty⟩

/-- A parameter takes values of its own type only. -/
def expectType (op : Operation) (param : Parameter) (found : SlotType) : Except Fault Unit :=
  if param.type = found then .ok ()
  else .error (.typeMismatch (op.name ++ "." ++ param.name) param.type found)

/-! ## Pipes and unverified inputs -/

/-- Judges the pipes and variables of a trigger, from the parameter at `position` on. -/
def checkTriggerInputs (op : Operation) (position : Nat) :
    List (Binding × Parameter) → Except Fault Unit
  | [] => .ok ()
  | (.piped target, _) :: _ => .error (.invalidPipe op.name position target .inTrigger)
  | (.placeholder _, param) :: rest =>
    if param.callerVerified then checkTriggerInputs op (position + 1) rest
    else .error (.unverifiedTriggerInput op.name position)
  | _ :: rest => checkTriggerInputs op (position + 1) rest

/-- The type that a pipe delivers to the action behind those in `returns`. -/
def pipedType (returns : List (Option SlotType)) (target : Nat) : Except PipeDefect SlotType :=
  let own := returns.length + 1
  match target with
  | 0 => .error .indexZero
  | n + 1 =>
    if target = own then .error .ownOutput
    else if own < target then .error (.later target own)
    else match returns[n]? with
      | some (some type) => .ok type
      | _ => .error (.noReturn target)

/-- Judges the pipes of an action, from the parameter at `position` on. -/
def checkPipes (returns : List (Option SlotType)) (op : Operation) (position : Nat) :
    List (Binding × Parameter) → Except Fault Unit
  | [] => .ok ()
  | (.piped target, param) :: rest =>
    match pipedType returns target with
    | .error cause => .error (.invalidPipe op.name position target cause)
    | .ok type =>
      match expectType op param type with
      | .error fault => .error fault
      | .ok () => checkPipes returns op (position + 1) rest
  | _ :: rest => checkPipes returns op (position + 1) rest

/-! ## Constants, sub-slots and placeholders -/

/-- Settles the type of a placeholder that an operation uses; `own` are the placeholders that
    the same operation has used already. -/
def usePlaceholder (op : Operation) (own : List String) (types : NameMap SlotType)
    (name : String) (param : Parameter) : Except Fault (NameMap SlotType) :=
  if name ∈ own then .error (.duplicateVariable op.name name)
  else match types.find? name with
    | some type =>
      if type = param.type then .ok types
      else .error (.typeMismatch ("%" ++ name) type param.type)
    | none => .ok (types.insert name param.type)

/-- Judges every input that is no pipe, and returns the placeholder types settled so far. -/
def checkInputs (slots : List SubSlot) (op : Operation) (own : List String)
    (types : NameMap SlotType) : List (Binding × Parameter) → Except Fault (NameMap SlotType)
  | [] => .ok types
  | (.const value, param) :: rest =>
    match expectType op param value.slotType with
    | .error fault => .error fault
    | .ok () => checkInputs slots op own types rest
  | (.subSlot name, param) :: rest =>
    match slotType? slots name with
    | none => .error (.undeclaredSubSlot op.name name)
    | some type =>
      match expectType op param type with
      | .error fault => .error fault
      | .ok () => checkInputs slots op own types rest
  | (.placeholder name, param) :: rest =>
    match usePlaceholder op own types name param with
    | .error fault => .error fault
    | .ok types => checkInputs slots op (name :: own) types rest
  | (.piped _, _) :: rest => checkInputs slots op own types rest

/-! ## The pass -/

/-- Judges one trigger. -/
def checkTrigger (slots : List SubSlot) (seen : Seen) (op : Operation) : Except Fault Seen := do
  checkTriggerInputs op 1 op.arguments
  let types ← checkInputs slots op [] seen.placeholders op.arguments
  pure ⟨seen.returns, types⟩

/-- Judges one action and records what it returns. -/
def checkAction (slots : List SubSlot) (seen : Seen) (op : Operation) : Except Fault Seen := do
  checkPipes seen.returns op 1 op.arguments
  let types ← checkInputs slots op [] seen.placeholders op.arguments
  pure ⟨seen.returns ++ [op.signature.returns], types⟩

/-- Judges the triggers and then the actions, up to the first fault. -/
def check (slots : List SubSlot) (triggers actions : List Operation) : Except Fault Unit := do
  let seen ← triggers.foldlM (checkTrigger slots) Seen.none
  let _ ← actions.foldlM (checkAction slots) seen
  pure ()

end Autopilot.Dataflow
