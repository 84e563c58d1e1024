/-
  Resolving a strategy for one execution.

  Every binding that can be known beforehand becomes a value of its parameter's type:
  constants as they are, sub-slots from the subscription, placeholders from the
  keeper's variables. A piped parameter stays a reference to the action that will
  deliver it, and stands as zero in the call data.
-/
import Autopilot.Subscription.Manager

namespace Autopilot

/-- A parameter as it is known before execution. -/
inductive ResolvedParam where
  | value (value : AbiValue)
  /-- The return value of the action at this position, counted from one. -/
  | piped (index : Nat)
  deriving DecidableEq

/-- An operation whose parameters are resolved. -/
structure ResolvedOperation where
  signature : Signature
  params : List ResolvedParam
  deriving DecidableEq

namespace ResolvedOperation

/-- The word of a parameter in the call data. -/
def word : ResolvedParam → SlotType → List UInt8
  | .value value, _ => value.abiBytes
  | .piped _, type => (AbiValue.zero type).abiBytes

/-- The call data of an operation: one word for each parameter. -/
def callData (op : ResolvedOperation) : List UInt8 :=
  (List.zipWith (fun param (spec : Parameter) => word param spec.type)
    op.params op.signature.params).flatten

end ResolvedOperation

/-- A strategy whose operations are resolved. -/
structure ResolvedStrategy where
  strategy : StrategyId
  subscription : Nat
  triggers : List ResolvedOperation
  actions : List ResolvedOperation
  deriving DecidableEq

namespace ResolvedStrategy

/-- The call data of the triggers, in order. -/
def triggerCallData (r : ResolvedStrategy) : List (List UInt8) :=
  r.triggers.map ResolvedOperation.callData

/-- The call data of the actions, in order. -/
def actionCallData (r : ResolvedStrategy) : List (List UInt8) :=
  r.actions.map ResolvedOperation.callData

end ResolvedStrategy

/-! ## Bindings and operations -/

/-- A value must be of the expected type. -/
def checkType (name : String) (expected : SlotType) (value : AbiValue) : Except Fault Unit :=
  if value.slotType = expected then .ok ()
  else .error (.typeMismatch name expected value.slotType)

/-- Resolves one binding for a parameter of the given type. -/
def Binding.resolve (operation : String) (subscription : Subscription)
    (inputs : NameMap AbiValue) (type : SlotType) : Binding → Except Fault ResolvedParam
  | .const value => .ok (.value value)
  | .subSlot name => do
    let value ← subscription.resolve name
    checkType name type value
    pure (.value value)
  | .placeholder name =>
    match inputs.find? name with
    | none => .error (.missingVariableValue operation name)
    | some value => do
      checkType ("%" ++ name) type value
      pure (.value value)
  | .piped index => .ok (.piped index)

/-- Resolves the parameters of an operation, from left to right. -/
def Operation.resolve (subscription : Subscription) (inputs : NameMap AbiValue)
    (op : Operation) : Except Fault ResolvedOperation := do
  let params ← op.arguments.mapM fun (binding, param) =>
    binding.resolve op.name subscription inputs param.type
  pure ⟨op.signature, params⟩

/-! ## Strategies -/

/-- Resolves the operations of a strategy against a subscription. -/
def Strategy.resolve (s : Strategy) (subscription : Subscription)
    (inputs : NameMap AbiValue) : Except Fault ResolvedStrategy := do
  let triggers ← s.triggers.mapM (Operation.resolve subscription inputs)
  let actions ← s.actions.mapM (Operation.resolve subscription inputs)
  pure ⟨s.id, subscription.id, triggers, actions⟩

/-- Resolves a strategy for the active subscription with a number, which must drive the given
    target. -/
def substitute {σ : Type} [Ledger σ] (s : Strategy) (target : Target) (id : Nat)
    (inputs : NameMap AbiValue) : OnLedger σ ResolvedStrategy := do
  let subscription ← Manager.loadActive id
  if subscription.target = target then
    let resolved ← s.resolve subscription inputs
    pure { resolved with subscription := id }
  else throw (.subscriptionMismatch id target.text)

end Autopilot
