/-
  Preparing one execution of a bundle.

  A member is selected by the snapshot, its variables are joined with those the keeper
  measured (the member's own win), and the member's strategy is resolved for the
  subscription under the bundle's key. The result holds the call data that the keeper
  submits; submitting it is not done here.
-/
import Autopilot.Execution.Resolve

namespace Autopilot

/-- What is submitted for one execution, and how it came about. -/
structure PreparedExecution where
  subscription : Nat
  /-- The place of the selected member in its bundle. -/
  strategyIndex : Nat
  /-- The place of the selected strategy in the order of registration. -/
  registrationIndex : Nat
  strategy : StrategyId
  /-- The values of the placeholders. -/
  inputs : NameMap AbiValue
  /-- The call data of the triggers, in order. -/
  triggerCallData : List (List UInt8)
  /-- The call data of the actions, in order. -/
  actionCallData : List (List UInt8)
  resolved : ResolvedStrategy

/-- Prepares an execution of a bundle for the subscription with a number. -/
def prepareExecution {σ : Type} [Ledger σ] (lib : Library) (id bundle : Nat)
    (snapshot : Snapshot) (extra : NameMap AbiValue) : OnLedger σ PreparedExecution := do
  let b ← lib.bundle bundle
  let selection ← b.select snapshot
  let strategy ← lib.get selection.strategy
  let registrationIndex ← lib.indexOf selection.strategy
  let key ← lib.bundleKey bundle
  let inputs := extra.override selection.inputs
  let resolved ← substitute strategy (.bundle key) id inputs
  pure {
    subscription := id
    strategyIndex := selection.index
    registrationIndex := registrationIndex
    strategy := selection.strategy
    inputs := inputs
    triggerCallData := resolved.triggerCallData
    actionCallData := resolved.actionCallData
    resolved := resolved }

end Autopilot
