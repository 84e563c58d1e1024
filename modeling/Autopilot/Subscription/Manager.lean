/-
  What clients may do with subscriptions, over any ledger.

  Subscribing holds the given values against the declared table: every slot needs a
  value of its type and no other name may be given. Only the owner may switch a
  subscription on or off or revoke it. A call is a fixed sequence of ledger steps, and
  a call that fails before its last step has changed nothing.
-/
import Autopilot.Library
import Autopilot.Subscription.Ledger

namespace Autopilot

/-- Takes the values of the declared slots in order; what is left over comes with them. -/
def takeDeclared (values : NameMap AbiValue) :
    List SubSlot → Except Fault (List (String × AbiValue) × NameMap AbiValue)
  | [] => .ok ([], values)
  | slot :: rest =>
    match values.find? slot.name with
    | none => .error (.missingSubSlotValue slot.name)
    | some value =>
      if value.slotType = slot.type then do
        let (taken, left) ← takeDeclared (values.erase slot.name) rest
        pure ((slot.name, value) :: taken, left)
      else .error (.typeMismatch slot.name slot.type value.slotType)

/-- The values of a table's slots in declared order, if exactly those are given. -/
def declaredValues (target : Target) (slots : List SubSlot) (values : NameMap AbiValue) :
    Except Fault (List (String × AbiValue)) := do
  let (taken, left) ← takeDeclared values slots
  match left.keys with
  | [] => pure taken
  | extra :: _ => throw (.undeclaredSubSlot target.text extra)

namespace Manager

variable {σ : Type} [Ledger σ]

/-! ## Subscribing -/

/-- Subscribes to a target with a given table of sub-slots, and returns the new number. -/
def create (target : Target) (slots : List SubSlot) (owner : Address)
    (values : NameMap AbiValue) (now : Timestamp) : OnLedger σ Nat := do
  let ordered ← declaredValues target slots values
  let subscription ← OnLedger.insert ⟨target, owner, ordered, now⟩
  pure subscription.id

/-- Subscribes to a single strategy. -/
def subscribe (s : Strategy) (owner : Address) (values : NameMap AbiValue) (now : Timestamp) :
    OnLedger σ Nat :=
  create (.strategy s.id) s.subSlots owner values now

/-- Subscribes to all members of a bundle. -/
def subscribeBundle (lib : Library) (bundle : Nat) (owner : Address)
    (values : NameMap AbiValue) (now : Timestamp) : OnLedger σ Nat := do
  let slots ← lib.bundleSubSlots bundle
  let key ← lib.bundleKey bundle
  create (.bundle key) slots owner values now

/-! ## Looking up -/

/-- The subscription with a number, whatever its state. -/
def load (id : Nat) : OnLedger σ Subscription := do
  match ← OnLedger.fetch id with
  | some subscription => pure subscription
  | none => throw (.unknownSubscription id)

/-- The subscription with a number, which must be on. -/
def loadActive (id : Nat) : OnLedger σ Subscription := do
  let subscription ← load id
  if subscription.enabled then pure subscription
  else throw (.inactiveSubscription id)

/-- The value that a binding of an active subscription sees. -/
def resolve (id : Nat) (name : String) : OnLedger σ AbiValue := do
  let subscription ← loadActive id
  subscription.resolve name

/-! ## Changing -/

/-- The caller must own the subscription. -/
def checkOwner (id : Nat) (caller : Address) : OnLedger σ Unit := do
  let subscription ← load id
  if subscription.owner = caller then pure ()
  else throw (.notSubscriptionOwner id)

/-- Switches a subscription on or off for its owner. -/
def setEnabled (id : Nat) (caller : Address) (enabled : Bool) : OnLedger σ Unit := do
  checkOwner id caller
  let changed ← OnLedger.setEnabled id enabled
  if changed then pure () else throw (.unknownSubscription id)

/-- Switches a subscription on for its owner. -/
def activate (id : Nat) (caller : Address) : OnLedger σ Unit :=
  setEnabled id caller true

/-- Switches a subscription off for its owner. -/
def deactivate (id : Nat) (caller : Address) : OnLedger σ Unit :=
  setEnabled id caller false

/-- Removes a subscription for its owner. -/
def revoke (id : Nat) (caller : Address) : OnLedger σ Unit := do
  checkOwner id caller
  let removed ← OnLedger.remove id
  if removed then pure () else throw (.unknownSubscription id)

end Manager

end Autopilot
