/-
  The ledger of a single process: subscriptions as they are, by number.

  The last number that was given out is kept apart from the subscriptions, so a number
  is never given twice. It has 64 bits, and a step can fail only where it would outgrow
  them: the sum overflows there, and a program that checks its sums gives no answer.
-/
import Autopilot.Subscription.Ledger

namespace Autopilot

/-- Subscriptions held in memory. -/
structure MemoryLedger where
  lastId : UInt64
  subscriptions : List Subscription

namespace MemoryLedger

/-- No number is given out. -/
def empty : MemoryLedger := ⟨0, []⟩

/-- The subscription with a number. -/
def find? (m : MemoryLedger) (id : Nat) : Option Subscription :=
  m.subscriptions.find? (·.id = id)

/-- Keeps a new subscription under the next number. -/
def add (m : MemoryLedger) (new : NewSubscription) : Subscription × MemoryLedger :=
  let id := m.lastId + 1
  let subscription : Subscription :=
    ⟨id.toNat, new.target, new.owner, new.values, true, new.createdAt⟩
  (subscription, ⟨id, m.subscriptions ++ [subscription]⟩)

/-- Keeps a new subscription under the next number, if that has 64 bits. -/
def insert (m : MemoryLedger) (new : NewSubscription) :
    Except Fault (Subscription × MemoryLedger) :=
  if m.lastId.toNat + 1 < bitBound 64 then .ok (m.add new)
  else .error (.queryFailed .overflow)

/-- Switches the subscription with a number on or off. -/
def setEnabled (m : MemoryLedger) (id : Nat) (enabled : Bool) : Bool × MemoryLedger :=
  match m.find? id with
  | none => (false, m)
  | some _ =>
    let switched := m.subscriptions.map fun s => if s.id = id then { s with enabled } else s
    (true, ⟨m.lastId, switched⟩)

/-- Removes the subscription with a number. -/
def remove (m : MemoryLedger) (id : Nat) : Bool × MemoryLedger :=
  match m.find? id with
  | none => (false, m)
  | some _ => (true, ⟨m.lastId, m.subscriptions.filter (·.id ≠ id)⟩)

instance : Ledger MemoryLedger where
  insert m new := m.insert new
  fetch m id := .ok (m.find? id)
  setEnabled m id enabled := .ok (m.setEnabled id enabled)
  remove m id := .ok (m.remove id)
  count m := .ok m.subscriptions.length

end MemoryLedger

end Autopilot
