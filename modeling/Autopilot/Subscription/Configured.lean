/-
  The ledger that a configuration asks for: the tables of a database, which may be open
  for reading only, or one that lasts as long as the process. It does what the ledger
  inside it does, and tables that are only read refuse every change.
-/
import Autopilot.Subscription.Memory
import Autopilot.Subscription.Table

namespace Autopilot

/-- A ledger of one sort or the other. -/
inductive ConfiguredLedger where
  | memory (ledger : MemoryLedger)
  | tables (ledger : TableLedger)
  | readOnly (ledger : TableLedger)

namespace ConfiguredLedger

/-- Keeps a new subscription under the next number. -/
def insert (new : NewSubscription) :
    ConfiguredLedger → Except Fault (Subscription × ConfiguredLedger)
  | memory ledger => (ledger.insert new).map fun (subscription, next) => (subscription, memory next)
  | tables ledger => (ledger.insert new).map fun (subscription, next) => (subscription, tables next)
  | readOnly _ => .error (.queryFailed .readOnly)

/-- Finds the subscription with a number. -/
def fetch (id : Nat) : ConfiguredLedger → Except Fault (Option Subscription)
  | memory ledger => .ok (ledger.find? id)
  | tables ledger => ledger.fetch id
  | readOnly ledger => ledger.fetch id

/-- Switches the subscription with a number on or off. -/
def setEnabled (id : Nat) (enabled : Bool) :
    ConfiguredLedger → Except Fault (Bool × ConfiguredLedger)
  | memory ledger =>
    let (changed, next) := ledger.setEnabled id enabled
    .ok (changed, memory next)
  | tables ledger =>
    let (changed, next) := ledger.setEnabled id enabled
    .ok (changed, tables next)
  | readOnly _ => .error (.queryFailed .readOnly)

/-- Removes the subscription with a number. -/
def remove (id : Nat) : ConfiguredLedger → Except Fault (Bool × ConfiguredLedger)
  | memory ledger =>
    let (removed, next) := ledger.remove id
    .ok (removed, memory next)
  | tables ledger =>
    let (removed, next) := ledger.remove id
    .ok (removed, tables next)
  | readOnly _ => .error (.queryFailed .readOnly)

/-- The number of subscriptions that are kept. -/
def count : ConfiguredLedger → Nat
  | memory ledger => ledger.subscriptions.length
  | tables ledger => ledger.rows.length
  | readOnly ledger => ledger.rows.length

instance : Ledger ConfiguredLedger where
  insert ledger new := ledger.insert new
  fetch ledger id := ledger.fetch id
  setEnabled ledger id enabled := ledger.setEnabled id enabled
  remove ledger id := ledger.remove id
  count ledger := .ok ledger.count

end ConfiguredLedger

end Autopilot
