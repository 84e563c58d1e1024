/-
  Ledgers: what keeps subscriptions.

  A ledger numbers each new subscription, finds one by its number, switches it on or
  off, removes it and counts what it holds. A step returns the ledger after it, or a
  fault, which leaves the ledger as it was.
-/
import Autopilot.Subscription.Basic

namespace Autopilot

/-- The steps of a ledger. -/
class Ledger (σ : Type) where
  /-- Keeps a new subscription under the next number. -/
  insert : σ → NewSubscription → Except Fault (Subscription × σ)
  /-- Finds the subscription with a number. -/
  fetch : σ → Nat → Except Fault (Option Subscription)
  /-- Switches a subscription on or off, and says whether there is one with the number. -/
  setEnabled : σ → Nat → Bool → Except Fault (Bool × σ)
  /-- Removes a subscription, and says whether there was one with the number. -/
  remove : σ → Nat → Except Fault (Bool × σ)
  /-- The number of subscriptions that are kept. -/
  count : σ → Except Fault Nat

/-- A computation over a ledger that may fail. -/
abbrev OnLedger (σ α : Type) := StateT σ (Except Fault) α

namespace OnLedger

variable {σ : Type} [Ledger σ]

/-- Keeps a new subscription. -/
def insert (new : NewSubscription) : OnLedger σ Subscription :=
  fun ledger => Ledger.insert ledger new

/-- Finds a subscription. -/
def fetch (id : Nat) : OnLedger σ (Option Subscription) :=
  fun ledger => (Ledger.fetch ledger id).map fun found => (found, ledger)

/-- Switches a subscription on or off. -/
def setEnabled (id : Nat) (enabled : Bool) : OnLedger σ Bool :=
  fun ledger => Ledger.setEnabled ledger id enabled

/-- Removes a subscription. -/
def remove (id : Nat) : OnLedger σ Bool :=
  fun ledger => Ledger.remove ledger id

/-- Counts the subscriptions. -/
def count : OnLedger σ Nat :=
  fun ledger => (Ledger.count ledger).map fun n => (n, ledger)

end OnLedger

end Autopilot
