/-
  Ledgers and what was given to them.

  The contents that were inserted into a ledger, in order, are its history. A relation
  between histories and ledgers is kept by a sort of ledger (`Ledger.Records`) if every call
  preserves it, the number `i + 1` goes to the content at place `i`, and what is found under
  this number later has this content. So a number stands for one content for ever: no call
  changes a target, an owner or a value, and no number is given twice.
-/
import Autopilot.Proofs.Outcome
import Autopilot.Proofs.Timestamp
import Autopilot.Subscription.Ledger
import Mathlib.Logic.Relation

namespace Autopilot

/-- The subscription has the content that was inserted. Its time of creation may be the same point
    in time with its second counted on. -/
structure Subscription.Keeps (s : Subscription) (new : NewSubscription) : Prop where
  target : s.target = new.target
  owner : s.owner = new.owner
  values : s.values = new.values
  createdAt : s.createdAt.settled = new.createdAt.settled

namespace Ledger

variable {σ : Type} [Ledger σ]

/-- One call that succeeds and may change the ledger. -/
inductive Step : σ → σ → Prop where
  | insert {ledger next : σ} {new : NewSubscription} {subscription : Subscription} :
    Ledger.insert ledger new = .ok (subscription, next) → Step ledger next
  | setEnabled {ledger next : σ} {id : Nat} {enabled changed : Bool} :
    Ledger.setEnabled ledger id enabled = .ok (changed, next) → Step ledger next
  | remove {ledger next : σ} {id : Nat} {removed : Bool} :
    Ledger.remove ledger id = .ok (removed, next) → Step ledger next

/-- Any number of such calls. -/
abbrev Reaches : σ → σ → Prop :=
  Relation.ReflTransGen Step

/-- The relation between histories and ledgers is kept by every call, and what is found has the
    content that the history has for its number. -/
structure Records (tells : List NewSubscription → σ → Prop) : Prop where
  insert : ∀ {given ledger new subscription next}, tells given ledger →
    Ledger.insert ledger new = .ok (subscription, next) →
      subscription.id = given.length + 1 ∧ tells (given ++ [new]) next
  setEnabled : ∀ {given ledger id enabled changed next}, tells given ledger →
    Ledger.setEnabled ledger id enabled = .ok (changed, next) → tells given next
  remove : ∀ {given ledger id removed next}, tells given ledger →
    Ledger.remove ledger id = .ok (removed, next) → tells given next
  fetch : ∀ {given ledger i new subscription}, tells given ledger → given[i]? = some new →
    Ledger.fetch ledger (i + 1) = .ok (some subscription) → subscription.Keeps new

namespace Records

variable {tells : List NewSubscription → σ → Prop} (h : Records tells)

include h

theorem step {given : List NewSubscription} {ledger next : σ} (htells : tells given ledger)
    (hstep : Step ledger next) : ∃ more, tells (given ++ more) next := by
  cases hstep with
  | insert hcall => exact ⟨_, (h.insert htells hcall).2⟩
  | setEnabled hcall =>
    refine ⟨[], ?_⟩
    rw [List.append_nil]
    exact h.setEnabled htells hcall
  | remove hcall =>
    refine ⟨[], ?_⟩
    rw [List.append_nil]
    exact h.remove htells hcall

end Records

/-! ## Runs -/

omit [Ledger σ] in
/-- A run of steps that only add to the history adds to it. -/
theorem exists_history {tells : List NewSubscription → σ → Prop} {step : σ → σ → Prop}
    (hstep : ∀ {given ledger next}, tells given ledger → step ledger next →
      ∃ more, tells (given ++ more) next)
    {given : List NewSubscription} {ledger later : σ} (h : tells given ledger)
    (hlater : Relation.ReflTransGen step ledger later) : ∃ more, tells (given ++ more) later := by
  induction hlater with
  | refl =>
    refine ⟨[], ?_⟩
    rw [List.append_nil]
    exact h
  | tail _ hlast ih =>
    obtain ⟨more, hmore⟩ := ih
    obtain ⟨last, hlast⟩ := hstep hmore hlast
    refine ⟨more ++ last, ?_⟩
    rw [← List.append_assoc]
    exact hlast

/-- What is found under the number of an insertion, in a ledger whose history goes on from it, has
    the content that was inserted. -/
theorem Records.keeps_of_fetch_inserted {tells : List NewSubscription → σ → Prop}
    (h : Records tells) {given more : List NewSubscription} {ledger inserted later : σ}
    (htells : tells given ledger) {new : NewSubscription} {s found : Subscription}
    (hinsert : Ledger.insert ledger new = .ok (s, inserted))
    (hlater : tells (given ++ [new] ++ more) later)
    (hfetch : Ledger.fetch later s.id = .ok (some found)) : found.Keeps new := by
  rw [(h.insert htells hinsert).1] at hfetch
  refine h.fetch hlater ?_ hfetch
  rw [List.append_assoc, List.getElem?_append_right (Nat.le_refl _), Nat.sub_self]
  rfl

end Ledger

end Autopilot
