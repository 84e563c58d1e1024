/-
  The calls of a manager as scripts of ledger steps.

  A script asks for one step of the ledger after the other and goes on from the answer. It works
  in place: what its steps have changed stays changed, also if the script fails later on. For a
  ledger on which a refused step changes nothing, the script of each call ends as the call does,
  with the ledger that the call returns, or with the ledger as it was if the call fails
  (`Call.run_script`).
-/
import Autopilot.Proofs.Subscription.Calls

namespace Autopilot

/-- What is asked of a ledger, and how it goes on from each answer. -/
inductive Script (α : Type) where
  | done (outcome : Except Fault α)
  | insert (new : NewSubscription) (next : Subscription → Script α)
  | fetch (id : Nat) (next : Option Subscription → Script α)
  | setEnabled (id : Nat) (enabled : Bool) (next : Bool → Script α)
  | remove (id : Nat) (next : Bool → Script α)

/-- A step that finds no subscription to change leaves the ledger as it is. -/
structure Ledger.RefusesInPlace (σ : Type) [Ledger σ] : Prop where
  setEnabled : ∀ {ledger next : σ} {id : Nat} {enabled : Bool},
    Ledger.setEnabled ledger id enabled = .ok (false, next) → next = ledger
  remove : ∀ {ledger next : σ} {id : Nat},
    Ledger.remove ledger id = .ok (false, next) → next = ledger

namespace Script

variable {α β σ : Type}

/-- Goes on with the result of a script, unless it fails. -/
def andThen : Script α → (α → Script β) → Script β
  | done (.ok a), f => f a
  | done (.error fault), _ => done (.error fault)
  | insert new next, f => insert new fun s => (next s).andThen f
  | fetch id next, f => fetch id fun found => (next found).andThen f
  | setEnabled id enabled next, f => setEnabled id enabled fun changed => (next changed).andThen f
  | remove id next, f => remove id fun removed => (next removed).andThen f

/-- Changes the result of a script. -/
def map (f : α → β) (script : Script α) : Script β :=
  script.andThen fun a => done (.ok (f a))

/-- Runs a script on a ledger in place. A step that fails ends the script. -/
def run [Ledger σ] : Script α → σ → Except Fault α × σ
  | done outcome, ledger => (outcome, ledger)
  | insert new next, ledger =>
    match Ledger.insert ledger new with
    | .ok (s, changed) => (next s).run changed
    | .error fault => (.error fault, ledger)
  | fetch id next, ledger =>
    match Ledger.fetch ledger id with
    | .ok found => (next found).run ledger
    | .error fault => (.error fault, ledger)
  | setEnabled id enabled next, ledger =>
    match Ledger.setEnabled ledger id enabled with
    | .ok (isKnown, changed) => (next isKnown).run changed
    | .error fault => (.error fault, ledger)
  | remove id next, ledger =>
    match Ledger.remove ledger id with
    | .ok (isKnown, changed) => (next isKnown).run changed
    | .error fault => (.error fault, ledger)

/-- A script goes on from the ledger that its first part leaves. -/
theorem run_andThen [Ledger σ] (script : Script α) (f : α → Script β) (ledger : σ) :
    (script.andThen f).run ledger =
      match script.run ledger with
      | (.ok a, next) => (f a).run next
      | (.error fault, next) => (.error fault, next) := by
  induction script generalizing ledger with
  | done outcome =>
    cases outcome with
    | ok a => rfl
    | error fault => rfl
  | insert new next ih =>
    simp only [andThen, run]
    cases Ledger.insert ledger new with
    | ok p => exact ih p.1 p.2
    | error fault => rfl
  | fetch id next ih =>
    simp only [andThen, run]
    cases Ledger.fetch ledger id with
    | ok found => exact ih found ledger
    | error fault => rfl
  | setEnabled id enabled next ih =>
    simp only [andThen, run]
    cases Ledger.setEnabled ledger id enabled with
    | ok p => exact ih p.1 p.2
    | error fault => rfl
  | remove id next ih =>
    simp only [andThen, run]
    cases Ledger.remove ledger id with
    | ok p => exact ih p.1 p.2
    | error fault => rfl

theorem run_map [Ledger σ] (f : α → β) (script : Script α) (ledger : σ) :
    (script.map f).run ledger = ((script.run ledger).1.map f, (script.run ledger).2) := by
  unfold map
  rw [run_andThen]
  obtain ⟨outcome, next⟩ := script.run ledger
  cases outcome with
  | ok a => rfl
  | error fault => rfl

/-! ## Scripts of a manager -/

/-- Keeps a new subscription, if no fault is found in its values. -/
def create (target : Target) (slots : List SubSlot) (owner : Address) (values : NameMap AbiValue)
    (now : Timestamp) : Script Nat :=
  (done (declaredValues target slots values)).andThen fun ordered =>
    insert ⟨target, owner, ordered, now⟩ fun s => done (.ok s.id)

/-- Subscribes to a single strategy. -/
def subscribe (s : Strategy) (owner : Address) (values : NameMap AbiValue) (now : Timestamp) :
    Script Nat :=
  create (.strategy s.id) s.subSlots owner values now

/-- Subscribes to all members of a bundle. -/
def subscribeBundle (lib : Library) (bundle : Nat) (owner : Address)
    (values : NameMap AbiValue) (now : Timestamp) : Script Nat :=
  (done (lib.bundleSubSlots bundle)).andThen fun slots =>
    (done (lib.bundleKey bundle)).andThen fun key => create (.bundle key) slots owner values now

/-- Finds a subscription, whatever its state. -/
def load (id : Nat) : Script Subscription :=
  fetch id fun
    | some s => done (.ok s)
    | none => done (.error (.unknownSubscription id))

/-- Finds a subscription, which must be on. -/
def loadActive (id : Nat) : Script Subscription :=
  (load id).andThen fun s => done (if s.enabled then .ok s else .error (.inactiveSubscription id))

/-- Finds the value of a name. -/
def resolve (id : Nat) (name : String) : Script AbiValue :=
  (loadActive id).andThen fun s => done (s.resolve name)

/-- Finds a subscription, which the caller must own. -/
def checkOwner (id : Nat) (caller : Address) : Script Unit :=
  (load id).andThen fun s =>
    done (if s.owner = caller then .ok () else .error (.notSubscriptionOwner id))

/-- How a change ends: the ledger must have found what it was to change. -/
def changed (id : Nat) (isKnown : Bool) : Script Unit :=
  done (if isKnown then .ok () else .error (.unknownSubscription id))

/-- Switches a subscription on or off for its owner. -/
def switch (id : Nat) (caller : Address) (enabled : Bool) : Script Unit :=
  (checkOwner id caller).andThen fun _ => setEnabled id enabled (changed id)

/-- Removes a subscription for its owner. -/
def revoke (id : Nat) (caller : Address) : Script Unit :=
  (checkOwner id caller).andThen fun _ => remove id (changed id)

/-! ## Scripts and computations -/

/-- The script ends as the computation does, on every ledger. -/
def Follows [Ledger σ] (script : Script α) (call : OnLedger σ α) : Prop :=
  ∀ ledger, script.run ledger = settle ledger (call ledger)

/-- A computation that leaves the ledger as it is. -/
def Reads (call : OnLedger σ α) : Prop :=
  ∀ ledger a next, call ledger = .ok (a, next) → next = ledger

theorem reads_lift (outcome : Except Fault α) : Reads (liftM outcome : OnLedger σ α) := by
  intro ledger a next hcall
  exact (state_lift_eq_ok.mp hcall).2

theorem reads_test (c : Prop) [Decidable c] (a : α) (fault : Fault) :
    Reads (if c then pure a else throw fault : OnLedger σ α) := by
  intro ledger b next hcall
  by_cases hc : c
  · rw [if_pos hc] at hcall
    cases hcall
    rfl
  · rw [if_neg hc] at hcall
    cases hcall

theorem Reads.bind {call : OnLedger σ α} {g : α → OnLedger σ β} (h : Reads call)
    (hg : ∀ a, Reads (g a)) : Reads (call >>= g) := by
  intro ledger b next hcall
  obtain ⟨a, mid, hfirst, hrest⟩ := state_bind_eq_ok.mp hcall
  rw [hg a mid b next hrest]
  exact h ledger a mid hfirst

section Following

variable [Ledger σ]

theorem follows_done (outcome : Except Fault α) :
    (done outcome).Follows (liftM outcome : OnLedger σ α) := by
  intro ledger
  cases outcome with
  | ok a => rfl
  | error fault => rfl

/-- Behind a part that only reads, a failure leaves the ledger as the whole has found it. -/
theorem Follows.andThen {script : Script α} {call : OnLedger σ α} (h : script.Follows call)
    (hreads : Reads call) {f : α → Script β} {g : α → OnLedger σ β}
    (hf : ∀ a, (f a).Follows (g a)) : (script.andThen f).Follows (call >>= g) := by
  intro ledger
  have hbind : (call >>= g) ledger = (call ledger >>= fun p => g p.1 p.2) := rfl
  rw [run_andThen, h ledger, hbind]
  cases hcall : call ledger with
  | error fault => rfl
  | ok p =>
    have hnext : p.2 = ledger := hreads ledger p.1 p.2 hcall
    have hrest := hf p.1 p.2
    rw [hnext] at hrest
    show (f p.1).run p.2 = settle ledger (g p.1 p.2)
    rw [hnext]
    exact hrest

theorem run_map_eq_settle {script : Script α} {call : OnLedger σ α} {ledger : σ}
    (h : script.run ledger = settle ledger (call ledger)) (f : α → β) :
    (script.map f).run ledger = settle ledger ((f <$> call) ledger) := by
  have hmap : (f <$> call) ledger = (call ledger).map fun p => (f p.1, p.2) := rfl
  rw [run_map, h, hmap]
  cases call ledger with
  | error fault => rfl
  | ok p => rfl

theorem Follows.map {script : Script α} {call : OnLedger σ α} (h : script.Follows call)
    (f : α → β) : (script.map f).Follows (f <$> call) :=
  fun ledger => run_map_eq_settle (h ledger) f

/-! ## Calls -/

theorem reads_load (id : Nat) : Reads (Manager.load id : OnLedger σ Subscription) := by
  intro ledger a next hcall
  exact (Manager.load_eq_ok_iff.mp hcall).2

theorem follows_load (id : Nat) :
    (load id).Follows (Manager.load id : OnLedger σ Subscription) := by
  intro ledger
  have hload : (Manager.load id : OnLedger σ Subscription) ledger =
      ((Ledger.fetch ledger id).map fun found => (found, ledger)) >>= fun p =>
        (match p.1 with
          | some s => pure s
          | none => throw (.unknownSubscription id) : OnLedger σ Subscription) p.2 := rfl
  rw [hload]
  unfold load run
  cases Ledger.fetch ledger id with
  | error fault => rfl
  | ok found =>
    cases found with
    | none => rfl
    | some s => rfl

theorem follows_test (c : Prop) [Decidable c] (a : α) (fault : Fault) :
    (done (if c then .ok a else .error fault)).Follows
      (if c then pure a else throw fault : OnLedger σ α) := by
  intro ledger
  by_cases hc : c
  · rw [if_pos hc, if_pos hc]
    rfl
  · rw [if_neg hc, if_neg hc]
    rfl

theorem follows_create (target : Target) (slots : List SubSlot) (owner : Address)
    (values : NameMap AbiValue) (now : Timestamp) :
    (create target slots owner values now).Follows
      (Manager.create target slots owner values now : OnLedger σ Nat) := by
  refine (follows_done _).andThen (reads_lift _) fun ordered ledger => ?_
  have hinsert : (do
      let s ← OnLedger.insert ⟨target, owner, ordered, now⟩
      pure s.id : OnLedger σ Nat) ledger =
      Ledger.insert ledger ⟨target, owner, ordered, now⟩ >>= fun p => .ok (p.1.id, p.2) := rfl
  rw [hinsert]
  unfold run
  cases Ledger.insert ledger ⟨target, owner, ordered, now⟩ with
  | error fault => rfl
  | ok p => rfl

theorem follows_subscribeBundle (lib : Library) (bundle : Nat) (owner : Address)
    (values : NameMap AbiValue) (now : Timestamp) :
    (subscribeBundle lib bundle owner values now).Follows
      (Manager.subscribeBundle lib bundle owner values now : OnLedger σ Nat) := by
  refine (follows_done _).andThen (reads_lift _) fun slots => ?_
  exact (follows_done _).andThen (reads_lift _) fun key => follows_create _ _ _ _ _

theorem follows_loadActive (id : Nat) :
    (loadActive id).Follows (Manager.loadActive id : OnLedger σ Subscription) :=
  (follows_load id).andThen (reads_load id) fun _ => follows_test _ _ _

theorem reads_loadActive (id : Nat) : Reads (Manager.loadActive id : OnLedger σ Subscription) :=
  (reads_load id).bind fun _ => reads_test _ _ _

theorem follows_resolve (id : Nat) (name : String) :
    (resolve id name).Follows (Manager.resolve id name : OnLedger σ AbiValue) :=
  (follows_loadActive id).andThen (reads_loadActive id) fun _ => follows_done _

theorem follows_checkOwner (id : Nat) (caller : Address) :
    (checkOwner id caller).Follows (Manager.checkOwner id caller : OnLedger σ Unit) :=
  (follows_load id).andThen (reads_load id) fun _ => follows_test _ _ _

theorem reads_checkOwner (id : Nat) (caller : Address) :
    Reads (Manager.checkOwner id caller : OnLedger σ Unit) :=
  (reads_load id).bind fun _ => reads_test _ _ _

end Following

/-! ## Changes -/

/-- A step that changes the ledger, and the judgement of its answer. -/
theorem follows_change [Ledger σ] {id : Nat} {script : Script Unit} {step : OnLedger σ Bool}
    (hrun : ∀ ledger, script.run ledger =
      match step ledger with
      | .ok (isKnown, next) => (changed id isKnown).run next
      | .error fault => (.error fault, ledger))
    (hrefused : ∀ ledger next, step ledger = .ok (false, next) → next = ledger) :
    script.Follows (step >>= fun isKnown =>
      if isKnown then pure () else throw (.unknownSubscription id)) := by
  intro ledger
  have hbind : (step >>= fun isKnown =>
      if isKnown then pure () else throw (.unknownSubscription id) : OnLedger σ Unit) ledger =
      (step ledger >>= fun p =>
        (if p.1 then pure () else throw (.unknownSubscription id) : OnLedger σ Unit) p.2) := rfl
  rw [hrun, hbind]
  cases hstep : step ledger with
  | error fault => rfl
  | ok p =>
    obtain ⟨isKnown, next⟩ := p
    cases isKnown with
    | true => rfl
    | false =>
      rw [hrefused ledger next hstep]
      rfl

theorem follows_switch [Ledger σ] (h : Ledger.RefusesInPlace σ) (id : Nat) (caller : Address)
    (enabled : Bool) :
    (switch id caller enabled).Follows (Manager.setEnabled id caller enabled : OnLedger σ Unit) :=
  (follows_checkOwner id caller).andThen (reads_checkOwner id caller) fun _ =>
    follows_change (fun _ => by rw [run]; rfl) fun _ _ => h.setEnabled

theorem follows_revoke [Ledger σ] (h : Ledger.RefusesInPlace σ) (id : Nat) (caller : Address) :
    (revoke id caller).Follows (Manager.revoke id caller : OnLedger σ Unit) :=
  (follows_checkOwner id caller).andThen (reads_checkOwner id caller) fun _ =>
    follows_change (fun _ => by rw [run]; rfl) fun _ _ => h.remove

end Script

/-! ## Calls -/

/-- What a client may ask of a manager. -/
inductive Call where
  | subscribe (s : Strategy) (owner : Address) (values : NameMap AbiValue) (now : Timestamp)
  | subscribeBundle (lib : Library) (bundle : Nat) (owner : Address) (values : NameMap AbiValue)
    (now : Timestamp)
  | activate (id : Nat) (caller : Address)
  | deactivate (id : Nat) (caller : Address)
  | revoke (id : Nat) (caller : Address)
  | load (id : Nat)
  | resolve (id : Nat) (name : String)

/-- What a manager answers. -/
inductive Reply where
  | handle (id : Nat)
  | done
  | subscription (s : Subscription)
  | value (v : AbiValue)
  deriving DecidableEq

namespace Call

variable {σ : Type} [Ledger σ]

/-- The manager's computation for a call. -/
def perform : Call → OnLedger σ Reply
  | subscribe s owner values now => .handle <$> Manager.subscribe s owner values now
  | subscribeBundle lib bundle owner values now =>
    .handle <$> Manager.subscribeBundle lib bundle owner values now
  | activate id caller => (fun _ => .done) <$> Manager.activate id caller
  | deactivate id caller => (fun _ => .done) <$> Manager.deactivate id caller
  | revoke id caller => (fun _ => .done) <$> Manager.revoke id caller
  | load id => .subscription <$> Manager.load id
  | resolve id name => .value <$> Manager.resolve id name

/-- The script of a call. -/
def script : Call → Script Reply
  | subscribe s owner values now => (Script.subscribe s owner values now).map .handle
  | subscribeBundle lib bundle owner values now =>
    (Script.subscribeBundle lib bundle owner values now).map .handle
  | activate id caller => (Script.switch id caller true).map fun _ => .done
  | deactivate id caller => (Script.switch id caller false).map fun _ => .done
  | revoke id caller => (Script.revoke id caller).map fun _ => .done
  | load id => (Script.load id).map .subscription
  | resolve id name => (Script.resolve id name).map .value

/-- Run in place, the script of a call ends as the manager's computation does, and a call that
    fails leaves the ledger as it was. -/
theorem run_script (h : Ledger.RefusesInPlace σ) (call : Call) (ledger : σ) :
    call.script.run ledger = settle ledger (call.perform ledger) := by
  cases call with
  | subscribe s owner values now => exact (Script.follows_create _ _ _ _ _).map _ ledger
  | subscribeBundle lib bundle owner values now =>
    exact (Script.follows_subscribeBundle _ _ _ _ _).map _ ledger
  | activate id caller => exact (Script.follows_switch h id caller true).map _ ledger
  | deactivate id caller => exact (Script.follows_switch h id caller false).map _ ledger
  | revoke id caller => exact (Script.follows_revoke h id caller).map _ ledger
  | load id => exact (Script.follows_load id).map _ ledger
  | resolve id name => exact (Script.follows_resolve id name).map _ ledger

end Call

end Autopilot
