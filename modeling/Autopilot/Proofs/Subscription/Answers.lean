/-
  What each call of a manager returns, and what it changes in the ledger of a process.

  The answer of a call depends on what the ledger finds and on the last handle that was given
  out, and a call changes at most one thing: it grants a subscription, or it switches or removes
  one (`run_call`). What is switched or removed is found, and what is granted has a handle of 64
  bits (`finds_answer`); the subscriptions that succeed are the grants (`grant?_answer`), and one is
  refused for want of a handle only behind the last of them (`answer_ne_overflow`).
-/
import Autopilot.Proofs.Library
import Autopilot.Proofs.Subscription.Memory
import Autopilot.Proofs.Subscription.Script

namespace Autopilot

/-! ## What a call changes -/

/-- What may be changed in a ledger. -/
inductive Change where
  | nothing
  | grant (new : NewSubscription)
  | switch (id : Nat) (enabled : Bool)
  | removal (id : Nat)

/-- The content of a new subscription, unless there is a fault in its values. -/
def content (target : Target) (slots : List SubSlot) (owner : Address)
    (values : NameMap AbiValue) (now : Timestamp) : Except Fault NewSubscription :=
  (declaredValues target slots values).map fun ordered => ⟨target, owner, ordered, now⟩

/-- The content of a new subscription to a bundle. -/
def bundleContent (lib : Library) (bundle : Nat) (owner : Address) (values : NameMap AbiValue)
    (now : Timestamp) : Except Fault NewSubscription := do
  let slots ← lib.bundleSubSlots bundle
  let key ← lib.bundleKey bundle
  content (.bundle key) slots owner values now

/-- The grant of a content. -/
def Change.ofContent : Except Fault NewSubscription → Change
  | .ok new => .grant new
  | .error _ => .nothing

/-- What a call changes if it succeeds. -/
def Call.change : Call → Change
  | subscribe s owner values now =>
    .ofContent (content (.strategy s.id) s.subSlots owner values now)
  | subscribeBundle lib bundle owner values now =>
    .ofContent (bundleContent lib bundle owner values now)
  | activate id _ => .switch id true
  | deactivate id _ => .switch id false
  | revoke id _ => .removal id
  | load _ => .nothing
  | resolve _ _ => .nothing

/-- A change that takes place if the outcome is a success. -/
def Change.upon {α : Type} (change : Change) : Except Fault α → Change
  | .ok _ => change
  | .error _ => .nothing

theorem Change.upon_map {α β : Type} (change : Change) (f : α → β) (outcome : Except Fault α) :
    change.upon (outcome.map f) = change.upon outcome := by
  cases outcome with
  | ok a => rfl
  | error fault => rfl

theorem Change.upon_nothing {α : Type} (outcome : Except Fault α) :
    Change.nothing.upon outcome = .nothing := by
  cases outcome with
  | ok a => rfl
  | error fault => rfl

/-- A call that was made, and how it ended. -/
structure Event where
  call : Call
  outcome : Except Fault Reply

/-- What an event has changed. -/
def Event.change (e : Event) : Change :=
  e.call.change.upon e.outcome

/-- Whether a call subscribes. -/
def Call.subscribes : Call → Bool
  | subscribe .. => true
  | subscribeBundle .. => true
  | _ => false

/-- The answer to a subscription, if it succeeded. -/
def Event.grant? (e : Event) : Option Reply :=
  if e.call.subscribes then e.outcome.toOption else none

/-- The content that a change grants. -/
def Change.granted? : Change → Option NewSubscription
  | .grant new => some new
  | _ => none

/-- The content of a new subscription, if there is a further handle for it. -/
def MemoryLedger.take (m : MemoryLedger) (new : Except Fault NewSubscription) :
    Except Fault NewSubscription := do
  let new ← new
  if m.HasRoom then pure new else throw (.queryFailed .overflow)

/-- The ledger behind a change. -/
def MemoryLedger.carry (m : MemoryLedger) : Change → MemoryLedger
  | .nothing => m
  | .grant new => (m.add new).2
  | .switch id enabled => (m.setEnabled id enabled).2
  | .removal id => (m.remove id).2

theorem MemoryLedger.take_of_hasRoom {m : MemoryLedger} (h : m.HasRoom)
    (new : Except Fault NewSubscription) : m.take new = new := by
  cases new with
  | ok new => exact if_pos h
  | error fault => rfl

theorem MemoryLedger.take_of_not_hasRoom {m : MemoryLedger} (h : ¬ m.HasRoom)
    (new : NewSubscription) : m.take (.ok new) = .error (.queryFailed .overflow) :=
  if_neg h

theorem Change.upon_take (m : MemoryLedger) (new : Except Fault NewSubscription) :
    (Change.ofContent new).upon (m.take new) = .ofContent (m.take new) := by
  cases new with
  | error fault => rfl
  | ok new =>
    by_cases hroom : m.HasRoom
    · rw [m.take_of_hasRoom hroom]
      rfl
    · rw [m.take_of_not_hasRoom hroom]
      rfl

/-! ## What a call returns -/

/-- Whether the caller may change what is found under a handle. -/
def checkCaller (found? : Option Subscription) (id : Nat) (caller : Address) : Except Fault Unit :=
  match found? with
  | none => .error (.unknownSubscription id)
  | some s => if s.owner = caller then .ok () else .error (.notSubscriptionOwner id)

/-- What is found under a handle, which must be known. -/
def known (found? : Option Subscription) (id : Nat) : Except Fault Subscription :=
  match found? with
  | none => .error (.unknownSubscription id)
  | some s => .ok s

/-- The value of a name in what is found under a handle, which must be known and on. -/
def valueIn (found? : Option Subscription) (id : Nat) (name : String) : Except Fault AbiValue :=
  match found? with
  | none => .error (.unknownSubscription id)
  | some s => if s.enabled then s.resolve name else .error (.inactiveSubscription id)

/-- The outcome of a call, from what the ledger finds and the last handle that was given out. -/
def Call.answer (m : MemoryLedger) : Call → Except Fault Reply
  | subscribe s owner values now =>
    ((m.take (content (.strategy s.id) s.subSlots owner values now)).map
      fun _ => m.lastId.toNat + 1).map .handle
  | subscribeBundle lib bundle owner values now =>
    ((m.take (bundleContent lib bundle owner values now)).map
      fun _ => m.lastId.toNat + 1).map .handle
  | activate id caller => (checkCaller (m.find? id) id caller).map fun _ => .done
  | deactivate id caller => (checkCaller (m.find? id) id caller).map fun _ => .done
  | revoke id caller => (checkCaller (m.find? id) id caller).map fun _ => .done
  | load id => (known (m.find? id) id).map .subscription
  | resolve id name => (valueIn (m.find? id) id name).map .value

theorem MemoryLedger.refusesInPlace : Ledger.RefusesInPlace MemoryLedger where
  setEnabled := by
    intro m next id enabled hcall
    have hstep : m.setEnabled id enabled = (false, next) := Except.ok.inj hcall
    have hunknown := m.setEnabled_fst id enabled
    unfold MemoryLedger.setEnabled at hstep
    cases hfind : m.find? id with
    | none =>
      rw [hfind] at hstep
      exact (congrArg Prod.snd hstep).symm
    | some found =>
      rw [hfind] at hstep
      cases hstep
  remove := by
    intro m next id hcall
    have hstep : m.remove id = (false, next) := Except.ok.inj hcall
    unfold MemoryLedger.remove at hstep
    cases hfind : m.find? id with
    | none =>
      rw [hfind] at hstep
      exact (congrArg Prod.snd hstep).symm
    | some found =>
      rw [hfind] at hstep
      cases hstep

section Memory

variable (m : MemoryLedger)

theorem run_create (target : Target) (slots : List SubSlot) (owner : Address)
    (values : NameMap AbiValue) (now : Timestamp) :
    (Script.create target slots owner values now).run m =
      ((m.take (content target slots owner values now)).map fun _ => m.lastId.toNat + 1,
        m.carry (.ofContent (m.take (content target slots owner values now)))) := by
  unfold Script.create content
  cases declaredValues target slots values with
  | error fault => rfl
  | ok ordered =>
    show (Script.insert ⟨target, owner, ordered, now⟩ fun s => .done (.ok s.id)).run m =
      ((m.take (.ok ⟨target, owner, ordered, now⟩)).map fun _ => m.lastId.toNat + 1,
        m.carry (.ofContent (m.take (.ok ⟨target, owner, ordered, now⟩))))
    by_cases hroom : m.HasRoom
    · have hinsert : Ledger.insert m ⟨target, owner, ordered, now⟩ = .ok (m.add _) :=
        MemoryLedger.insert_of_hasRoom hroom _
      rw [Script.run, hinsert, MemoryLedger.take_of_hasRoom hroom]
      exact Prod.ext (congrArg Except.ok (MemoryLedger.id_add hroom _)) rfl
    · have hinsert : Ledger.insert m ⟨target, owner, ordered, now⟩ = .error _ :=
        MemoryLedger.insert_of_not_hasRoom hroom _
      rw [Script.run, hinsert, MemoryLedger.take_of_not_hasRoom hroom]
      rfl

theorem run_subscribeBundle (lib : Library) (bundle : Nat) (owner : Address)
    (values : NameMap AbiValue) (now : Timestamp) :
    (Script.subscribeBundle lib bundle owner values now).run m =
      ((m.take (bundleContent lib bundle owner values now)).map fun _ => m.lastId.toNat + 1,
        m.carry (.ofContent (m.take (bundleContent lib bundle owner values now)))) := by
  unfold Script.subscribeBundle bundleContent
  cases lib.bundleSubSlots bundle with
  | error fault => rfl
  | ok slots =>
    cases lib.bundleKey bundle with
    | error fault => rfl
    | ok key => exact run_create m _ _ _ _ _

theorem run_load (id : Nat) : (Script.load id).run m = (known (m.find? id) id, m) := by
  have hfetch : Ledger.fetch m id = .ok (m.find? id) := rfl
  unfold Script.load
  rw [Script.run, hfetch]
  dsimp only
  cases m.find? id with
  | none => rfl
  | some s => rfl

theorem run_resolve (id : Nat) (name : String) :
    (Script.resolve id name).run m = (valueIn (m.find? id) id name, m) := by
  unfold Script.resolve Script.loadActive
  rw [Script.run_andThen, Script.run_andThen, run_load]
  cases m.find? id with
  | none => rfl
  | some s =>
    unfold known valueIn
    cases henabled : s.enabled with
    | true =>
      simp only [henabled, if_true]
      rfl
    | false =>
      simp only [henabled]
      rfl

/-- A change that only the owner may ask for, on a ledger that changes what it finds. -/
theorem run_owned (id : Nat) (caller : Address) {step : Unit → Script Unit} {change : Change}
    (hstep : (step ()).run m = (Script.changed id (m.find? id).isSome).run (m.carry change)) :
    ((Script.checkOwner id caller).andThen step).run m =
      (checkCaller (m.find? id) id caller,
        m.carry (change.upon (checkCaller (m.find? id) id caller))) := by
  unfold Script.checkOwner checkCaller
  rw [Script.run_andThen, Script.run_andThen, run_load]
  cases hfind : m.find? id with
  | none => rfl
  | some s =>
    rw [hfind] at hstep
    by_cases howner : s.owner = caller
    · simp only [known, howner, if_true]
      exact hstep
    · simp only [known, howner, if_false]
      rfl

theorem run_switch (id : Nat) (caller : Address) (enabled : Bool) :
    (Script.switch id caller enabled).run m =
      (checkCaller (m.find? id) id caller,
        m.carry ((Change.switch id enabled).upon (checkCaller (m.find? id) id caller))) := by
  refine run_owned m id caller ?_
  rw [Script.run, ← m.setEnabled_fst id enabled]
  rfl

theorem run_revoke (id : Nat) (caller : Address) :
    (Script.revoke id caller).run m =
      (checkCaller (m.find? id) id caller,
        m.carry ((Change.removal id).upon (checkCaller (m.find? id) id caller))) := by
  refine run_owned m id caller ?_
  rw [Script.run, ← m.remove_fst id]
  rfl

/-- Run in place, a call ends with its answer, and the ledger is carried by what has changed. -/
theorem run_call (call : Call) :
    call.script.run m = (call.answer m, m.carry (Event.change ⟨call, call.answer m⟩)) := by
  unfold Event.change
  cases call with
  | subscribe s owner values now =>
    unfold Call.script Script.subscribe Call.answer Call.change
    rw [Script.run_map, run_create, Change.upon_map, Change.upon_map, Change.upon_take]
  | subscribeBundle lib bundle owner values now =>
    unfold Call.script Call.answer Call.change
    rw [Script.run_map, run_subscribeBundle, Change.upon_map, Change.upon_map, Change.upon_take]
  | activate id caller =>
    unfold Call.script Call.answer Call.change
    rw [Script.run_map, run_switch, Change.upon_map]
  | deactivate id caller =>
    unfold Call.script Call.answer Call.change
    rw [Script.run_map, run_switch, Change.upon_map]
  | revoke id caller =>
    unfold Call.script Call.answer Call.change
    rw [Script.run_map, run_revoke, Change.upon_map]
  | load id =>
    unfold Call.script Call.answer Call.change
    rw [Script.run_map, run_load, Change.upon_map, Change.upon_nothing]
    rfl
  | resolve id name =>
    unfold Call.script Call.answer Call.change
    rw [Script.run_map, run_resolve, Change.upon_map, Change.upon_nothing]
    rfl

theorem settle_perform (call : Call) :
    settle m (call.perform m) = (call.answer m, m.carry (Event.change ⟨call, call.answer m⟩)) := by
  rw [← Call.run_script MemoryLedger.refusesInPlace, run_call]

theorem grant?_ofContent (new : Except Fault NewSubscription) :
    ((new.map fun _ => m.lastId.toNat + 1).map .handle).toOption =
      (Change.ofContent new).granted?.map fun _ => Reply.handle (m.lastId.toNat + 1) := by
  cases new with
  | ok new => rfl
  | error fault => rfl

theorem granted?_upon {α : Type} {change : Change} (h : change.granted? = none)
    (outcome : Except Fault α) : (change.upon outcome).granted? = none := by
  cases outcome with
  | ok a => exact h
  | error fault => rfl

/-- The subscriptions that succeed are those that are granted, and they get the next handle. -/
theorem grant?_answer (call : Call) :
    Event.grant? ⟨call, call.answer m⟩ =
      (Event.change ⟨call, call.answer m⟩).granted?.map fun _ => .handle (m.lastId.toNat + 1) := by
  unfold Event.grant? Event.change
  cases call with
  | subscribe s owner values now =>
    unfold Call.answer Call.change
    rw [Change.upon_map, Change.upon_map, Change.upon_take, ← grant?_ofContent]
    rfl
  | subscribeBundle lib bundle owner values now =>
    unfold Call.answer Call.change
    rw [Change.upon_map, Change.upon_map, Change.upon_take, ← grant?_ofContent]
    rfl
  | activate id caller =>
    rw [granted?_upon rfl]
    rfl
  | deactivate id caller =>
    rw [granted?_upon rfl]
    rfl
  | revoke id caller =>
    rw [granted?_upon rfl]
    rfl
  | load id =>
    rw [granted?_upon rfl]
    rfl
  | resolve id name =>
    rw [granted?_upon rfl]
    rfl

/-- What is switched or removed is found, and there is a handle for what is granted. -/
def Change.Finds : Change → Prop
  | .nothing => True
  | .grant _ => m.HasRoom
  | .switch id _ => ∃ s, m.find? id = some s
  | .removal id => ∃ s, m.find? id = some s

theorem finds_upon {id : Nat} {caller : Address} {change : Change}
    (h : ∀ s, m.find? id = some s → change.Finds m) :
    (change.upon (checkCaller (m.find? id) id caller)).Finds m := by
  cases hfind : m.find? id with
  | none => trivial
  | some s =>
    unfold checkCaller
    dsimp only
    by_cases howner : s.owner = caller
    · rw [if_pos howner]
      exact h s hfind
    · rw [if_neg howner]
      trivial

theorem finds_take (new : Except Fault NewSubscription) :
    (Change.ofContent (m.take new)).Finds m := by
  cases new with
  | error fault => trivial
  | ok new =>
    by_cases hroom : m.HasRoom
    · rw [MemoryLedger.take_of_hasRoom hroom]
      exact hroom
    · rw [MemoryLedger.take_of_not_hasRoom hroom]
      trivial

theorem finds_answer (call : Call) : (Event.change ⟨call, call.answer m⟩).Finds m := by
  unfold Event.change
  cases call with
  | subscribe s owner values now =>
    unfold Call.answer Call.change
    rw [Change.upon_map, Change.upon_map, Change.upon_take]
    exact finds_take m _
  | subscribeBundle lib bundle owner values now =>
    unfold Call.answer Call.change
    rw [Change.upon_map, Change.upon_map, Change.upon_take]
    exact finds_take m _
  | activate id caller =>
    unfold Call.answer Call.change
    rw [Change.upon_map]
    exact finds_upon m fun s hfind => ⟨s, hfind⟩
  | deactivate id caller =>
    unfold Call.answer Call.change
    rw [Change.upon_map]
    exact finds_upon m fun s hfind => ⟨s, hfind⟩
  | revoke id caller =>
    unfold Call.answer Call.change
    rw [Change.upon_map]
    exact finds_upon m fun s hfind => ⟨s, hfind⟩
  | load id =>
    unfold Call.change
    rw [Change.upon_nothing]
    trivial
  | resolve id name =>
    unfold Call.change
    rw [Change.upon_nothing]
    trivial

end Memory

/-! ## Want of a handle -/

/-- The fault is not that of a ledger that refuses a step. -/
def Fault.OutsideLedger (fault : Fault) : Prop :=
  ∀ cause, fault ≠ .queryFailed cause

theorem failsWith_takeDeclared (values : NameMap AbiValue) (slots : List SubSlot) :
    FailsWith (takeDeclared values slots) Fault.OutsideLedger := by
  induction slots generalizing values with
  | nil => exact failsWith_ok _ _
  | cons slot rest ih =>
    unfold takeDeclared
    cases values.find? slot.name with
    | none => exact failsWith_error fun cause => Fault.noConfusion
    | some value =>
      dsimp only
      by_cases htype : value.slotType = slot.type
      · rw [if_pos htype]
        exact (ih _).bind fun p => failsWith_ok _ _
      · rw [if_neg htype]
        exact failsWith_error fun cause => Fault.noConfusion

theorem failsWith_content (target : Target) (slots : List SubSlot) (owner : Address)
    (values : NameMap AbiValue) (now : Timestamp) :
    FailsWith (content target slots owner values now) Fault.OutsideLedger := by
  refine FailsWith.map ((failsWith_takeDeclared values slots).bind fun p => ?_)
  dsimp only
  cases p.2.keys with
  | nil => exact failsWith_ok _ _
  | cons extra more => exact failsWith_error fun cause => Fault.noConfusion

theorem failsWith_get (lib : Library) (id : StrategyId) :
    FailsWith (lib.get id) Fault.OutsideLedger := by
  unfold Library.get
  split
  · exact failsWith_ok _ _
  · exact failsWith_error fun cause => Fault.noConfusion

theorem failsWith_bundleContent (lib : Library) (bundle : Nat) (owner : Address)
    (values : NameMap AbiValue) (now : Timestamp) :
    FailsWith (bundleContent lib bundle owner values now) Fault.OutsideLedger := by
  have hbundle : FailsWith (lib.bundle bundle) Fault.OutsideLedger :=
    lib.failsWith_bundle fun cause => Fault.noConfusion
  refine FailsWith.bind (hbundle.bind fun b => ?_) fun slots =>
    hbundle.map.bind fun key => failsWith_content _ _ _ _ _
  cases b.members with
  | nil => exact failsWith_error fun cause => Fault.noConfusion
  | cons first more => exact (failsWith_get lib first.strategy).bind fun s => failsWith_ok _ _

theorem failsWith_checkCaller (found? : Option Subscription) (id : Nat) (caller : Address) :
    FailsWith (checkCaller found? id caller) Fault.OutsideLedger := by
  cases found? with
  | none => exact failsWith_error fun cause => Fault.noConfusion
  | some s =>
    unfold checkCaller
    dsimp only
    split
    · exact failsWith_ok _ _
    · exact failsWith_error fun cause => Fault.noConfusion

theorem failsWith_known (found? : Option Subscription) (id : Nat) :
    FailsWith (known found? id) Fault.OutsideLedger := by
  cases found? with
  | none => exact failsWith_error fun cause => Fault.noConfusion
  | some s => exact failsWith_ok _ _

theorem failsWith_valueIn (found? : Option Subscription) (id : Nat) (name : String) :
    FailsWith (valueIn found? id name) Fault.OutsideLedger := by
  cases found? with
  | none => exact failsWith_error fun cause => Fault.noConfusion
  | some s =>
    unfold valueIn Subscription.resolve
    dsimp only
    split
    · split
      · exact failsWith_ok _ _
      · split
        · exact failsWith_ok _ _
        · exact failsWith_error fun cause => Fault.noConfusion
    · exact failsWith_error fun cause => Fault.noConfusion

/-- As long as there is a further handle, no call is refused for want of one. -/
theorem answer_ne_overflow {m : MemoryLedger} (h : m.HasRoom) (call : Call) :
    call.answer m ≠ .error (.queryFailed .overflow) := by
  have houtside : FailsWith (call.answer m) Fault.OutsideLedger := by
    unfold Call.answer
    cases call with
    | subscribe s owner values now =>
      dsimp only
      rw [m.take_of_hasRoom h]
      exact (failsWith_content _ _ _ _ _).map.map
    | subscribeBundle lib bundle owner values now =>
      dsimp only
      rw [m.take_of_hasRoom h]
      exact (failsWith_bundleContent _ _ _ _ _).map.map
    | activate id caller => exact (failsWith_checkCaller _ _ _).map
    | deactivate id caller => exact (failsWith_checkCaller _ _ _).map
    | revoke id caller => exact (failsWith_checkCaller _ _ _).map
    | load id => exact (failsWith_known _ _).map
    | resolve id name => exact (failsWith_valueIn _ _ _).map
  exact fun hrefused => houtside _ hrefused _ rfl

end Autopilot
