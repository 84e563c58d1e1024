/-
  What a call may do to a lawful ledger.

  A call that changes a subscription looks at its owner first and makes its change behind the check
  (`Call.Changes.script_eq`); every other call takes at most one step. So a step of a call leaves
  the ledger as it is, keeps a new subscription, or changes one that is found and that the caller
  owns (`Call.Effect`). Whatever is found under an issued number survives all of these but the
  last (`Call.Effect.fetch`), and a caller who owned it then still owns it, or it is gone
  (`Ledger.Vetted.effect`).
-/
import Autopilot.Proofs.Subscription.Answers
import Autopilot.Proofs.Subscription.Laws

namespace Autopilot

namespace Script

variable {α σ : Type} [Ledger σ]

/-- How a script has ended, if it has. -/
def outcome? : Script α → Option (Except Fault α)
  | done outcome => some outcome
  | _ => none

omit [Ledger σ] in
theorem eq_done_of_outcome? {script : Script α} {outcome : Except Fault α}
    (h : script.outcome? = some outcome) : script = done outcome := by
  cases script with
  | done outcome' =>
    cases h
    rfl
  | _ => cases h

/-- Takes the first step of a script. A step that fails ends the script. -/
def step : Script α → σ → Script α × σ
  | done outcome, ledger => (done outcome, ledger)
  | insert new next, ledger =>
    match Ledger.insert ledger new with
    | .ok (s, changed) => (next s, changed)
    | .error fault => (done (.error fault), ledger)
  | fetch id next, ledger =>
    match Ledger.fetch ledger id with
    | .ok found => (next found, ledger)
    | .error fault => (done (.error fault), ledger)
  | setEnabled id enabled next, ledger =>
    match Ledger.setEnabled ledger id enabled with
    | .ok (isKnown, changed) => (next isKnown, changed)
    | .error fault => (done (.error fault), ledger)
  | remove id next, ledger =>
    match Ledger.remove ledger id with
    | .ok (isKnown, changed) => (next isKnown, changed)
    | .error fault => (done (.error fault), ledger)

/-- Running a script is taking its first step and running the rest. -/
theorem run_step (script : Script α) (ledger : σ) :
    (script.step ledger).1.run (script.step ledger).2 = script.run ledger := by
  cases script with
  | done outcome => rfl
  | insert new next =>
    rw [step, run]
    cases Ledger.insert ledger new with
    | ok p => rfl
    | error fault => rfl
  | fetch id next =>
    rw [step, run]
    cases Ledger.fetch ledger id with
    | ok found => rfl
    | error fault => rfl
  | setEnabled id enabled next =>
    rw [step, run]
    cases Ledger.setEnabled ledger id enabled with
    | ok p => rfl
    | error fault => rfl
  | remove id next =>
    rw [step, run]
    cases Ledger.remove ledger id with
    | ok p => rfl
    | error fault => rfl

theorem step_setEnabled {id : Nat} {enabled isKnown : Bool} {ledger changed : σ}
    (h : Ledger.setEnabled ledger id enabled = .ok (isKnown, changed)) (next : Bool → Script α) :
    (setEnabled id enabled next).step ledger = (next isKnown, changed) := by
  rw [step, h]

theorem step_remove {id : Nat} {isKnown : Bool} {ledger changed : σ}
    (h : Ledger.remove ledger id = .ok (isKnown, changed)) (next : Bool → Script α) :
    (remove id next).step ledger = (next isKnown, changed) := by
  rw [step, h]

theorem run_eq_of_step {script : Script α} {ledger next : σ} {outcome : Except Fault α}
    (h : script.step ledger = (done outcome, next)) : script.run ledger = (outcome, next) := by
  rw [← run_step, h]
  rfl

end Script

theorem checkCaller_eq_ok_iff {found? : Option Subscription} {id : Nat} {caller : Address} :
    checkCaller found? id caller = .ok () ↔ ∃ s, found? = some s ∧ s.owner = caller := by
  unfold checkCaller
  cases found? with
  | none => simp
  | some s => by_cases howner : s.owner = caller <;> simp [howner]

theorem Script.checkOwner_eq (id : Nat) (caller : Address) :
    Script.checkOwner id caller = .fetch id fun found? => .done (checkCaller found? id caller) := by
  refine congrArg (Script.fetch id) (funext fun found? => ?_)
  cases found? with
  | none => rfl
  | some s => rfl

/-! ## Calls that change a subscription -/

/-- The call changes the subscription with the number for the caller, by a last step. -/
inductive Call.Changes : Call → Nat → Address → Script Unit → Prop where
  | activate (id : Nat) (caller : Address) :
    Changes (.activate id caller) id caller (.setEnabled id true (Script.changed id))
  | deactivate (id : Nat) (caller : Address) :
    Changes (.deactivate id caller) id caller (.setEnabled id false (Script.changed id))
  | revoke (id : Nat) (caller : Address) :
    Changes (.revoke id caller) id caller (.remove id (Script.changed id))

namespace Call.Changes

variable {σ : Type} [Ledger σ] {sound : σ → Prop} {issued : σ → Nat → Prop}
  {call : Call} {id : Nat} {caller : Address} {last : Script Unit}

/-- The owner is looked at, and the change comes behind. -/
theorem script_eq (h : Changes call id caller last) :
    call.script = .fetch id fun found? =>
      ((Script.done (checkCaller found? id caller)).andThen fun _ => last).map fun _ => .done := by
  have hscript : call.script =
      ((Script.checkOwner id caller).andThen fun _ => last).map fun _ => .done := by
    cases h with
    | activate => rfl
    | deactivate => rfl
    | revoke => rfl
  rw [hscript, Script.checkOwner_eq]
  rfl

theorem outcome?_last (h : Changes call id caller last) :
    (last.map fun _ => Reply.done).outcome? = none := by
  cases h <;> rfl

/-- A change that finds nothing. -/
theorem last_unknown (h : Changes call id caller last) (hlawful : Ledger.Lawful sound issued)
    {ledger : σ} (hsound : sound ledger) (hfetch : Ledger.fetch ledger id = .ok none) :
    (last.map fun _ => Reply.done).step ledger =
      (.done (.error (.unknownSubscription id)), ledger) := by
  cases h with
  | activate => exact Script.step_setEnabled (hlawful.setEnabled_unknown true hsound hfetch) _
  | deactivate => exact Script.step_setEnabled (hlawful.setEnabled_unknown false hsound hfetch) _
  | revoke => exact Script.step_remove (hlawful.remove_unknown hsound hfetch) _

/-- A change that finds a subscription concerns it and no other. -/
theorem last_found (h : Changes call id caller last) (hlawful : Ledger.Lawful sound issued)
    {ledger : σ} (hsound : sound ledger) {s : Subscription}
    (hfetch : Ledger.fetch ledger id = .ok (some s)) :
    ∃ next, (last.map fun _ => Reply.done).step ledger = (.done (.ok .done), next) ∧ sound next ∧
      ∀ other, (issued ledger other → issued next other) ∧
        (Ledger.fetch next other = Ledger.fetch ledger other ∨
          Ledger.fetch ledger other = .ok (some s) ∧
            (call = .revoke id caller ∧ Ledger.fetch next other = .ok none ∨
              ∃ enabled, Ledger.fetch next other = .ok (some { s with enabled }))) := by
  cases h with
  | activate =>
    obtain ⟨next, hstep, hnext, hother⟩ := hlawful.setEnabled_found true hsound hfetch
    refine ⟨next, Script.step_setEnabled hstep _, hnext, fun other => ?_⟩
    obtain ⟨hissued, hfound⟩ := hother other
    exact ⟨hissued, hfound.imp_right fun hfound => ⟨hfound.1, .inr ⟨true, hfound.2⟩⟩⟩
  | deactivate =>
    obtain ⟨next, hstep, hnext, hother⟩ := hlawful.setEnabled_found false hsound hfetch
    refine ⟨next, Script.step_setEnabled hstep _, hnext, fun other => ?_⟩
    obtain ⟨hissued, hfound⟩ := hother other
    exact ⟨hissued, hfound.imp_right fun hfound => ⟨hfound.1, .inr ⟨false, hfound.2⟩⟩⟩
  | revoke =>
    obtain ⟨next, hstep, hnext, hother⟩ := hlawful.remove_found hsound hfetch
    refine ⟨next, Script.step_remove hstep _, hnext, fun other => ?_⟩
    obtain ⟨hissued, hfound⟩ := hother other
    exact ⟨hissued, hfound.imp_right fun hfound => ⟨hfound.1, .inl ⟨rfl, hfound.2⟩⟩⟩

end Call.Changes

/-! ## Effects -/

section Effects

variable {σ : Type} [Ledger σ] {sound : σ → Prop} {issued : σ → Nat → Prop}

/-- What a step of a call may do to a ledger: nothing, keep a new subscription, or change one that
    is found and belongs to the caller. -/
inductive Call.Effect (call : Call) : σ → σ → Prop where
  | nothing (ledger : σ) : Effect call ledger ledger
  | grant {ledger next : σ} {new : NewSubscription} {s : Subscription} :
    Ledger.insert ledger new = .ok (s, next) → Effect call ledger next
  | change {ledger next : σ} {id : Nat} {s : Subscription} {last : Script Unit} :
    call.Changes id s.owner last → Ledger.fetch ledger id = .ok (some s) →
      (last.map fun _ => Reply.done).step ledger = (.done (.ok .done), next) →
        Effect call ledger next

namespace Call.Effect

variable {call : Call} {ledger next : σ}

theorem sound_next (h : call.Effect ledger next) (hlawful : Ledger.Lawful sound issued)
    (hsound : sound ledger) : sound next := by
  cases h with
  | nothing => exact hsound
  | grant hinsert => exact (hlawful.insert hsound hinsert).1
  | change hchanges hfetch hstep =>
    obtain ⟨next', hstep', hnext, -⟩ := hchanges.last_found hlawful hsound hfetch
    rw [hstep] at hstep'
    cases hstep'
    exact hnext

theorem issued_next (h : call.Effect ledger next) (hlawful : Ledger.Lawful sound issued)
    (hsound : sound ledger) {id : Nat} (hissued : issued ledger id) : issued next id := by
  cases h with
  | nothing => exact hissued
  | grant hinsert => exact ((hlawful.insert hsound hinsert).2 id hissued).1
  | change hchanges hfetch hstep =>
    obtain ⟨next', hstep', -, hother⟩ := hchanges.last_found hlawful hsound hfetch
    rw [hstep] at hstep'
    cases hstep'
    exact (hother id).1 hissued

/-- What is found under an issued number stays, unless the call changes it for its owner. -/
theorem fetch (h : call.Effect ledger next) (hlawful : Ledger.Lawful sound issued)
    (hsound : sound ledger) {id : Nat} (hissued : issued ledger id) :
    Ledger.fetch next id = Ledger.fetch ledger id ∨
      ∃ s handle last, call.Changes handle s.owner last ∧
        Ledger.fetch ledger handle = .ok (some s) ∧ Ledger.fetch ledger id = .ok (some s) ∧
        (call = .revoke handle s.owner ∧ Ledger.fetch next id = .ok none ∨
          ∃ enabled, Ledger.fetch next id = .ok (some { s with enabled })) := by
  cases h with
  | nothing => exact .inl rfl
  | grant hinsert => exact .inl ((hlawful.insert hsound hinsert).2 id hissued).2
  | @change _ handle s last hchanges hfetch hstep =>
    obtain ⟨next', hstep', -, hother⟩ := hchanges.last_found hlawful hsound hfetch
    rw [hstep] at hstep'
    cases hstep'
    refine (hother id).2.imp_right fun hfound => ?_
    exact ⟨s, handle, last, hchanges, hfetch, hfound⟩

end Call.Effect

/-- The number is issued, and what is found under it, if anything, is the caller's. -/
structure Ledger.Vetted (issued : σ → Nat → Prop) (ledger : σ) (id : Nat) (caller : Address) :
    Prop where
  issued : issued ledger id
  owned : Ledger.fetch ledger id = .ok none ∨
    ∃ s, Ledger.fetch ledger id = .ok (some s) ∧ s.owner = caller

/-- No effect of another call passes a subscription on to another owner. -/
theorem Ledger.Vetted.effect (hlawful : Ledger.Lawful sound issued) {ledger next : σ} {id : Nat}
    {caller : Address} (h : Ledger.Vetted issued ledger id caller) (hsound : sound ledger)
    {call : Call} (heffect : call.Effect ledger next) : Ledger.Vetted issued next id caller := by
  refine ⟨heffect.issued_next hlawful hsound h.issued, ?_⟩
  rcases heffect.fetch hlawful hsound h.issued with hsame | ⟨s, handle, -, -, -, hfound, hnext⟩
  · rw [hsame]
    exact h.owned
  · rcases hnext with ⟨-, hgone⟩ | ⟨enabled, hswitched⟩
    · exact .inl hgone
    · rcases h.owned with hnone | ⟨s', hfound', howner⟩
      · rw [hfound] at hnone
        cases hnone
      · rw [hfound] at hfound'
        cases hfound'
        exact .inr ⟨_, hswitched, howner⟩

/-! ## Calls -/

/-- The call is over with the outcome, by one step that has one of its effects. -/
def Call.EndsWith (call : Call) (rest : Script Reply) (ledger : σ) (outcome : Except Fault Reply)
    (next : σ) : Prop :=
  rest.step ledger = (.done outcome, next) ∧ call.Effect ledger next

theorem step_insert (call : Call) (new : NewSubscription)
    (reply : Subscription → Except Fault Reply) (ledger : σ) :
    ∃ outcome next, call.EndsWith (.insert new fun s => .done (reply s)) ledger outcome next := by
  unfold Call.EndsWith
  rw [Script.step]
  cases hinsert : Ledger.insert ledger new with
  | ok p => exact ⟨_, _, rfl, .grant hinsert⟩
  | error fault => exact ⟨_, _, rfl, .nothing ledger⟩

theorem step_create (target : Target) (slots : List SubSlot) (owner : Address)
    (values : NameMap AbiValue) (now : Timestamp) (call : Call) (ledger : σ) :
    ∃ outcome next, call.EndsWith ((Script.create target slots owner values now).map Reply.handle)
      ledger outcome next := by
  unfold Script.create
  cases declaredValues target slots values with
  | error fault => exact ⟨_, _, rfl, .nothing ledger⟩
  | ok ordered =>
    exact step_insert call ⟨target, owner, ordered, now⟩ (fun s => .ok (.handle s.id)) ledger

theorem step_subscribeBundle (lib : Library) (bundle : Nat) (owner : Address)
    (values : NameMap AbiValue) (now : Timestamp) (call : Call) (ledger : σ) :
    ∃ outcome next, call.EndsWith
      ((Script.subscribeBundle lib bundle owner values now).map Reply.handle)
      ledger outcome next := by
  unfold Script.subscribeBundle
  cases lib.bundleSubSlots bundle with
  | error fault => exact ⟨_, _, rfl, .nothing ledger⟩
  | ok slots =>
    cases lib.bundleKey bundle with
    | error fault => exact ⟨_, _, rfl, .nothing ledger⟩
    | ok key => exact step_create (.bundle key) slots owner values now call ledger

/-- A call that only finds a subscription and goes on from what is found. -/
theorem step_fetch (call : Call) (id : Nat) (reply : Option Subscription → Except Fault Reply)
    (ledger : σ) : ∃ outcome next,
      call.EndsWith (.fetch id fun found? => .done (reply found?)) ledger outcome next := by
  unfold Call.EndsWith
  rw [Script.step]
  cases Ledger.fetch ledger id with
  | ok found => exact ⟨_, _, rfl, .nothing ledger⟩
  | error fault => exact ⟨_, _, rfl, .nothing ledger⟩

theorem script_load (id : Nat) :
    (Call.load id).script =
      .fetch id fun found? => .done ((known found? id).map .subscription) := by
  refine congrArg (Script.fetch id) (funext fun found? => ?_)
  cases found? with
  | none => rfl
  | some s => rfl

theorem script_resolve (id : Nat) (name : String) :
    (Call.resolve id name).script =
      .fetch id fun found? => .done ((valueIn found? id name).map .value) := by
  refine congrArg (Script.fetch id) (funext fun found? => ?_)
  cases found? with
  | none => rfl
  | some s =>
    unfold valueIn
    by_cases henabled : s.enabled = true
    · simp only [henabled, if_true, Script.andThen]
      cases s.resolve name with
      | ok value => rfl
      | error fault => rfl
    · simp only [henabled, Script.andThen]
      rfl

/-- The first step of a call ends it, or has found the caller to be the owner of what the call is
    to change. -/
theorem Call.step_script (call : Call) (ledger : σ) :
    (∃ outcome next, call.EndsWith call.script ledger outcome next) ∨
      ∃ id s last, call.Changes id s.owner last ∧ Ledger.fetch ledger id = .ok (some s) ∧
        call.script.step ledger = (last.map fun _ => .done, ledger) := by
  have hchanges : ∀ {id caller last}, call.Changes id caller last →
      (∃ outcome next, call.EndsWith call.script ledger outcome next) ∨
        ∃ id s last, call.Changes id s.owner last ∧ Ledger.fetch ledger id = .ok (some s) ∧
          call.script.step ledger = (last.map fun _ => .done, ledger) := by
    intro id caller last h
    unfold EndsWith
    rw [h.script_eq, Script.step]
    cases hfetch : Ledger.fetch ledger id with
    | error fault => exact .inl ⟨_, _, rfl, .nothing ledger⟩
    | ok found? =>
      dsimp only
      cases hcheck : checkCaller found? id caller with
      | error fault => exact .inl ⟨_, _, rfl, .nothing ledger⟩
      | ok u =>
        obtain ⟨s, rfl, rfl⟩ := checkCaller_eq_ok_iff.mp hcheck
        exact .inr ⟨id, s, last, h, hfetch, rfl⟩
  cases call with
  | subscribe s owner values now => exact .inl (step_create _ _ _ _ _ _ _)
  | subscribeBundle lib bundle owner values now => exact .inl (step_subscribeBundle _ _ _ _ _ _ _)
  | activate id caller => exact hchanges (.activate id caller)
  | deactivate id caller => exact hchanges (.deactivate id caller)
  | revoke id caller => exact hchanges (.revoke id caller)
  | load id =>
    rw [script_load]
    exact .inl (step_fetch _ _ _ _)
  | resolve id name =>
    rw [script_resolve]
    exact .inl (step_fetch _ _ _ _)

/-- A change behind the owner's check, on a ledger where it finds what it changes. -/
theorem run_owned_eq_settle {id : Nat} {caller : Address} {last : Script Unit}
    {change : OnLedger σ Unit} {ledger : σ}
    (h : ∀ s, Ledger.fetch ledger id = .ok (some s) →
      last.run ledger = settle ledger (change ledger)) :
    ((Script.checkOwner id caller).andThen fun _ => last).run ledger =
      settle ledger ((Manager.checkOwner id caller >>= fun _ => change) ledger) := by
  have hbind : (Manager.checkOwner id caller >>= fun _ => change) ledger =
      (Manager.checkOwner id caller ledger >>= fun p => change p.2) := rfl
  rw [Script.run_andThen, Script.follows_checkOwner id caller ledger, hbind]
  cases hcheck : (Manager.checkOwner id caller : OnLedger σ Unit) ledger with
  | error fault => rfl
  | ok p =>
    obtain ⟨s, hfetch, -, hsame⟩ := Manager.checkOwner_eq_ok_iff.mp hcheck
    show last.run p.2 = settle ledger (change p.2)
    rw [hsame]
    exact h s hfetch

theorem run_switch_eq_settle (hlawful : Ledger.Lawful sound issued) {ledger : σ}
    (hsound : sound ledger) (id : Nat) (caller : Address) (enabled : Bool) :
    (Script.switch id caller enabled).run ledger =
      settle ledger (Manager.setEnabled id caller enabled ledger) := by
  refine run_owned_eq_settle fun s hfetch => ?_
  obtain ⟨next, hstep, -⟩ := hlawful.setEnabled_found enabled hsound hfetch
  have hchange : (do
      let changed ← OnLedger.setEnabled id enabled
      if changed then pure () else throw (.unknownSubscription id) : OnLedger σ Unit) ledger =
      Ledger.setEnabled ledger id enabled >>= fun p =>
        (if p.1 then pure () else throw (.unknownSubscription id) : OnLedger σ Unit) p.2 := rfl
  rw [hchange, Script.run, hstep]
  rfl

theorem run_revoke_eq_settle (hlawful : Ledger.Lawful sound issued) {ledger : σ}
    (hsound : sound ledger) (id : Nat) (caller : Address) :
    (Script.revoke id caller).run ledger = settle ledger (Manager.revoke id caller ledger) := by
  refine run_owned_eq_settle fun s hfetch => ?_
  obtain ⟨next, hstep, -⟩ := hlawful.remove_found hsound hfetch
  have hchange : (do
      let removed ← OnLedger.remove id
      if removed then pure () else throw (.unknownSubscription id) : OnLedger σ Unit) ledger =
      Ledger.remove ledger id >>= fun p =>
        (if p.1 then pure () else throw (.unknownSubscription id) : OnLedger σ Unit) p.2 := rfl
  rw [hchange, Script.run, hstep]
  rfl

/-- Run without interruption, the script of a call ends as the manager's computation does. -/
theorem Call.run_script_of_lawful (hlawful : Ledger.Lawful sound issued) {ledger : σ}
    (hsound : sound ledger) (call : Call) :
    call.script.run ledger = settle ledger (call.perform ledger) := by
  cases call with
  | subscribe s owner values now => exact (Script.follows_create _ _ _ _ _).map _ ledger
  | subscribeBundle lib bundle owner values now =>
    exact (Script.follows_subscribeBundle _ _ _ _ _).map _ ledger
  | activate id caller =>
    exact Script.run_map_eq_settle (run_switch_eq_settle hlawful hsound id caller true) _
  | deactivate id caller =>
    exact Script.run_map_eq_settle (run_switch_eq_settle hlawful hsound id caller false) _
  | revoke id caller =>
    exact Script.run_map_eq_settle (run_revoke_eq_settle hlawful hsound id caller) _
  | load id => exact (Script.follows_load id).map _ ledger
  | resolve id name => exact (Script.follows_resolve id name).map _ ledger

/-- A whole call has one of its effects. -/
theorem Call.effect_perform (hlawful : Ledger.Lawful sound issued) {ledger : σ}
    (hsound : sound ledger) (call : Call) :
    call.Effect ledger (settle ledger (call.perform ledger)).2 := by
  rw [← call.run_script_of_lawful hlawful hsound]
  rcases call.step_script ledger with
    ⟨outcome, next, hstep, heffect⟩ | ⟨id, s, last, hchanges, hfetch, hstep⟩
  · rw [Script.run_eq_of_step hstep]
    exact heffect
  · obtain ⟨next, hlast, -⟩ := hchanges.last_found hlawful hsound hfetch
    rw [← Script.run_step, hstep, Script.run_eq_of_step hlast]
    exact .change hchanges hfetch hlast

end Effects

end Autopilot
