/-
  The life cycle of subscriptions in a process that starts with an empty ledger.

  A session is what was called, how it ended, and the ledger behind it. Since the ledger holds
  what the events say (`told_run`), the events alone tell how every further call ends
  (`lifeCycle`), whoever calls and with whatever handles. Handles have 64 bits, so there are
  `bitBound 64 - 1` of them, and a subscription is refused when they are all given out.
-/
import Autopilot.Proofs.Strategy.Built
import Autopilot.Proofs.Subscription.Events

namespace Autopilot

/-! ## Resolving -/

/-- A name resolves exactly if it stands for the owner or for a stored value. -/
theorem Subscription.exists_resolve_iff (s : Subscription) (name : String) :
    (∃ value, s.resolve name = .ok value) ↔
      (name = proxySlot ∨ name ∈ s.values.map (·.1)) := by
  unfold Subscription.resolve Subscription.value?
  by_cases hproxy : name = proxySlot
  · simp [hproxy]
  · rw [if_neg hproxy]
    cases hfind : s.values.find? (·.1 = name) with
    | none =>
      have habsent : name ∉ s.values.map (·.1) := by
        intro hmem
        obtain ⟨p, hp, hname⟩ := List.mem_map.mp hmem
        exact List.find?_eq_none.mp hfind p hp (decide_eq_true hname)
      simp only [hproxy, habsent, or_self, iff_false]
      intro hvalue
      obtain ⟨value, hvalue⟩ := hvalue
      cases hvalue
    | some p =>
      have hname : p.1 = name := by simpa using List.find?_some hfind
      have hmem : name ∈ s.values.map (·.1) :=
        List.mem_map.mpr ⟨p, List.mem_of_find?_eq_some hfind, hname⟩
      simp [hmem]

/-! ## Sessions -/

/-- The calls that were made, with their outcomes, and the ledger behind them. -/
structure Session where
  events : List Event
  ledger : MemoryLedger

namespace Session

/-- No call was made. -/
def start : Session := ⟨[], .empty⟩

/-- How a call ends. -/
def outcome (s : Session) (call : Call) : Except Fault Reply :=
  (settle s.ledger (call.perform s.ledger)).1

/-- A call is made; the ledger stays as it is if the call fails. -/
def perform (s : Session) (call : Call) : Session :=
  ⟨s.events ++ [⟨call, s.outcome call⟩], (settle s.ledger (call.perform s.ledger)).2⟩

/-- Calls are made one after the other. -/
def run (s : Session) (calls : List Call) : Session :=
  calls.foldl perform s

theorem outcome_eq_answer (s : Session) (call : Call) :
    s.outcome call = call.answer s.ledger := by
  unfold outcome
  rw [settle_perform]

theorem told_perform {s : Session} (h : Told s.events s.ledger) (call : Call) :
    Told (s.perform call).events (s.perform call).ledger := by
  have hnext := h.perform call
  unfold perform
  rw [s.outcome_eq_answer, settle_perform]
  exact hnext

theorem told_run {s : Session} (h : Told s.events s.ledger) (calls : List Call) :
    Told (s.run calls).events (s.run calls).ledger := by
  induction calls generalizing s with
  | nil => exact h
  | cons call calls ih => exact ih (told_perform h call)

theorem exists_events_run (s : Session) (calls : List Call) :
    ∃ more, (s.run calls).events = s.events ++ more := by
  induction calls generalizing s with
  | nil => exact ⟨[], (List.append_nil _).symm⟩
  | cons call calls ih =>
    obtain ⟨more, hmore⟩ := ih (s.perform call)
    refine ⟨⟨call, s.outcome call⟩ :: more, ?_⟩
    show ((s.perform call).run calls).events = _
    rw [hmore]
    exact List.append_assoc s.events [_] more

end Session

/-! ## The life cycle -/

/-- A subscription has returned the handle. -/
def Issued (events : List Event) (id : Nat) : Prop :=
  .handle id ∈ grants events

/-- The handle was issued and not revoked. -/
def Live (events : List Event) (id : Nat) : Prop :=
  Issued events id ∧ isRevoked events id = false

/-- The call would load this subscription. -/
def Session.Loads (s : Session) (id : Nat) (found : Subscription) : Prop :=
  s.outcome (.load id) = .ok (.subscription found)

/-- What holds of subscriptions at any time. -/
structure LifeCycle (s : Session) : Prop where
  /-- The subscriptions that succeeded have returned the handles one, two, three and so on. -/
  handles : grants s.events = (List.range' 1 (grants s.events).length).map .handle
  /-- They have 64 bits, and one is missing to a subscription only when all were returned. -/
  room : (grants s.events).length < bitBound 64 ∧ ∀ call,
    s.outcome call = .error (.queryFailed .overflow) →
      (grants s.events).length + 1 = bitBound 64
  /-- A handle loads exactly if it was issued and is not revoked. -/
  loads : ∀ id, (∃ found, s.Loads id found) ↔ Live s.events id
  unknown : ∀ id, ¬ Live s.events id →
    s.outcome (.load id) = .error (.unknownSubscription id)
  /-- A handle that is revoked stays unknown, whatever is called. -/
  revoked : ∀ id calls, isRevoked s.events id = true →
    (s.run calls).outcome (.load id) = .error (.unknownSubscription id)
  /-- The content is what was granted under the handle, whatever is called. -/
  content : ∀ id found, s.Loads id found →
    found.id = id ∧ ∃ new, grantedAs? s.events id = some new ∧ found.Keeps new
  unchanged : ∀ id found calls later, s.Loads id found → (s.run calls).Loads id later →
    later.target = found.target ∧ later.owner = found.owner ∧ later.values = found.values
  /-- A subscription is as it was switched last, and on if it never was. -/
  enabled : ∀ id found, s.Loads id found → found.enabled = (lastSwitch? s.events id).getD true
  /-- Only the owner of a live handle may switch or revoke it. -/
  owned : ∀ id caller, ∀ call ∈ [Call.activate id caller, .deactivate id caller, .revoke id caller],
    (s.outcome call = .ok .done ↔ ∃ found, s.Loads id found ∧ found.owner = caller) ∧
      (∀ found, s.Loads id found → found.owner ≠ caller →
        s.outcome call = .error (.notSubscriptionOwner id)) ∧
      (¬ Live s.events id → s.outcome call = .error (.unknownSubscription id))
  /-- A name resolves exactly if the handle is live and on and the name stands for the owner or
      for a stored value. -/
  resolves : ∀ id name, (∃ value, s.outcome (.resolve id name) = .ok (.value value)) ↔
    ∃ found, s.Loads id found ∧ found.enabled = true ∧
      (name = proxySlot ∨ name ∈ found.values.map (·.1))
  /-- The steps of a call in place end with the call's outcome and ledger. -/
  inPlace : ∀ call, call.script.run s.ledger = (s.outcome call, (s.perform call).ledger)
  /-- A call that fails has changed nothing. -/
  undone : ∀ call fault, s.outcome call = .error fault →
    call.script.run s.ledger = (.error fault, s.ledger)

theorem loads_iff {s : Session} {id : Nat} {found : Subscription} :
    s.Loads id found ↔ s.ledger.find? id = some found := by
  unfold Session.Loads
  rw [s.outcome_eq_answer]
  unfold Call.answer known
  dsimp only
  cases s.ledger.find? id with
  | none => simp [Except.map]
  | some other => simp [Except.map]

theorem record?_eq_some_iff {events : List Event} {id : Nat} {s : Subscription} :
    record? events id = some s ↔ isRevoked events id = false ∧ ∃ new,
      grantedAs? events id = some new ∧
        s = ⟨id, new.target, new.owner, new.values, (lastSwitch? events id).getD true,
          new.createdAt⟩ := by
  unfold record?
  cases isRevoked events id with
  | true => simp
  | false =>
    rw [if_neg Bool.false_ne_true, Option.map_eq_some_iff]
    simp [eq_comm]

/-- More events leave what was granted under a handle. -/
theorem grantedAs?_append {events : List Event} {id : Nat} {new : NewSubscription}
    (h : grantedAs? events id = some new) (more : List Event) :
    grantedAs? (events ++ more) id = some new := by
  cases id with
  | zero => cases h
  | succ n =>
    have hlt : n < (granted events).length := (List.getElem?_eq_some_iff.mp h).1
    have happend : granted (events ++ more) = granted events ++ granted more :=
      List.filterMap_append
    unfold grantedAs?
    dsimp only
    rw [happend, List.getElem?_append_left hlt]
    exact h

theorem isRevoked_append {events : List Event} {id : Nat} (h : isRevoked events id = true)
    (more : List Event) : isRevoked (events ++ more) id = true := by
  unfold isRevoked at h ⊢
  rw [List.any_append, h, Bool.true_or]

theorem Told.issued_iff {events : List Event} {m : MemoryLedger} (h : Told events m) {id : Nat} :
    Issued events id ↔ ∃ new, grantedAs? events id = some new := by
  unfold Issued
  rw [h.handles, List.mem_map]
  constructor
  · intro hmem
    obtain ⟨id', hrange, hsame⟩ := hmem
    obtain ⟨hpos, hlt⟩ := List.mem_range'_1.mp hrange
    cases hsame
    obtain ⟨n, rfl⟩ := Nat.exists_eq_add_of_le' hpos
    exact ⟨_, List.getElem?_eq_getElem (by omega)⟩
  · intro hgranted
    obtain ⟨new, hnew⟩ := hgranted
    cases id with
    | zero => cases hnew
    | succ n =>
      have hlt : n < (granted events).length := (List.getElem?_eq_some_iff.mp hnew).1
      exact ⟨n + 1, List.mem_range'_1.mpr ⟨by omega, by omega⟩, rfl⟩

namespace Session

variable {s : Session} (h : Told s.events s.ledger)

include h

theorem length_grants : (grants s.events).length = s.ledger.lastId.toNat := by
  rw [h.handles, List.length_map, List.length_range', h.lastId]

/-- A call is refused for want of a handle only when all of them were returned. -/
theorem length_grants_of_overflow {call : Call}
    (hcall : s.outcome call = .error (.queryFailed .overflow)) :
    (grants s.events).length + 1 = bitBound 64 := by
  have hroom : ¬ s.ledger.HasRoom := by
    intro hroom
    rw [outcome_eq_answer] at hcall
    exact answer_ne_overflow hroom call hcall
  have hlt : s.ledger.lastId.toNat < bitBound 64 := s.ledger.lastId.toNat_lt
  unfold MemoryLedger.HasRoom at hroom
  rw [length_grants h]
  omega

theorem loads_iff_record? {id : Nat} {found : Subscription} :
    s.Loads id found ↔ record? s.events id = some found := by
  rw [loads_iff, h.found]

theorem exists_loads_iff (id : Nat) : (∃ found, s.Loads id found) ↔ Live s.events id := by
  unfold Live
  rw [h.issued_iff]
  simp only [loads_iff_record? h, record?_eq_some_iff]
  constructor
  · intro hfound
    obtain ⟨found, hrevoked, new, hnew, -⟩ := hfound
    exact ⟨⟨new, hnew⟩, hrevoked⟩
  · intro hlive
    obtain ⟨⟨new, hnew⟩, hrevoked⟩ := hlive
    exact ⟨_, hrevoked, new, hnew, rfl⟩

theorem find?_of_not_live {id : Nat} (hlive : ¬ Live s.events id) : s.ledger.find? id = none := by
  rw [← exists_loads_iff h] at hlive
  cases hfind : s.ledger.find? id with
  | none => rfl
  | some found => exact absurd ⟨found, loads_iff.mpr hfind⟩ hlive

theorem outcome_load_of_not_live {id : Nat} (hlive : ¬ Live s.events id) :
    s.outcome (.load id) = .error (.unknownSubscription id) := by
  rw [outcome_eq_answer]
  unfold Call.answer
  dsimp only
  rw [find?_of_not_live h hlive]
  rfl

theorem outcome_load_of_revoked {id : Nat} (hrevoked : isRevoked s.events id = true)
    (calls : List Call) : (s.run calls).outcome (.load id) = .error (.unknownSubscription id) := by
  obtain ⟨more, hmore⟩ := s.exists_events_run calls
  refine outcome_load_of_not_live (told_run h calls) fun hlive => ?_
  have hstill := isRevoked_append hrevoked more
  rw [← hmore, hlive.2] at hstill
  cases hstill

theorem loads_content {id : Nat} {found : Subscription} (hloads : s.Loads id found) :
    found.id = id ∧ found.enabled = (lastSwitch? s.events id).getD true ∧
      ∃ new, grantedAs? s.events id = some new ∧ found.Keeps new := by
  obtain ⟨-, new, hnew, rfl⟩ := record?_eq_some_iff.mp ((loads_iff_record? h).mp hloads)
  exact ⟨rfl, rfl, new, hnew, ⟨rfl, rfl, rfl, rfl⟩⟩

theorem loads_unchanged {id : Nat} {found later : Subscription} {calls : List Call}
    (hfound : s.Loads id found) (hlater : (s.run calls).Loads id later) :
    later.target = found.target ∧ later.owner = found.owner ∧ later.values = found.values := by
  obtain ⟨-, -, new, hnew, hkeeps⟩ := loads_content h hfound
  obtain ⟨-, -, new', hnew', hkeeps'⟩ := loads_content (told_run h calls) hlater
  obtain ⟨more, hmore⟩ := s.exists_events_run calls
  have hsame := grantedAs?_append hnew more
  rw [← hmore, hnew'] at hsame
  cases hsame
  exact ⟨hkeeps'.target.trans hkeeps.target.symm, hkeeps'.owner.trans hkeeps.owner.symm,
    hkeeps'.values.trans hkeeps.values.symm⟩

omit h in
/-- A change that only the owner may ask for is answered from what is found. -/
theorem outcome_owned {id : Nat} {caller : Address} {call : Call}
    (hcall : call ∈ [Call.activate id caller, .deactivate id caller, .revoke id caller]) :
    s.outcome call = (checkCaller (s.ledger.find? id) id caller).map fun _ => .done := by
  rw [outcome_eq_answer]
  simp only [List.mem_cons, List.not_mem_nil, or_false] at hcall
  obtain rfl | rfl | rfl := hcall
  · rfl
  · rfl
  · rfl

omit h in
theorem outcome_of_loads {id : Nat} {found : Subscription} (hloads : s.Loads id found)
    {caller : Address} {call : Call}
    (hcall : call ∈ [Call.activate id caller, .deactivate id caller, .revoke id caller]) :
    s.outcome call =
      if found.owner = caller then .ok .done else .error (.notSubscriptionOwner id) := by
  rw [outcome_owned hcall, loads_iff.mp hloads]
  unfold checkCaller
  dsimp only
  by_cases howner : found.owner = caller
  · rw [if_pos howner, if_pos howner]
    rfl
  · rw [if_neg howner, if_neg howner]
    rfl

theorem outcome_of_not_live {id : Nat} (hlive : ¬ Live s.events id) {caller : Address}
    {call : Call}
    (hcall : call ∈ [Call.activate id caller, .deactivate id caller, .revoke id caller]) :
    s.outcome call = .error (.unknownSubscription id) := by
  rw [outcome_owned hcall, find?_of_not_live h hlive]
  rfl

theorem outcome_owned_iff {id : Nat} {caller : Address} {call : Call}
    (hcall : call ∈ [Call.activate id caller, .deactivate id caller, .revoke id caller]) :
    s.outcome call = .ok .done ↔ ∃ found, s.Loads id found ∧ found.owner = caller := by
  constructor
  · intro hok
    have hlive : Live s.events id := by
      refine Classical.byContradiction fun hlive => ?_
      rw [outcome_of_not_live h hlive hcall] at hok
      cases hok
    obtain ⟨found, hloads⟩ := (exists_loads_iff h id).mpr hlive
    refine ⟨found, hloads, Classical.byContradiction fun howner => ?_⟩
    rw [outcome_of_loads hloads hcall, if_neg howner] at hok
    cases hok
  · intro hfound
    obtain ⟨found, hloads, howner⟩ := hfound
    rw [outcome_of_loads hloads hcall, if_pos howner]

omit h in
theorem outcome_resolve_iff {id : Nat} {name : String} :
    (∃ value, s.outcome (.resolve id name) = .ok (.value value)) ↔
      ∃ found, s.Loads id found ∧ found.enabled = true ∧
        (name = proxySlot ∨ name ∈ found.values.map (·.1)) := by
  have hanswer : s.outcome (.resolve id name) =
      (valueIn (s.ledger.find? id) id name).map .value := s.outcome_eq_answer _
  simp only [loads_iff, hanswer, map_eq_ok, Reply.value.injEq, exists_eq_right]
  unfold valueIn
  cases s.ledger.find? id with
  | none => simp
  | some found =>
    have hresolve := found.exists_resolve_iff name
    by_cases henabled : found.enabled = true
    · simp only [henabled, if_true, Option.some.injEq, exists_eq_left', hresolve, true_and]
    · simp [henabled]

end Session

/-- **Life cycle.** Whatever was called on an empty ledger, by whomever and with whatever handles:
    a handle stands for one content from its grant to its revocation, its owner alone switches
    and revokes it, and calls that fail leave no trace. -/
theorem lifeCycle (calls : List Call) : LifeCycle (Session.start.run calls) := by
  have htold : Told (Session.start.run calls).events (Session.start.run calls).ledger :=
    Session.told_run told_empty calls
  have hlength := congrArg List.length htold.handles
  rw [List.length_map, List.length_range'] at hlength
  refine ⟨?_, ⟨?_, ?_⟩, ?_, ?_, ?_, ?_, ?_, ?_, ?_, ?_, ?_, ?_⟩
  · rw [hlength]
    exact htold.handles
  · rw [Session.length_grants htold]
    exact UInt64.toNat_lt _
  · intro call hcall
    exact Session.length_grants_of_overflow htold hcall
  · exact Session.exists_loads_iff htold
  · intro id hlive
    exact Session.outcome_load_of_not_live htold hlive
  · intro id more hrevoked
    exact Session.outcome_load_of_revoked htold hrevoked more
  · intro id found hloads
    obtain ⟨hid, -, hcontent⟩ := Session.loads_content htold hloads
    exact ⟨hid, hcontent⟩
  · intro id found more later hloads hlater
    exact Session.loads_unchanged htold hloads hlater
  · intro id found hloads
    exact (Session.loads_content htold hloads).2.1
  · intro id caller call hcall
    refine ⟨Session.outcome_owned_iff htold hcall, ?_, ?_⟩
    · intro found hloads howner
      rw [Session.outcome_of_loads hloads hcall, if_neg howner]
    · intro hlive
      exact Session.outcome_of_not_live htold hlive hcall
  · intro id name
    exact Session.outcome_resolve_iff
  · intro call
    exact Call.run_script MemoryLedger.refusesInPlace call _
  · intro call fault hfault
    have hsettle := Call.run_script MemoryLedger.refusesInPlace call
      (Session.start.run calls).ledger
    rw [hsettle]
    exact settle_of_error hfault

/-- Somebody subscribes to `draw` with a value for its vault, and another one tries to revoke the
    subscription. -/
def vaultSession : Session :=
  Session.start.run [.subscribe draw 5 (NameMap.ofList [("vault", .uint 9 256)]) .epoch,
    .revoke 1 6, .deactivate 1 5, .activate 1 5]

/-- The handle is the first one, the value is kept under it, and the other one was refused. -/
theorem vaultSession_outcomes :
    vaultSession.events.map (·.outcome) =
        [.ok (.handle 1), .error (.notSubscriptionOwner 1), .ok .done, .ok .done] ∧
      vaultSession.Loads 1
        ⟨1, .strategy draw.id, 5, [("vault", .uint 9 256)], true, .epoch⟩ ∧
      vaultSession.outcome (.resolve 1 "vault") = .ok (.value (.uint 9 256)) :=
  ⟨rfl, rfl, rfl⟩

end Autopilot
