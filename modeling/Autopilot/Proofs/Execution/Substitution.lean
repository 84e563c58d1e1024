/-
  What a substitution returns, and when it fails.

  For a built strategy and a subscription that stores the values of its table, only the
  variables can be at fault: constants and sub-slots have the types of their parameters, and
  pipes are left as they are. So a substitution ends with the fault of the first variable, in
  the order of triggers and then actions and from left to right, whose value is missing or of
  another type (`concludes_resolve`), and it succeeds exactly if the keeper supplies what
  `variableTypes` lists (`variableFault?_eq_none_iff`).
-/
import Autopilot.Proofs.Execution.CallData

namespace Autopilot

/-! ## Variables -/

/-- What is wrong with the value of an argument that is a variable: there is none, or it is not of
    the parameter's type. -/
def variableFault? (inputs : NameMap AbiValue) (operation : String) :
    Binding × Parameter → Option Fault
  | (.placeholder name, param) =>
    match inputs.find? name with
    | none => some (.missingVariableValue operation name)
    | some value =>
      if value.slotType = param.type then none
      else some (.typeMismatch ("%" ++ name) param.type value.slotType)
  | _ => none

/-- The fault of the first variable of an operation that is at fault, from left to right. -/
def Operation.variableFault? (inputs : NameMap AbiValue) (op : Operation) : Option Fault :=
  op.arguments.findSome? (Autopilot.variableFault? inputs op.name)

/-- The fault of the first variable of a strategy that is at fault, triggers before actions. -/
def Strategy.variableFault? (s : Strategy) (inputs : NameMap AbiValue) : Option Fault :=
  s.operations.findSome? (Operation.variableFault? inputs)

/-- Every variable is supplied with a value of its type. -/
def Supplies (inputs : NameMap AbiValue) (types : NameMap SlotType) : Prop :=
  ∀ name type, types.find? name = some type →
    ∃ value, inputs.find? name = some value ∧ value.slotType = type

theorem variableFault?_placeholder_eq_none_iff {inputs : NameMap AbiValue}
    {operation name : String} {param : Parameter} :
    variableFault? inputs operation (.placeholder name, param) = none ↔
      ∃ value, inputs.find? name = some value ∧ value.slotType = param.type := by
  unfold variableFault?
  cases hfind : inputs.find? name with
  | none => simp [hfind]
  | some value => simp [hfind]

/-- No variable is at fault exactly if all of them are supplied. -/
theorem variableFault?_eq_none_iff {s : Strategy} (h : s.Built) {inputs : NameMap AbiValue} :
    s.variableFault? inputs = none ↔ Supplies inputs s.variableTypes := by
  unfold Strategy.variableFault? Operation.variableFault? Supplies
  simp only [List.findSome?_eq_none_iff, h.variableTypes_eq_some_iff]
  constructor
  · intro hnone name type huse
    obtain ⟨op, hop, param, harg, htype⟩ := huse
    have hvalue := variableFault?_placeholder_eq_none_iff.mp (hnone op hop _ harg)
    rwa [htype] at hvalue
  · intro hsupplied op hop arg harg
    obtain ⟨binding, param⟩ := arg
    cases binding with
    | placeholder name =>
      have hvalue := hsupplied name param.type ⟨op, hop, param, harg, rfl⟩
      exact variableFault?_placeholder_eq_none_iff.mpr hvalue
    | const value => rfl
    | subSlot name => rfl
    | piped index => rfl

/-- The value of a variable of the strategy is missing, or not of the parameter's type. -/
inductive VariableFault (s : Strategy) (inputs : NameMap AbiValue) : Fault → Prop where
  | missing {op : Operation} {name : String} {param : Parameter} : op ∈ s.operations →
    (Binding.placeholder name, param) ∈ op.arguments → inputs.find? name = none →
      VariableFault s inputs (.missingVariableValue op.name name)
  | mistyped {op : Operation} {name : String} {param : Parameter} {value : AbiValue} :
    op ∈ s.operations → (Binding.placeholder name, param) ∈ op.arguments →
      inputs.find? name = some value → value.slotType ≠ param.type →
        VariableFault s inputs (.typeMismatch ("%" ++ name) param.type value.slotType)

theorem variableFault_of_eq_some {s : Strategy} {inputs : NameMap AbiValue} {fault : Fault}
    (h : s.variableFault? inputs = some fault) : VariableFault s inputs fault := by
  obtain ⟨op, hop, h⟩ := List.exists_of_findSome?_eq_some h
  obtain ⟨⟨binding, param⟩, harg, h⟩ := List.exists_of_findSome?_eq_some h
  unfold Autopilot.variableFault? at h
  cases binding with
  | placeholder name =>
    dsimp only at h
    cases hfind : inputs.find? name with
    | none =>
      rw [hfind] at h
      cases h
      exact .missing hop harg hfind
    | some value =>
      rw [hfind] at h
      dsimp only at h
      by_cases htype : value.slotType = param.type
      · rw [if_pos htype] at h
        cases h
      · rw [if_neg htype] at h
        cases h
        exact .mistyped hop harg hfind htype
  | const value => cases h
  | subSlot name => cases h
  | piped index => cases h

/-! ## Results -/

/-- What an argument becomes: the constant, the owner, the value that was given for the sub-slot or
    the one that is supplied for the variable, each of the parameter's type. A pipe stays. -/
inductive Fills (owner : Address) (values inputs : NameMap AbiValue) :
    Binding × Parameter → ResolvedParam → Prop where
  | const {value : AbiValue} {param : Parameter} : value.slotType = param.type →
    Fills owner values inputs (.const value, param) (.value value)
  | proxy {param : Parameter} : param.type = .address →
    Fills owner values inputs (.subSlot proxySlot, param) (.value (.address owner))
  | slot {name : String} {value : AbiValue} {param : Parameter} : name ≠ proxySlot →
    values.find? name = some value → value.slotType = param.type →
      Fills owner values inputs (.subSlot name, param) (.value value)
  | variable {name : String} {value : AbiValue} {param : Parameter} :
    inputs.find? name = some value → value.slotType = param.type →
      Fills owner values inputs (.placeholder name, param) (.value value)
  | piped {index : Nat} {param : Parameter} :
    Fills owner values inputs (.piped index, param) (.piped index)

/-- The operation keeps its signature and has one resolved parameter for each argument, in
    order. -/
structure Filled (owner : Address) (values inputs : NameMap AbiValue) (op : Operation)
    (resolved : ResolvedOperation) : Prop where
  signature : resolved.signature = op.signature
  bindings : op.bindings.length = op.signature.arity
  params : resolved.params.length = op.signature.arity
  arguments : List.Forall₂ (Fills owner values inputs) op.arguments resolved.params

/-- The strategy is resolved operation by operation, for the subscription with a number. -/
structure Resolved (s : Strategy) (id : Nat) (owner : Address) (values inputs : NameMap AbiValue)
    (resolved : ResolvedStrategy) : Prop where
  strategy : resolved.strategy = s.id
  subscription : resolved.subscription = id
  triggers : List.Forall₂ (Filled owner values inputs) s.triggers resolved.triggers
  actions : List.Forall₂ (Filled owner values inputs) s.actions resolved.actions

/-! ## Resolving -/

/-- A slot of the table is resolved to the value that was given for it. -/
theorem resolve_stored {slots : List SubSlot} {values : NameMap AbiValue} {stored : Subscription}
    (h : List.Forall₂ (StoredFor values) slots stored.values) {slot : SubSlot}
    (hslot : slot ∈ slots) (hproxy : slot.name ≠ proxySlot) :
    ∃ value, stored.resolve slot.name = .ok value ∧ values.find? slot.name = some value ∧
      value.slotType = slot.type := by
  obtain ⟨i, hi, rfl⟩ := List.mem_iff_getElem.mp hslot
  have hi' : i < stored.values.length := h.length_eq ▸ hi
  have hplace : StoredFor values slots[i] stored.values[i] := h.get hi hi'
  -- an earlier slot of the same name would store the same value
  have hsame : ∀ p ∈ stored.values, p.1 = slots[i].name → p.2 = stored.values[i].2 := by
    intro p hp hname
    obtain ⟨j, hj, rfl⟩ := List.mem_iff_getElem.mp hp
    have hj' : j < slots.length := h.length_eq ▸ hj
    have hother : StoredFor values slots[j] stored.values[j] := h.get hj' hj
    have hgiven := hother.given
    rw [← hother.name, hname, hplace.given] at hgiven
    exact (Option.some.inj hgiven).symm
  refine ⟨stored.values[i].2, ?_, hplace.given, hplace.type⟩
  unfold Subscription.resolve Subscription.value?
  rw [if_neg hproxy]
  cases hfind : stored.values.find? (·.1 = slots[i].name) with
  | none =>
    have hnone := List.find?_eq_none.mp hfind _ (List.getElem_mem hi')
    simp [hplace.name] at hnone
  | some p =>
    have hname : p.1 = slots[i].name := by simpa using List.find?_some hfind
    rw [← hsame p (List.mem_of_find?_eq_some hfind) hname]
    rfl

section Resolving

variable {s : Strategy} (h : s.Built) {values : NameMap AbiValue} {stored : Subscription}
  (hstored : List.Forall₂ (StoredFor values) s.subSlots stored.values) (inputs : NameMap AbiValue)
  {kind : OperationKind} {op : Operation}

include h hstored

/-- A sub-slot that is bound is resolved to a value of the parameter's type. -/
theorem slot_resolved (hop : op ∈ s.ofKind kind) {name : String} {param : Parameter}
    (harg : (Binding.subSlot name, param) ∈ op.arguments) :
    ∃ value, stored.resolve name = .ok value ∧ value.slotType = param.type ∧
      Fills stored.owner values inputs (.subSlot name, param) (.value value) := by
  rcases h.slot_typed hop harg with ⟨hproxy, haddress⟩ | ⟨slot, hslot, hname, htype⟩
  · rw [hproxy]
    exact ⟨.address stored.owner, rfl, haddress.symm, .proxy haddress⟩
  · have hne := h.slot_ne_proxy hslot
    obtain ⟨value, hvalue, hgiven, hslotType⟩ := resolve_stored hstored hslot hne
    rw [htype] at hslotType
    rw [hname] at hne hvalue hgiven
    exact ⟨value, hvalue, hslotType, .slot hne hgiven hslotType⟩

/-- An argument becomes what it should, or is a variable at fault. -/
theorem concludes_argument (hop : op ∈ s.ofKind kind) {arg : Binding × Parameter}
    (harg : arg ∈ op.arguments) :
    Concludes (arg.1.resolve op.name stored inputs arg.2.type)
      (variableFault? inputs op.name arg) (Fills stored.owner values inputs arg) := by
  obtain ⟨binding, param⟩ := arg
  cases binding with
  | const value => exact ⟨_, rfl, .const (h.const_typed hop harg)⟩
  | piped index => exact ⟨_, rfl, .piped⟩
  | placeholder name =>
    unfold variableFault? Binding.resolve
    dsimp only
    cases hfind : inputs.find? name with
    | none => rfl
    | some value =>
      dsimp only
      unfold checkType
      by_cases htype : value.slotType = param.type
      · rw [if_pos htype, if_pos htype]
        exact ⟨_, rfl, .variable hfind htype⟩
      · rw [if_neg htype, if_neg htype]
        rfl
  | subSlot name =>
    obtain ⟨value, hvalue, htype, hfills⟩ := slot_resolved h hstored inputs hop harg
    refine ⟨.value value, ?_, hfills⟩
    unfold Binding.resolve
    dsimp only
    rw [hvalue]
    show (checkType name param.type value >>= fun _ => _) = _
    unfold checkType
    rw [if_pos htype]
    rfl

theorem concludes_operation (hop : op ∈ s.ofKind kind) :
    Concludes (op.resolve stored inputs) (op.variableFault? inputs)
      (Filled stored.owner values inputs op) := by
  have hbindings := h.length_bindings hop
  have hargs : op.arguments.length = op.signature.arity := by
    unfold Operation.arguments
    rw [List.length_zip, hbindings]
    exact Nat.min_self _
  have hparams := concludes_mapM fun arg (harg : arg ∈ op.arguments) =>
    concludes_argument h hstored inputs hop harg
  exact hparams.map fun params hfills =>
    ⟨rfl, hbindings, hfills.length_eq.symm.trans hargs, hfills⟩

theorem concludes_resolve :
    Concludes (s.resolve stored inputs) (s.variableFault? inputs)
      (Resolved s stored.id stored.owner values inputs) := by
  have htriggers := concludes_mapM fun op (hop : op ∈ s.ofKind .trigger) =>
    concludes_operation h hstored inputs hop
  have hactions := concludes_mapM fun op (hop : op ∈ s.ofKind .action) =>
    concludes_operation h hstored inputs hop
  unfold Strategy.resolve Strategy.variableFault? Strategy.operations
  rw [List.findSome?_append]
  refine htriggers.bind fun triggers ht => ?_
  exact hactions.map fun actions ha => ⟨rfl, rfl, ht, ha⟩

end Resolving

/-! ## Substitution -/

/-- For an active subscription, a substitution only compares the targets and resolves. -/
theorem substitute_of_loadActive {σ : Type} [Ledger σ] {ledger : σ} {id : Nat}
    {stored : Subscription} (hactive : Manager.loadActive id ledger = .ok (stored, ledger))
    (s : Strategy) (target : Target) (inputs : NameMap AbiValue) :
    substitute s target id inputs ledger =
      if stored.target = target then
        (s.resolve stored inputs).map fun found => ({ found with subscription := id }, ledger)
      else .error (.subscriptionMismatch id target.text) := by
  have hbind : substitute s target id inputs ledger =
      (Manager.loadActive id ledger >>= fun p => (if p.1.target = target then do
        let resolved ← s.resolve p.1 inputs
        pure { resolved with subscription := id }
      else throw (.subscriptionMismatch id target.text) : OnLedger σ ResolvedStrategy) p.2) := rfl
  rw [hbind, hactive]
  show (if stored.target = target then _ else _ : OnLedger σ ResolvedStrategy) ledger = _
  by_cases htarget : stored.target = target
  · rw [if_pos htarget, if_pos htarget]
    cases s.resolve stored inputs with
    | ok found => rfl
    | error fault => rfl
  · rw [if_neg htarget, if_neg htarget]
    rfl

/-- A subscription that cannot be read is not substituted for. -/
theorem substitute_of_fetch_error {σ : Type} [Ledger σ] {ledger : σ} {id : Nat} {fault : Fault}
    (hfetch : Ledger.fetch ledger id = .error fault) (s : Strategy) (target : Target)
    (inputs : NameMap AbiValue) : substitute s target id inputs ledger = .error fault := by
  have hstep : (OnLedger.fetch id : OnLedger σ _) ledger = .error fault := by
    unfold OnLedger.fetch
    rw [hfetch]
    rfl
  have hload : (Manager.load id : OnLedger σ Subscription) ledger = .error fault :=
    state_bind_eq_error.mpr (.inl hstep)
  have hactive : (Manager.loadActive id : OnLedger σ Subscription) ledger = .error fault :=
    state_bind_eq_error.mpr (.inl hload)
  exact state_bind_eq_error.mpr (.inl hactive)

/-- For an active subscription to the target, with the values of the strategy's table, a
    substitution fails with the first fault of a variable or fills every operation. -/
theorem concludes_substitute {σ : Type} [Ledger σ] {ledger : σ} {id : Nat}
    {stored : Subscription} (hactive : Manager.loadActive id ledger = .ok (stored, ledger))
    {s : Strategy} (h : s.Built) {values : NameMap AbiValue}
    (hstored : List.Forall₂ (StoredFor values) s.subSlots stored.values)
    (inputs : NameMap AbiValue) :
    Concludes (substitute s stored.target id inputs ledger) (s.variableFault? inputs)
      (fun p => p.2 = ledger ∧ Resolved s id stored.owner values inputs p.1) := by
  rw [substitute_of_loadActive hactive, if_pos rfl]
  refine (concludes_resolve h hstored inputs).map fun found hfound => ⟨rfl, ?_⟩
  exact ⟨hfound.strategy, rfl, hfound.triggers, hfound.actions⟩

/-- **Substitution.** For a built strategy and an active subscription to it, a substitution
    succeeds exactly if every variable is supplied with a value of its type. It then fills every
    operation with the constants, the owner, the values given for the sub-slots and those of the
    variables, and otherwise it fails with the fault of the first variable that has one. -/
theorem substitute_succeeds_iff_supplied {d : Draft} {s : Strategy} (hbuild : d.build = .ok s)
    {owner : Address} {values : NameMap AbiValue} {now : Timestamp}
    {ledger created later : MemoryLedger} {id : Nat}
    (hledger : Ledger.Reaches MemoryLedger.empty ledger)
    (hsubscribe : Manager.subscribe s owner values now ledger = .ok (id, created))
    (hlater : Ledger.Reaches created later) {stored : Subscription}
    (hactive : Manager.loadActive id later = .ok (stored, later)) (inputs : NameMap AbiValue) :
    ((∃ resolved, substitute s (.strategy s.id) id inputs later = .ok (resolved, later)) ↔
        Supplies inputs s.variableTypes) ∧
      (∀ resolved next, substitute s (.strategy s.id) id inputs later = .ok (resolved, next) →
        next = later ∧ List.Forall₂ (StoredFor values) s.subSlots stored.values ∧
          Resolved s id owner values inputs resolved) ∧
      ∀ fault, substitute s (.strategy s.id) id inputs later = .error fault →
        s.variableFault? inputs = some fault := by
  have hbuilt : s.Built := (build_eq_ok_iff.mp hbuild).2
  obtain ⟨ordered, inserted, hordered, hinsert, rfl⟩ := Manager.create_eq_ok_iff.mp hsubscribe
  have hfetch := (Manager.loadActive_eq_ok_iff.mp hactive).1
  have hkeeps := MemoryLedger.keeps_of_fetch_inserted hledger hinsert hlater hfetch
  have hstored : List.Forall₂ (StoredFor values) s.subSlots stored.values := by
    rw [hkeeps.values]
    exact declaredValues_spec hordered
  have hconcludes := concludes_substitute hactive hbuilt hstored inputs
  rw [hkeeps.target, hkeeps.owner] at hconcludes
  refine ⟨?_, ?_, fun fault hfault => hconcludes.of_error hfault⟩
  · rw [← variableFault?_eq_none_iff hbuilt]
    exact hconcludes.exists_ok_state_iff fun p hp => hp.1
  · intro resolved next hok
    obtain ⟨hnext, hresolved⟩ := hconcludes.of_ok hok
    exact ⟨hnext, hstored, hresolved⟩

/-- The first subscription of a process, in its ledger. -/
theorem subscribe_draw : Manager.subscribe draw 5 drawValues .epoch MemoryLedger.empty =
    .ok (1, ⟨1, [drawSubscription]⟩) :=
  Manager.create_eq_ok_iff.mpr ⟨_, drawSubscription, rfl, rfl, rfl⟩

theorem substitute_succeeds_iff_supplied_draw :
    ((∃ resolved, substitute draw (.strategy draw.id) 1 drawInputs
          (⟨1, [drawSubscription]⟩ : MemoryLedger) = .ok (resolved, ⟨1, [drawSubscription]⟩)) ↔
        Supplies drawInputs draw.variableTypes) ∧
      (∀ resolved next, substitute draw (.strategy draw.id) 1 drawInputs
          (⟨1, [drawSubscription]⟩ : MemoryLedger) = .ok (resolved, next) →
        next = ⟨1, [drawSubscription]⟩ ∧
          List.Forall₂ (StoredFor drawValues) draw.subSlots drawSubscription.values ∧
          Resolved draw 1 5 drawValues drawInputs resolved) ∧
      ∀ fault, substitute draw (.strategy draw.id) 1 drawInputs
          (⟨1, [drawSubscription]⟩ : MemoryLedger) = .error fault →
        draw.variableFault? drawInputs = some fault :=
  substitute_succeeds_iff_supplied build_draw .refl subscribe_draw .refl
    (Manager.loadActive_eq_ok_iff.mpr ⟨rfl, rfl, rfl⟩) drawInputs

end Autopilot
