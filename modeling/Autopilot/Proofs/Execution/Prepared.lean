/-
  What a prepared execution is made of.

  An execution that was prepared names its strategy twice, by the member's place in the bundle and
  by the place of its registration, and its values come from two tables. `Consistent` says that
  the two places stand for one strategy, which of the tables a value is from, and that the call
  data and the printed account are those of this strategy and these values.

  That a member is never unknown needs the library's history (`Library.exists_member`); the
  subscription, the table of its values and the bindings fail with other faults.
-/
import Autopilot.CommandLine.Report
import Autopilot.Proofs.Execution.Bundles

namespace Autopilot

/-! ## Faults -/

/-- The fault is not that of an id under which no strategy is registered. -/
def Fault.NotUnknownStrategy (fault : Fault) : Prop :=
  ∀ id, fault ≠ .unknownStrategy id

theorem failsWith_select (b : Bundle) (snapshot : Snapshot) :
    FailsWith (b.select snapshot) Fault.NotUnknownStrategy := by
  intro fault h
  rcases b.exists_firstEligible_or snapshot with ⟨index, m, hfirst⟩ | hnone
  · rw [Bundle.select_of_firstEligible hfirst, map_eq_error,
      BundleMember.inputs_eq_error_iff] at h
    obtain ⟨name, key, -, rfl⟩ := h
    exact nofun
  · rw [Bundle.select_of_none hnone] at h
    cases h
    exact nofun

theorem failsWith_checkType (name : String) (expected : SlotType) (value : AbiValue) :
    FailsWith (checkType name expected value) Fault.NotUnknownStrategy := by
  unfold checkType
  split
  · exact failsWith_ok () _
  · exact failsWith_error nofun

theorem failsWith_resolve_slot (stored : Subscription) (name : String) :
    FailsWith (stored.resolve name) Fault.NotUnknownStrategy := by
  unfold Subscription.resolve
  split
  · exact failsWith_ok _ _
  · cases stored.value? name with
    | some value => exact failsWith_ok value _
    | none => exact failsWith_error nofun

theorem failsWith_resolve_binding (operation : String) (stored : Subscription)
    (inputs : NameMap AbiValue) (type : SlotType) (binding : Binding) :
    FailsWith (binding.resolve operation stored inputs type) Fault.NotUnknownStrategy := by
  cases binding with
  | const value => exact failsWith_ok _ _
  | piped index => exact failsWith_ok _ _
  | subSlot name =>
    exact (failsWith_resolve_slot stored name).bind fun value =>
      (failsWith_checkType name type value).bind fun _ => failsWith_ok _ _
  | placeholder name =>
    unfold Binding.resolve
    dsimp only
    cases inputs.find? name with
    | none => exact failsWith_error nofun
    | some value => exact (failsWith_checkType _ type value).bind fun _ => failsWith_ok _ _

theorem failsWith_resolve_strategy (s : Strategy) (stored : Subscription)
    (inputs : NameMap AbiValue) : FailsWith (s.resolve stored inputs) Fault.NotUnknownStrategy := by
  have hop : ∀ op : Operation, FailsWith (op.resolve stored inputs) Fault.NotUnknownStrategy := by
    intro op
    have hargument : ∀ arg : Binding × Parameter, FailsWith
        (arg.1.resolve op.name stored inputs arg.2.type) Fault.NotUnknownStrategy := fun arg =>
      failsWith_resolve_binding op.name stored inputs arg.2.type arg.1
    exact (failsWith_mapM hargument op.arguments).bind fun _ => failsWith_ok _ _
  exact (failsWith_mapM hop s.triggers).bind fun _ =>
    (failsWith_mapM hop s.actions).bind fun _ => failsWith_ok _ _

/-- A substitution misses no strategy of its own; at most its ledger says so. -/
theorem substitute_eq_error {σ : Type} [Ledger σ] {s : Strategy} {target : Target} {id : Nat}
    {inputs : NameMap AbiValue} {ledger : σ} {fault : Fault}
    (h : substitute s target id inputs ledger = .error fault) :
    Ledger.fetch ledger id = .error fault ∨ fault.NotUnknownStrategy := by
  unfold substitute at h
  rcases state_bind_eq_error.mp h with hload | ⟨stored, mid, -, hrest⟩
  · rcases Manager.loadActive_eq_error hload with hfetch | rfl | rfl
    · exact .inl hfetch
    · exact .inr nofun
    · exact .inr nofun
  · right
    split at hrest
    · rw [state_lift_bind] at hrest
      rcases bind_eq_error.mp hrest with hresolve | ⟨found, -, hpure⟩
      · exact failsWith_resolve_strategy s stored inputs fault hresolve
      · cases hpure
    · cases hrest
      exact nofun

/-- A row that cannot be read is at fault itself. -/
theorem TableLedger.failsWith_fetch (t : TableLedger) (id : Nat) :
    FailsWith (t.fetch id) Fault.NotUnknownStrategy := by
  have hisOn : ∀ cell : NumberCell, FailsWith cell.isOn Fault.NotUnknownStrategy := by
    intro cell
    cases cell with
    | int value => exact failsWith_ok _ _
    | fraction digits => exact failsWith_error nofun
    | text content => exact failsWith_error nofun
  unfold TableLedger.fetch
  cases t.row? (rowNumber id) with
  | none => exact failsWith_ok none _
  | some row =>
    exact (hisOn row.enabled).bind fun enabled =>
      (failsWith_mapError _ fun _ => nofun).bind fun _ => failsWith_ok _ _

theorem ConfiguredLedger.failsWith_fetch (ledger : ConfiguredLedger) (id : Nat) :
    FailsWith (Ledger.fetch ledger id) Fault.NotUnknownStrategy := by
  cases ledger with
  | memory ledger => exact failsWith_ok _ _
  | tables ledger => exact ledger.failsWith_fetch id
  | readOnly ledger => exact ledger.failsWith_fetch id

/-! ## Consistency -/

/-- The call data are those of the operations, one entry for each of them in order. -/
def CallDataOf (stored : Subscription) (inputs : NameMap AbiValue) (ops : List Operation)
    (data : List (List UInt8)) : Prop :=
  List.Forall₂ (fun op bytes => ∃ resolved, op.resolve stored inputs = .ok resolved ∧
    resolved.callData = bytes) ops data

/-- The execution is that of the member, for the subscription that the ledger holds. -/
structure Consistent {σ : Type} [Ledger σ] (lib : Library) (id bundle : Nat) (snapshot : Snapshot)
    (extra : NameMap AbiValue) (ledger : σ) (p : PreparedExecution) (b : Bundle)
    (m : BundleMember) (s : Strategy) (stored : Subscription) : Prop where
  listed : lib.bundle bundle = .ok b
  /-- The place in the bundle is the first whose precondition holds. -/
  selected : b.FirstEligible snapshot p.strategyIndex m
  member : m.strategy = p.strategy
  /-- The place of registration is that of the member's strategy. -/
  registered : lib.strategyAt? p.registrationIndex = some (p.strategy, s)
  content : s.id = p.strategy
  subscription : p.subscription = id
  found : Ledger.fetch ledger id = .ok (some stored)
  enabled : stored.enabled = true
  target : stored.target = .bundle b.key
  /-- Where the member has a source, its value counts. -/
  sourced : ∀ name source, m.sources.find? name = some source →
    ∃ value, source.value snapshot = .ok value ∧ p.inputs.find? name = some value
  /-- Elsewhere it is what the keeper measured. -/
  measured : ∀ name, m.sources.find? name = none → p.inputs.find? name = extra.find? name
  resolved : substitute s (.bundle b.key) id p.inputs ledger = .ok (p.resolved, ledger)
  triggers : CallDataOf stored p.inputs s.triggers p.triggerCallData
  actions : CallDataOf stored p.inputs s.actions p.actionCallData
  /-- The account names the member at the place, and does not fail. -/
  report : ∀ k : Keeper, k.library = lib → k.bundle = bundle → ∃ details,
    CommandLine.executionReport k p = .ok (CommandLine.lines (
      ["bundle: " ++ b.name,
        "subscription: " ++ toString id,
        "selected: " ++ m.label ++ " (strategy index " ++ toString p.strategyIndex ++ " '" ++
          s.name ++ "')",
        "strategy id: " ++ p.strategy.text] ++ details))

theorem BundleMember.value_of_inputs {m : BundleMember} {snapshot : Snapshot}
    {inputs : NameMap AbiValue} (h : m.inputs snapshot = .ok inputs) (extra : NameMap AbiValue) :
    (∀ name source, m.sources.find? name = some source → ∃ value,
        source.value snapshot = .ok value ∧ (extra.override inputs).find? name = some value) ∧
      ∀ name, m.sources.find? name = none →
        (extra.override inputs).find? name = extra.find? name := by
  obtain ⟨hnames, hvalues⟩ := NameMap.mapM_eq_ok h
  refine ⟨?_, ?_⟩
  · intro name source hsource
    obtain ⟨value, hvalue, hfind⟩ := hvalues name source hsource
    refine ⟨value, hvalue, ?_⟩
    rw [NameMap.find?_override, hfind, Option.some_or]
  · intro name hsource
    have hnone : inputs.find? name = none := NameMap.find?_eq_none_of_keys hnames.symm hsource
    rw [NameMap.find?_override, hnone, Option.none_or]

/-- What is resolved gives one entry of call data for each operation. -/
theorem callDataOf_of_resolve {stored : Subscription} {inputs : NameMap AbiValue}
    {ops : List Operation} {resolved : List ResolvedOperation}
    (h : List.Forall₂ (fun op res => op.resolve stored inputs = .ok res) ops resolved) :
    CallDataOf stored inputs ops (resolved.map ResolvedOperation.callData) := by
  unfold CallDataOf
  rw [List.forall₂_map_right_iff]
  exact h.imp fun op res hres => ⟨res, hres, rfl⟩

/-- The account of an execution whose places are in range. -/
theorem exists_executionReport {k : Keeper} {p : PreparedExecution} {b : Bundle}
    {m : BundleMember} {s : Strategy} (hbundle : k.library.bundle k.bundle = .ok b)
    (hmember : b.members[p.strategyIndex]? = some m) (hget : k.library.get p.strategy = .ok s) :
    ∃ details, CommandLine.executionReport k p = .ok (CommandLine.lines (
      ["bundle: " ++ b.name,
        "subscription: " ++ toString p.subscription,
        "selected: " ++ m.label ++ " (strategy index " ++ toString p.strategyIndex ++ " '" ++
          s.name ++ "')",
        "strategy id: " ++ p.strategy.text] ++ details)) := by
  have hitem : CommandLine.itemAt b.members p.strategyIndex = .ok m := by
    unfold CommandLine.itemAt
    rw [hmember]
  unfold CommandLine.executionReport
  rw [mapError_eq_ok.mpr hbundle, ok_bind, mapError_eq_ok.mpr hget, ok_bind, hitem, ok_bind,
    List.append_assoc, List.append_assoc]
  exact ⟨_, rfl⟩

section Preparing

variable {σ : Type} [Ledger σ] {lib : Library} {id bundle : Nat} {snapshot : Snapshot}
  {extra : NameMap AbiValue} {ledger next : σ} {p : PreparedExecution}

theorem consistent_of_prepare (hlib : lib.Reachable)
    (h : prepareExecution lib id bundle snapshot extra ledger = .ok (p, next)) :
    next = ledger ∧ ∃ b m s stored,
      Consistent lib id bundle snapshot extra ledger p b m s stored := by
  rw [prepareExecution_eq] at h
  obtain ⟨b, hbundle, h⟩ := bind_eq_ok.mp h
  obtain ⟨selection, hselect, h⟩ := bind_eq_ok.mp h
  obtain ⟨s, hget, h⟩ := bind_eq_ok.mp h
  obtain ⟨registrationIndex, hindex, h⟩ := bind_eq_ok.mp h
  obtain ⟨⟨resolved, next'⟩, hsubstitute, hpair⟩ := map_eq_ok.mp h
  cases hpair
  obtain ⟨m, hfirst, hstrategy, hinputs⟩ := Bundle.select_eq_ok_iff.mp hselect
  obtain ⟨stored, found, hfetch, henabled, htarget, hresolve, rfl, rfl⟩ :=
    substitute_eq_ok_iff.mp hsubstitute
  obtain ⟨hsourced, hmeasured⟩ := BundleMember.value_of_inputs hinputs extra
  obtain ⟨htriggers, hactions⟩ := resolve_strategy_eq_ok hresolve
  refine ⟨rfl, b, m, s, stored, ?_⟩
  exact {
    listed := hbundle
    selected := hfirst
    member := hstrategy
    registered := Library.strategyAt?_of_indexOf hget hindex
    content := hlib.id_of_get hget
    subscription := rfl
    found := hfetch
    enabled := henabled
    target := htarget
    sourced := hsourced
    measured := hmeasured
    resolved := hsubstitute
    triggers := callDataOf_of_resolve htriggers
    actions := callDataOf_of_resolve hactions
    report := by
      rintro k rfl rfl
      exact exists_executionReport hbundle hfirst.member hget }

/-- A member is registered, so an id that is unknown is at most the ledger's fault. -/
theorem fetch_of_unknownStrategy (hlib : lib.Reachable) {text : String}
    (h : prepareExecution lib id bundle snapshot extra ledger = .error (.unknownStrategy text)) :
    Ledger.fetch ledger id = .error (.unknownStrategy text) := by
  rw [prepareExecution_eq] at h
  rcases bind_eq_error.mp h with hbundle | ⟨b, hbundle, h⟩
  · have hknown : FailsWith (lib.bundle bundle) Fault.NotUnknownStrategy :=
      lib.failsWith_bundle nofun
    exact absurd rfl (hknown _ hbundle text)
  rcases bind_eq_error.mp h with hselect | ⟨selection, hselect, h⟩
  · exact absurd rfl (failsWith_select b snapshot _ hselect text)
  obtain ⟨m, hfirst, hstrategy, -⟩ := Bundle.select_eq_ok_iff.mp hselect
  obtain ⟨s, hget⟩ := Library.exists_member hlib hbundle hfirst.mem
  obtain ⟨registrationIndex, hindex⟩ := Library.exists_index hget
  rw [← hstrategy, hget, ok_bind, hindex, ok_bind] at h
  rcases substitute_eq_error (map_eq_error.mp h) with hfetch | hnot
  · exact hfetch
  · exact absurd rfl (hnot text)

end Preparing

/-- **Consistency.** In a library that came about by publishing, whatever is prepared is that of
    the first eligible member: its two places, its values, its call data and its account belong
    together. Over the ledgers of a configuration no id of a strategy is ever unknown, and over
    another one at most the ledger itself says so. -/
theorem prepareExecution_consistent {lib : Library} (hlib : lib.Reachable) (id bundle : Nat)
    (snapshot : Snapshot) (extra : NameMap AbiValue) :
    (∀ {σ : Type} [Ledger σ] (ledger next : σ) (p : PreparedExecution),
        prepareExecution lib id bundle snapshot extra ledger = .ok (p, next) →
          next = ledger ∧ ∃ b m s stored,
            Consistent lib id bundle snapshot extra ledger p b m s stored) ∧
      (∀ {σ : Type} [Ledger σ] (ledger : σ) (strategy : String),
        prepareExecution lib id bundle snapshot extra ledger =
            .error (.unknownStrategy strategy) →
          Ledger.fetch ledger id = .error (.unknownStrategy strategy)) ∧
      ∀ (ledger : ConfiguredLedger) (strategy : String),
        prepareExecution lib id bundle snapshot extra ledger ≠
          .error (.unknownStrategy strategy) := by
  refine ⟨fun _ _ _ h => consistent_of_prepare hlib h,
    fun _ _ h => fetch_of_unknownStrategy hlib h, ?_⟩
  intro ledger strategy h
  exact ledger.failsWith_fetch id _ (fetch_of_unknownStrategy hlib h) strategy rfl

/-- The later process, which found the subscription in the tables, prepares a draw. -/
theorem exists_prepare_observing : ∃ p, prepareExecution laterLibrary 1 1 debtSnapshot drawInputs
    (ConfiguredLedger.readOnly drawTables) = .ok (p, .readOnly drawTables) := by
  have hselect : observingBundle.select debtSnapshot = .ok debtSelection := rfl
  have htarget : drawStored.target = .bundle observingBundle.key := rfl
  rw [prepareExecution_eq_substitute bundle_laterLibrary hselect (Library.get_sole _ _)
      (Library.indexOf_sole _ _),
    substitute_of_loadActive loadActive_drawTables, if_pos htarget]
  exact ⟨_, rfl⟩

theorem prepareExecution_consistent_draw :
    (∃ p b m s stored, prepareExecution laterLibrary 1 1 debtSnapshot drawInputs
          (ConfiguredLedger.readOnly drawTables) = .ok (p, .readOnly drawTables) ∧
        Consistent laterLibrary 1 1 debtSnapshot drawInputs
          (ConfiguredLedger.readOnly drawTables) p b m s stored) ∧
      ∀ (ledger : ConfiguredLedger) (strategy : String),
        prepareExecution laterLibrary 1 1 debtSnapshot drawInputs ledger ≠
          .error (.unknownStrategy strategy) := by
  obtain ⟨hconsistent, -, hknown⟩ := prepareExecution_consistent
    published_laterLibrary.reachable 1 1 debtSnapshot drawInputs
  obtain ⟨p, hp⟩ := exists_prepare_observing
  obtain ⟨-, b, m, s, stored, h⟩ := hconsistent _ _ p hp
  exact ⟨⟨p, b, m, s, stored, hp, h⟩, hknown⟩

end Autopilot
