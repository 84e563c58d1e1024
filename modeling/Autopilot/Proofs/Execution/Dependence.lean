/-
  What a preparation looks at.

  A preparation reads the snapshot at the keys that its bundle mentions, and the keeper's values at
  the placeholders of the selected strategy for which the member has no source. Runs whose tables
  agree there end alike (`SameExecution`): both fail with one fault or both are prepared with the
  same places, the same resolved strategy and the same call data. Whatever else the tables hold
  is listed at most among the values of the execution.

  The runs select alike (`select_congr`), so they resolve one strategy for one target, and each
  binding of it sees the same value (`substitute_congr`).
-/
import Autopilot.Proofs.Execution.Prepared

namespace Autopilot

/-- The tables have the same value, or none, under every name of the set. -/
def NameMap.AgreeOn {α : Type} (names : Set String) (m m' : NameMap α) : Prop :=
  ∀ name ∈ names, m.find? name = m'.find? name

/-! ## Selection -/

namespace Bundle

/-- The keys that a precondition or a source of some member asks for. -/
def mentioned (b : Bundle) : Set String :=
  {key | ∃ m ∈ b.members, m.precondition.Mentions key ∨
    ∃ name, m.sources.find? name = some (.snapshot key)}

variable {b : Bundle} {snapshot snapshot' : Snapshot}

theorem eligible?_congr (h : NameMap.AgreeOn b.mentioned snapshot snapshot') :
    b.eligible? snapshot = b.eligible? snapshot' := by
  unfold eligible?
  rw [← List.head?_filter, ← List.head?_filter]
  refine congrArg List.head? (List.filter_congr ?_)
  rintro ⟨m, index⟩ hm
  have hmember : m ∈ b.members := List.fst_mem_of_mem_zipIdx hm
  exact Predicate.holds_congr fun key hkey => h key ⟨m, hmember, .inl hkey⟩

theorem inputs_congr (h : NameMap.AgreeOn b.mentioned snapshot snapshot') {m : BundleMember}
    (hm : m ∈ b.members) : m.inputs snapshot = m.inputs snapshot' := by
  refine NameMap.mapM_congr fun name source hsource => ?_
  cases source with
  | const value => rfl
  | snapshot key =>
    unfold VariableSource.value
    dsimp only
    rw [h key ⟨m, hm, .inr ⟨name, hsource⟩⟩]

/-- A selection depends on nothing but the keys that its bundle mentions. -/
theorem select_congr (h : NameMap.AgreeOn b.mentioned snapshot snapshot') :
    b.select snapshot = b.select snapshot' := by
  rcases b.exists_firstEligible_or snapshot with ⟨index, m, hfirst⟩ | hnone
  · have hfirst' : b.FirstEligible snapshot' index m := by
      rwa [← eligible?_eq_some_iff, ← eligible?_congr h, eligible?_eq_some_iff]
    rw [select_of_firstEligible hfirst, select_of_firstEligible hfirst', inputs_congr h hfirst.mem]
  · have hnone' : ∀ m ∈ b.members, ¬ m.precondition.Holds snapshot' := by
      rwa [← eligible?_eq_none_iff, ← eligible?_congr h, eligible?_eq_none_iff]
    rw [select_of_none hnone, select_of_none hnone']

end Bundle

/-! ## Substitution -/

/-- The placeholders of the strategy's operations. -/
def Strategy.placeholders (s : Strategy) : Set String :=
  {name | ∃ op ∈ s.operations, name ∈ op.placeholders}

section Substitution

variable {inputs inputs' : NameMap AbiValue}

theorem resolve_binding_congr {binding : Binding}
    (h : ∀ name, binding = .placeholder name → inputs.find? name = inputs'.find? name)
    (operation : String) (stored : Subscription) (type : SlotType) :
    binding.resolve operation stored inputs type =
      binding.resolve operation stored inputs' type := by
  cases binding with
  | const value => rfl
  | subSlot name => rfl
  | piped index => rfl
  | placeholder name =>
    unfold Binding.resolve
    dsimp only
    rw [h name rfl]

theorem resolve_operation_congr {op : Operation}
    (h : ∀ name ∈ op.placeholders, inputs.find? name = inputs'.find? name)
    (stored : Subscription) : op.resolve stored inputs = op.resolve stored inputs' := by
  unfold Operation.resolve
  rw [mapM_congr]
  rintro ⟨binding, param⟩ harg
  refine resolve_binding_congr (fun name hname => h name ?_) op.name stored param.type
  have hbinding : binding ∈ op.bindings := (List.of_mem_zip harg).1
  exact List.mem_filterMap.mpr ⟨binding, hbinding, by rw [hname]; rfl⟩

variable {s : Strategy}

theorem resolve_strategy_congr (h : NameMap.AgreeOn s.placeholders inputs inputs')
    (stored : Subscription) : s.resolve stored inputs = s.resolve stored inputs' := by
  have hop : ∀ op ∈ s.operations, op.resolve stored inputs = op.resolve stored inputs' :=
    fun op hop => resolve_operation_congr (fun name hname => h name ⟨op, hop, hname⟩) stored
  unfold Strategy.resolve
  rw [mapM_congr fun op htrigger => hop op (List.mem_append_left _ htrigger),
    mapM_congr fun op haction => hop op (List.mem_append_right _ haction)]

/-- A substitution depends on nothing but the placeholders of its strategy. -/
theorem substitute_congr (h : NameMap.AgreeOn s.placeholders inputs inputs') {σ : Type}
    [Ledger σ] (target : Target) (id : Nat) (ledger : σ) :
    substitute s target id inputs ledger = substitute s target id inputs' ledger := by
  unfold substitute
  simp only [resolve_strategy_congr h]

end Substitution

/-! ## Preparing -/

/-- Both runs fail with one fault, or both are prepared with the same places, strategy and call
    data and leave the same ledger. -/
inductive SameExecution {σ : Type} : Except Fault (PreparedExecution × σ) →
    Except Fault (PreparedExecution × σ) → Prop where
  | failed (fault : Fault) : SameExecution (.error fault) (.error fault)
  | prepared {p p' : PreparedExecution} (next : σ) : p.strategyIndex = p'.strategyIndex →
    p.registrationIndex = p'.registrationIndex → p.strategy = p'.strategy →
    p.resolved = p'.resolved → p.triggerCallData = p'.triggerCallData →
    p.actionCallData = p'.actionCallData → SameExecution (.ok (p, next)) (.ok (p', next))

theorem SameExecution.bind {σ α : Type} {x : Except Fault α}
    {f g : α → Except Fault (PreparedExecution × σ)}
    (h : ∀ a, x = .ok a → SameExecution (f a) (g a)) : SameExecution (x >>= f) (x >>= g) := by
  cases x with
  | error fault => exact .failed fault
  | ok a => exact h a rfl

namespace Library

/-- The keys that the bundle with a number mentions. -/
def observed (lib : Library) (bundle : Nat) : Set String :=
  {key | ∃ b, lib.bundle bundle = .ok b ∧ key ∈ b.mentioned}

/-- The placeholders that the strategy selected by a snapshot uses and the selected member has no
    source for. -/
def measured (lib : Library) (bundle : Nat) (snapshot : Snapshot) : Set String :=
  {name | ∃ b selection m s, lib.bundle bundle = .ok b ∧ b.select snapshot = .ok selection ∧
    b.members[selection.index]? = some m ∧ lib.get selection.strategy = .ok s ∧
    name ∈ s.placeholders ∧ m.sources.find? name = none}

end Library

/-- **Dependence.** Runs of a preparation end alike if their snapshots agree on the keys that the
    bundle mentions, and the keeper's values on the placeholders that the selected strategy uses
    and the selected member does not source. -/
theorem prepareExecution_same_of_agreeOn {σ : Type} [Ledger σ] {lib : Library} {bundle : Nat}
    {snapshot snapshot' : Snapshot} {extra extra' : NameMap AbiValue}
    (hsnapshots : NameMap.AgreeOn (lib.observed bundle) snapshot snapshot')
    (hextras : NameMap.AgreeOn (lib.measured bundle snapshot) extra extra') (id : Nat)
    (ledger : σ) :
    SameExecution (prepareExecution lib id bundle snapshot extra ledger)
      (prepareExecution lib id bundle snapshot' extra' ledger) := by
  rw [prepareExecution_eq, prepareExecution_eq]
  refine SameExecution.bind fun b hbundle => ?_
  have hmentioned : NameMap.AgreeOn b.mentioned snapshot snapshot' :=
    fun key hkey => hsnapshots key ⟨b, hbundle, hkey⟩
  rw [← Bundle.select_congr hmentioned]
  refine SameExecution.bind fun selection hselect => ?_
  refine SameExecution.bind fun s hget => ?_
  refine SameExecution.bind fun registrationIndex _ => ?_
  obtain ⟨m, hfirst, -, hinputs⟩ := Bundle.select_eq_ok_iff.mp hselect
  have hplaceholders : NameMap.AgreeOn s.placeholders (extra.override selection.inputs)
      (extra'.override selection.inputs) := by
    intro name hname
    rw [NameMap.find?_override, NameMap.find?_override]
    cases hvalue : selection.inputs.find? name with
    | some value => rfl
    | none =>
      -- the name has no source, so both keepers measured it
      have hnames := (BundleMember.sourced_of_inputs hinputs).names
      have hsource := NameMap.find?_eq_none_of_keys hnames hvalue
      exact hextras name
        ⟨b, selection, m, s, hbundle, hselect, hfirst.member, hget, hname, hsource⟩
  rw [substitute_congr hplaceholders]
  cases substitute s (.bundle b.key) id (extra'.override selection.inputs) ledger with
  | error fault => exact .failed fault
  | ok p => exact .prepared p.2 rfl rfl rfl rfl rfl rfl

/-- A process that also observes a price. -/
def pricedSnapshot : Snapshot :=
  debtSnapshot.insert "price" (.uint 7 256)

/-- A keeper that measured another amount, which the member observes, and the gas, which `draw`
    does not use. -/
def gasInputs : NameMap AbiValue :=
  (drawInputs.insert "amount" (.uint 99 256)).insert "gas" (.uint 8 64)

/-- The only member of `observingBundle` has one source. -/
theorem sources_observing {m : BundleMember} (hm : m ∈ observingBundle.members) :
    m.precondition = .always ∧ m.sources = NameMap.ofList [("amount", .snapshot "debt")] := by
  rw [List.mem_singleton.mp hm]
  exact ⟨rfl, rfl⟩

theorem agreeOn_observed_observing :
    NameMap.AgreeOn (laterLibrary.observed 1) debtSnapshot pricedSnapshot := by
  rintro key ⟨b, hbundle, m, hm, hkey⟩
  cases bundle_laterLibrary.symm.trans hbundle
  obtain ⟨hprecondition, hsources⟩ := sources_observing hm
  have hdebt : key = "debt" := by
    rcases hkey with hkey | ⟨name, hsource⟩
    · rw [hprecondition, Predicate.mentions_iff] at hkey
      simp [Predicate.operands, Predicate.parts] at hkey
    · rw [hsources, NameMap.find?_eq_some_iff] at hsource
      have hpair := List.mem_singleton.mp hsource
      exact VariableSource.snapshot.inj (congrArg Prod.snd hpair)
  rw [hdebt]
  rfl

theorem agreeOn_measured_observing :
    NameMap.AgreeOn (laterLibrary.measured 1 debtSnapshot) drawInputs gasInputs := by
  rintro name ⟨b, selection, m, s, hbundle, hselect, hm, hget, ⟨op, hop, hname⟩, hsource⟩
  cases bundle_laterLibrary.symm.trans hbundle
  have hselection : selection = debtSelection :=
    Except.ok.inj (hselect.symm.trans (show _ = Except.ok debtSelection from rfl))
  rw [hselection] at hget
  have hdraw : s = draw := Except.ok.inj (hget.symm.trans (Library.get_sole _ _))
  rw [hdraw] at hop
  have hamount : name ≠ "amount" := by
    rintro rfl
    rw [(sources_observing (List.mem_of_getElem? hm)).2] at hsource
    cases hsource
  have hgas : name ≠ "gas" := by
    rintro rfl
    have hunused : ∀ op ∈ draw.operations, "gas" ∉ op.placeholders := by decide
    exact hunused op hop hname
  unfold gasInputs
  rw [NameMap.find?_insert, if_neg hgas, NameMap.find?_insert, if_neg hamount]

theorem prepareExecution_same_of_agreeOn_draw :
    (∃ p, prepareExecution laterLibrary 1 1 debtSnapshot drawInputs
        (ConfiguredLedger.readOnly drawTables) = .ok (p, .readOnly drawTables)) ∧
      SameExecution
        (prepareExecution laterLibrary 1 1 debtSnapshot drawInputs
          (ConfiguredLedger.readOnly drawTables))
        (prepareExecution laterLibrary 1 1 pricedSnapshot gasInputs
          (ConfiguredLedger.readOnly drawTables)) :=
  ⟨exists_prepare_observing, prepareExecution_same_of_agreeOn agreeOn_observed_observing
    agreeOn_measured_observing 1 _⟩

end Autopilot
