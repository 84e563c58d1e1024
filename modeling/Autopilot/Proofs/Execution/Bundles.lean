/-
  A subscription to a bundle drives this bundle, and no other.

  The two libraries of this file stand for two processes: in one of them the subscription was
  made, in the other an execution is prepared, and the numbers of their bundles need not agree.
  What carries over is the key that the subscription stores. Without a collision of the hash,
  bundles with one key have the same members (`key_eq_iff`), and a member's id stands for the
  same strategy in both libraries (`strategy_of_id`), for the encoding determines a strategy
  (`Wire.encode_inj`). So the values were stored for the table of whichever member is selected,
  and only its variables can be at fault (`concludes_prepare`).

  All this is for a subscription that is found. Tables hold texts, and a row that is on can hold
  a value that nobody can read back; then a preparation ends with a fault of the row before any
  targets are compared, whatever the members are (`prepare_oversized`).
-/
import Autopilot.Execution.Prepare
import Autopilot.Proofs.Execution.Selection
import Autopilot.Proofs.Execution.Substitution
import Autopilot.Proofs.Subscription.Agreement
import Autopilot.Proofs.Wire.Distinct
import Mathlib.Data.Set.Function

namespace Autopilot

/-! ## Keys -/

namespace Bundle

/-- The ids of the members, in declared order. -/
def memberIds (b : Bundle) : List StrategyId :=
  b.members.map (·.strategy)

/-- What is hashed for the key. -/
def keyBytes (b : Bundle) : List UInt8 :=
  b.memberIds.flatMap fun id => wordBytes id.digest

theorem key_eq_digest (b : Bundle) : b.key = ⟨Keccak.digest b.keyBytes⟩ := by
  unfold key keyBytes memberIds
  rw [List.flatMap_map]

/-- The ids have one length, so their concatenation determines them. -/
theorem keyBytes_inj {b b' : Bundle} (h : b.keyBytes = b'.keyBytes) :
    b.memberIds = b'.memberIds := by
  have hwords : (b.memberIds.map (·.digest)).flatMap wordBytes =
      (b'.memberIds.map (·.digest)).flatMap wordBytes := by
    rw [List.flatMap_map, List.flatMap_map]
    exact h
  have hdigest : Function.Injective StrategyId.digest :=
    fun id id' heq => congrArg StrategyId.mk heq
  exact List.map_injective_iff.mpr hdigest (Wire.flatMap_wordBytes_inj hwords)

/-- Without a collision, bundles have one key exactly if they have the same members. -/
theorem key_eq_iff {b b' : Bundle} (h : Set.InjOn Keccak.digest {b.keyBytes, b'.keyBytes}) :
    b.key = b'.key ↔ b.memberIds = b'.memberIds := by
  rw [key_eq_digest, key_eq_digest]
  constructor
  · intro hkey
    have hdigest : Keccak.digest b.keyBytes = Keccak.digest b'.keyBytes :=
      congrArg BundleKey.digest hkey
    exact keyBytes_inj (h (.inl rfl) (.inr rfl) hdigest)
  · intro hids
    unfold keyBytes
    rw [hids]

theorem mem_memberIds {b : Bundle} {id : StrategyId} :
    id ∈ b.memberIds ↔ ∃ m ∈ b.members, m.strategy = id :=
  List.mem_map

/-- It is a member that is selected. -/
theorem mem_of_select {b : Bundle} {snapshot : Snapshot} {selection : Selection}
    (h : b.select snapshot = .ok selection) : selection.strategy ∈ b.memberIds := by
  obtain ⟨m, hfirst, hstrategy, -⟩ := select_eq_ok_iff.mp h
  exact mem_memberIds.mpr ⟨m, hfirst.mem, hstrategy⟩

end Bundle

/-! ## Strategies and their ids -/

/-- The encodings of a bundle's members. -/
def Library.memberEncodings (lib : Library) (b : Bundle) : Set (List UInt8) :=
  {bytes | ∃ id ∈ b.memberIds, ∃ s, lib.get id = .ok s ∧ Wire.encode s = bytes}

/-- Without a collision, the id of a member stands for the same strategy in both libraries. -/
theorem strategy_of_id {lib₁ lib₂ : Library} (h₁ : lib₁.Published) (h₂ : lib₂.Published)
    {b₁ b₂ : Bundle}
    (hencodings : Set.InjOn Keccak.digest (lib₁.memberEncodings b₁ ∪ lib₂.memberEncodings b₂))
    {id : StrategyId} (hid₁ : id ∈ b₁.memberIds) (hid₂ : id ∈ b₂.memberIds) {s₁ s₂ : Strategy}
    (hget₁ : lib₁.get id = .ok s₁) (hget₂ : lib₂.get id = .ok s₂) : s₁ = s₂ := by
  obtain ⟨hbuilt₁, hs₁⟩ := h₁.built_of_get hget₁
  obtain ⟨hbuilt₂, hs₂⟩ := h₂.built_of_get hget₂
  have hdigest : Keccak.digest (Wire.encode s₁) = Keccak.digest (Wire.encode s₂) :=
    congrArg StrategyId.digest (hs₁.trans hs₂.symm)
  have hbytes : Wire.encode s₁ = Wire.encode s₂ :=
    hencodings (.inl ⟨id, hid₁, s₁, hget₁, rfl⟩) (.inr ⟨id, hid₂, s₂, hget₂, rfl⟩) hdigest
  exact Wire.encode_inj hbuilt₁ hbuilt₂ hbytes

/-! ## Preparing -/

section Preparing

variable {σ : Type} [Ledger σ] {lib : Library} {id bundle : Nat} {snapshot : Snapshot}
  {b : Bundle} {selection : Selection} {s : Strategy} {ledger : σ}

/-- The lookups of a preparation do not touch the ledger; only its substitution reads it. -/
theorem prepareExecution_eq (lib : Library) (id bundle : Nat) (snapshot : Snapshot)
    (extra : NameMap AbiValue) (ledger : σ) :
    prepareExecution lib id bundle snapshot extra ledger = (do
      let b ← lib.bundle bundle
      let selection ← b.select snapshot
      let s ← lib.get selection.strategy
      let registrationIndex ← lib.indexOf selection.strategy
      (substitute s (.bundle b.key) id (extra.override selection.inputs) ledger).map fun p =>
        (⟨id, selection.index, registrationIndex, selection.strategy,
            extra.override selection.inputs, p.1.triggerCallData, p.1.actionCallData, p.1⟩,
          p.2)) := by
  unfold prepareExecution
  rw [state_lift_bind]
  cases hbundle : lib.bundle bundle with
  | error fault => rfl
  | ok b =>
    rw [ok_bind, ok_bind]
    refine state_lift_bind.trans (bind_congr fun selection => ?_)
    refine state_lift_bind.trans (bind_congr fun s => ?_)
    refine state_lift_bind.trans (bind_congr fun registrationIndex => ?_)
    -- the key is that of the bundle that was looked up before
    rw [Library.bundleKey_of_bundle hbundle, state_lift_bind, ok_bind]
    exact state_bind_pure

/-- Once the member is known, a preparation is a substitution for the bundle's key. -/
theorem prepareExecution_eq_substitute (hbundle : lib.bundle bundle = .ok b)
    (hselect : b.select snapshot = .ok selection) (hget : lib.get selection.strategy = .ok s)
    {registrationIndex : Nat} (hindex : lib.indexOf selection.strategy = .ok registrationIndex)
    (extra : NameMap AbiValue) :
    prepareExecution lib id bundle snapshot extra ledger =
      (substitute s (.bundle b.key) id (extra.override selection.inputs) ledger).map fun p =>
        (⟨id, selection.index, registrationIndex, selection.strategy,
          extra.override selection.inputs, p.1.triggerCallData, p.1.actionCallData, p.1⟩, p.2) := by
  rw [prepareExecution_eq, hbundle, ok_bind, hselect, ok_bind, hget, ok_bind, hindex, ok_bind]

/-- For a subscription that cannot be read, a preparation ends with the ledger's fault. -/
theorem prepareExecution_eq_fetch_error (hbundle : lib.bundle bundle = .ok b)
    (hselect : b.select snapshot = .ok selection) (hget : lib.get selection.strategy = .ok s)
    {fault : Fault} (hfetch : Ledger.fetch ledger id = .error fault) (extra : NameMap AbiValue) :
    prepareExecution lib id bundle snapshot extra ledger = .error fault := by
  obtain ⟨registrationIndex, hindex⟩ := Library.exists_index hget
  rw [prepareExecution_eq_substitute hbundle hselect hget hindex,
    substitute_of_fetch_error hfetch]
  rfl

/-- For an active subscription to another key, a preparation is refused. -/
theorem prepareExecution_eq_mismatch (hbundle : lib.bundle bundle = .ok b)
    (hselect : b.select snapshot = .ok selection) (hget : lib.get selection.strategy = .ok s)
    {stored : Subscription} (hactive : Manager.loadActive id ledger = .ok (stored, ledger))
    (htarget : stored.target ≠ .bundle b.key) (extra : NameMap AbiValue) :
    prepareExecution lib id bundle snapshot extra ledger =
      .error (.subscriptionMismatch id (Target.bundle b.key).text) := by
  obtain ⟨registrationIndex, hindex⟩ := Library.exists_index hget
  rw [prepareExecution_eq_substitute hbundle hselect hget hindex,
    substitute_of_loadActive hactive, if_neg htarget]
  rfl

/-- For an active subscription to the key, with the values of the member's table, a preparation
    fails with the first fault of a variable or succeeds. -/
theorem concludes_prepare (hbundle : lib.bundle bundle = .ok b)
    (hselect : b.select snapshot = .ok selection) (hget : lib.get selection.strategy = .ok s)
    (h : s.Built) {stored : Subscription}
    (hactive : Manager.loadActive id ledger = .ok (stored, ledger))
    (htarget : stored.target = .bundle b.key) {values : NameMap AbiValue}
    (hstored : List.Forall₂ (StoredFor values) s.subSlots stored.values)
    (extra : NameMap AbiValue) :
    Concludes (prepareExecution lib id bundle snapshot extra ledger)
      (s.variableFault? (extra.override selection.inputs)) (fun p => p.2 = ledger) := by
  obtain ⟨registrationIndex, hindex⟩ := Library.exists_index hget
  rw [prepareExecution_eq_substitute hbundle hselect hget hindex, ← htarget]
  exact (concludes_substitute hactive h hstored _).map fun p hp => hp.1

end Preparing

/-! ## Subscriptions to a bundle -/

/-- A subscription to a bundle is one insertion, under the bundle's key and with values of the
    bundle's table. -/
theorem exists_insert_of_subscribeBundle {lib : Library} {bundle : Nat} {b : Bundle}
    (hbundle : lib.bundle bundle = .ok b) {owner : Address} {values : NameMap AbiValue}
    {now : Timestamp} {ledger created : ConfiguredLedger} {id : Nat}
    (h : Manager.subscribeBundle lib bundle owner values now ledger = .ok (id, created)) :
    ∃ slots stored inserted, lib.bundleSubSlots bundle = .ok slots ∧
      List.Forall₂ (StoredFor values) slots stored ∧
      Ledger.insert ledger ⟨.bundle b.key, owner, stored, now⟩ = .ok (inserted, created) ∧
      inserted.id = id := by
  obtain ⟨slots, key, hslots, hkey, hcreate⟩ := Manager.subscribeBundle_eq_ok_iff.mp h
  rw [Library.bundleKey_of_bundle hbundle] at hkey
  cases hkey
  obtain ⟨stored, inserted, hstored, hinsert, hid⟩ := Manager.create_eq_ok_iff.mp hcreate
  exact ⟨slots, stored, inserted, hslots, declaredValues_spec hstored, hinsert, hid⟩

/-- What a preparation for the strategy of a member comes to: the subscription has values of the
    types that the strategy's sub-slots ask for, the preparation succeeds exactly if the keeper
    supplies the variables, and if it fails, one of them is at fault, and neither an id nor a
    name is unknown. -/
structure Drives (s : Strategy) (stored : Subscription) (inputs : NameMap AbiValue)
    (ledger : ConfiguredLedger) (outcome : Except Fault (PreparedExecution × ConfiguredLedger)) :
    Prop where
  slots : ∀ op ∈ s.operations, ∀ name param, (Binding.subSlot name, param) ∈ op.arguments →
    ∃ value, stored.resolve name = .ok value ∧ value.slotType = param.type
  succeeds : (∃ prepared, outcome = .ok (prepared, ledger)) ↔ Supplies inputs s.variableTypes
  faults : ∀ fault, outcome = .error fault → VariableFault s inputs fault
  registered : ∀ strategy, outcome ≠ .error (.unknownStrategy strategy)
  declared : ∀ operation name, outcome ≠ .error (.undeclaredSubSlot operation name)

theorem drives_of_concludes {s : Strategy} (h : s.Built) {values : NameMap AbiValue}
    {stored : Subscription} (hstored : List.Forall₂ (StoredFor values) s.subSlots stored.values)
    {inputs : NameMap AbiValue} {ledger : ConfiguredLedger}
    {outcome : Except Fault (PreparedExecution × ConfiguredLedger)}
    (hconcludes : Concludes outcome (s.variableFault? inputs) (fun p => p.2 = ledger)) :
    Drives s stored inputs ledger outcome := by
  have hfaults : ∀ fault, outcome = .error fault → VariableFault s inputs fault :=
    fun fault hfault => variableFault_of_eq_some (hconcludes.of_error hfault)
  refine ⟨?_, ?_, hfaults, ?_, ?_⟩
  · intro op hop name param harg
    obtain ⟨kind, hkind⟩ := s.exists_kind hop
    obtain ⟨value, hvalue, htype, -⟩ := slot_resolved h hstored inputs hkind harg
    exact ⟨value, hvalue, htype⟩
  · rw [← variableFault?_eq_none_iff h]
    exact hconcludes.exists_ok_state_iff fun p hp => hp
  · intro strategy hfault
    cases hfaults _ hfault
  · intro operation name hfault
    cases hfaults _ hfault

/-- If the bundle of the other library has the same members, the table that was subscribed to is
    that of whichever member. -/
theorem table_of_member {lib₁ lib₂ : Library} (h₁ : lib₁.Published) (h₂ : lib₂.Published)
    {bundle₁ : Nat} {b₁ b₂ : Bundle} (hbundle₁ : lib₁.bundle bundle₁ = .ok b₁)
    (hencodings : Set.InjOn Keccak.digest (lib₁.memberEncodings b₁ ∪ lib₂.memberEncodings b₂))
    (hids : b₁.memberIds = b₂.memberIds) {id : StrategyId} (hid : id ∈ b₂.memberIds)
    {s : Strategy} (hget : lib₂.get id = .ok s) {slots : List SubSlot}
    (hslots : lib₁.bundleSubSlots bundle₁ = .ok slots) : slots = s.subSlots := by
  have hid₁ : id ∈ b₁.memberIds := by rwa [hids]
  obtain ⟨m, hm, rfl⟩ := Bundle.mem_memberIds.mp hid₁
  obtain ⟨s₁, hget₁⟩ := Library.exists_member h₁.reachable hbundle₁ hm
  have hsame : s₁ = s := strategy_of_id h₁ h₂ hencodings hid₁ hid hget₁ hget
  rw [← hsame]
  exact Library.bundleSubSlots_eq h₁.reachable hbundle₁ hm hget₁ hslots

section TwoLibraries

variable {lib₁ lib₂ : Library} (h₁ : lib₁.Published) (h₂ : lib₂.Published) {bundle₁ bundle₂ : Nat}
  {b₁ b₂ : Bundle} (hbundle₁ : lib₁.bundle bundle₁ = .ok b₁)
  (hbundle₂ : lib₂.bundle bundle₂ = .ok b₂)
  (hkeys : Set.InjOn Keccak.digest {b₁.keyBytes, b₂.keyBytes})
  (hencodings : Set.InjOn Keccak.digest (lib₁.memberEncodings b₁ ∪ lib₂.memberEncodings b₂))
  {snapshot : Snapshot} {selection : Selection} (hselect : b₂.select snapshot = .ok selection)

include h₁ h₂ hbundle₁ hbundle₂ hkeys hencodings hselect

/-- The same for a subscription that is found, under the key of the first bundle and with values of
    its table. -/
theorem prepare_of_found {later : ConfiguredLedger} {id : Nat} {found : Subscription}
    (hfetch : Ledger.fetch later id = .ok (some found)) (henabled : found.enabled = true)
    (htarget : found.target = .bundle b₁.key) {values : NameMap AbiValue} {slots : List SubSlot}
    (hslots : lib₁.bundleSubSlots bundle₁ = .ok slots)
    (hstored : List.Forall₂ (StoredFor values) slots found.values) (extra : NameMap AbiValue) :
    ((∃ subscription target, prepareExecution lib₂ id bundle₂ snapshot extra later =
        .error (.subscriptionMismatch subscription target)) ↔ b₁.memberIds ≠ b₂.memberIds) ∧
      (b₁.memberIds = b₂.memberIds → ∃ s, lib₂.get selection.strategy = .ok s ∧
        Drives s found (extra.override selection.inputs) later
          (prepareExecution lib₂ id bundle₂ snapshot extra later)) := by
  have hmember := Bundle.mem_of_select hselect
  obtain ⟨m, hm, hstrategy⟩ := Bundle.mem_memberIds.mp hmember
  obtain ⟨s, hget⟩ := Library.exists_member h₂.reachable hbundle₂ hm
  rw [hstrategy] at hget
  have hactive : Manager.loadActive id later = .ok (found, later) :=
    Manager.loadActive_eq_ok_iff.mpr ⟨hfetch, henabled, rfl⟩
  have hdrives : b₁.memberIds = b₂.memberIds →
      Drives s found (extra.override selection.inputs) later
        (prepareExecution lib₂ id bundle₂ snapshot extra later) := by
    intro hids
    rw [(Bundle.key_eq_iff hkeys).mpr hids] at htarget
    have hbuilt := (h₂.built_of_get hget).1
    rw [table_of_member h₁ h₂ hbundle₁ hencodings hids hmember hget hslots] at hstored
    exact drives_of_concludes hbuilt hstored
      (concludes_prepare hbundle₂ hselect hget hbuilt hactive htarget hstored extra)
  refine ⟨⟨?_, ?_⟩, fun hids => ⟨s, hget, hdrives hids⟩⟩
  · intro hmismatch hids
    obtain ⟨subscription, target, hmismatch⟩ := hmismatch
    cases (hdrives hids).faults _ hmismatch
  · intro hids
    have hother : found.target ≠ .bundle b₂.key := by
      intro hsame
      rw [htarget] at hsame
      exact hids ((Bundle.key_eq_iff hkeys).mp (Target.bundle.inj hsame))
    exact ⟨_, _, prepareExecution_eq_mismatch hbundle₂ hselect hget hactive hother extra⟩

/-- **One bundle, in every process.** Take a subscription to a bundle, on after any calls and
    openings of its ledger, and a bundle of another library that selects a member. Without a
    collision of the hash, if the ledger can give the subscription's content back, preparing an
    execution of the second bundle is refused as a mismatch exactly if the ids of the members
    differ; otherwise the member is registered and driven by the subscription, whichever it is. A
    content that tables cannot give back is a fault of its row, whatever the members are. -/
theorem prepare_mismatch_iff_members_differ {owner : Address} {values : NameMap AbiValue}
    {now : Timestamp} {ledger created later : ConfiguredLedger} {id : Nat}
    (hledger : ledger.Reachable)
    (hsubscribe : Manager.subscribeBundle lib₁ bundle₁ owner values now ledger = .ok (id, created))
    (hlater : ConfiguredLedger.Reaches created later) (hon : later.IsOn id)
    (extra : NameMap AbiValue) :
    ∃ slots stored, lib₁.bundleSubSlots bundle₁ = .ok slots ∧
      List.Forall₂ (StoredFor values) slots stored ∧
      (later.GivesBack ⟨.bundle b₁.key, owner, stored, now⟩ →
        ((∃ subscription target, prepareExecution lib₂ id bundle₂ snapshot extra later =
            .error (.subscriptionMismatch subscription target)) ↔ b₁.memberIds ≠ b₂.memberIds) ∧
          (b₁.memberIds = b₂.memberIds → ∃ s found, lib₂.get selection.strategy = .ok s ∧
            Ledger.fetch later id = .ok (some found) ∧ found.values = stored ∧
            Drives s found (extra.override selection.inputs) later
              (prepareExecution lib₂ id bundle₂ snapshot extra later))) ∧
      (¬ later.GivesBack ⟨.bundle b₁.key, owner, stored, now⟩ → ∃ row defect,
        prepareExecution lib₂ id bundle₂ snapshot extra later =
          .error (.corruptRow row defect)) := by
  obtain ⟨slots, stored, inserted, hslots, hstored, hinsert, rfl⟩ :=
    exists_insert_of_subscribeBundle hbundle₁ hsubscribe
  obtain ⟨hfound, hlost⟩ := ConfiguredLedger.fetch_of_isOn hledger hinsert hlater hon
  refine ⟨slots, stored, hslots, hstored, fun hgives => ?_, fun hnot => ?_⟩
  · obtain ⟨found, hfetch, henabled, hkeeps⟩ := hfound hgives
    have hvalues : found.values = stored := hkeeps.values
    rw [← hvalues] at hstored
    obtain ⟨hmismatch, hdrives⟩ := prepare_of_found h₁ h₂ hbundle₁ hbundle₂ hkeys hencodings hselect
      hfetch henabled hkeeps.target hslots hstored extra
    refine ⟨hmismatch, fun hids => ?_⟩
    obtain ⟨s, hget, hdrive⟩ := hdrives hids
    exact ⟨s, found, hget, hfetch, hvalues, hdrive⟩
  · obtain ⟨row, defect, hfetch⟩ := hlost hnot
    obtain ⟨m, hm, hstrategy⟩ := Bundle.mem_memberIds.mp (Bundle.mem_of_select hselect)
    obtain ⟨s, hget⟩ := Library.exists_member h₂.reachable hbundle₂ hm
    rw [hstrategy] at hget
    exact ⟨row, defect, prepareExecution_eq_fetch_error hbundle₂ hselect hget hfetch extra⟩

end TwoLibraries

/-! ## Three processes -/

/-- A bundle of `draw` alone, with a fixed amount. -/
def drawBundle : Bundle :=
  ⟨"draw", [⟨draw.id, "fixed", .always, NameMap.ofList [("amount", .const (.uint 3 256))]⟩]⟩

/-- Another bundle with the same member, which takes the amount from the snapshot. -/
def observingBundle : Bundle :=
  ⟨"observe", [⟨draw.id, "observed", .always, NameMap.ofList [("amount", .snapshot "debt")]⟩]⟩

/-- A bundle of another strategy. -/
def ratioBundle : Bundle :=
  ⟨"ratio", [⟨ratio.id, "only", .always, NameMap.ofList []⟩]⟩

/-- The library in which the subscription is made. -/
def drawLibrary : Library :=
  .sole draw [drawBundle]

/-- The library of a later process, which has the member under another number. -/
def laterLibrary : Library :=
  .sole draw [⟨"twice", drawBundle.members ++ drawBundle.members⟩, observingBundle]

/-- The library of a process that does not know `draw`. -/
def ratioLibrary : Library :=
  .sole ratio [ratioBundle]

theorem bundle_drawLibrary : drawLibrary.bundle 0 = .ok drawBundle :=
  Library.bundle_sole _ _ rfl

theorem bundle_laterLibrary : laterLibrary.bundle 1 = .ok observingBundle :=
  Library.bundle_sole _ _ rfl

theorem bundle_ratioLibrary : ratioLibrary.bundle 0 = .ok ratioBundle :=
  Library.bundle_sole _ _ rfl

theorem published_drawLibrary : drawLibrary.Published :=
  Library.published_sole build_draw (by simp [drawBundle, Library.maxMembers])

theorem published_laterLibrary : laterLibrary.Published :=
  Library.published_sole build_draw (by simp [drawBundle, observingBundle, Library.maxMembers])

theorem published_ratioLibrary : ratioLibrary.Published :=
  Library.published_sole build_ratio (by simp [ratioBundle, Library.maxMembers])

theorem subSlots_drawLibrary : drawLibrary.bundleSubSlots 0 = .ok draw.subSlots :=
  Library.bundleSubSlots_sole rfl nofun (by simp [drawBundle])

theorem subSlots_laterLibrary : laterLibrary.bundleSubSlots 1 = .ok draw.subSlots :=
  Library.bundleSubSlots_sole rfl nofun (by simp [observingBundle])

theorem subSlots_ratioLibrary : ratioLibrary.bundleSubSlots 0 = .ok ratio.subSlots :=
  Library.bundleSubSlots_sole rfl nofun (by simp [ratioBundle])

/-- The members of a bundle of the only strategy have its encoding. -/
theorem memberEncodings_sole {s : Strategy} {bundles : List Bundle} {b : Bundle}
    (h : ∀ m ∈ b.members, m.strategy = s.id) :
    (Library.sole s bundles).memberEncodings b ⊆ {Wire.encode s} := by
  rintro bytes ⟨id, hid, found, hget, rfl⟩
  obtain ⟨m, hm, rfl⟩ := Bundle.mem_memberIds.mp hid
  rw [h m hm, Library.get_sole] at hget
  cases hget
  rfl

/-- Whatever is a member of either bundle is `draw`. -/
theorem subsingleton_encodings :
    (drawLibrary.memberEncodings drawBundle ∪
      laterLibrary.memberEncodings observingBundle).Subsingleton :=
  Set.subsingleton_singleton.anti (Set.union_subset (memberEncodings_sole (by simp [drawBundle]))
    (memberEncodings_sole (by simp [observingBundle])))

/-- Two bundles without a common member: there is no collision among their encodings. -/
theorem injOn_memberEncodings : Set.InjOn Keccak.digest
    (drawLibrary.memberEncodings drawBundle ∪ ratioLibrary.memberEncodings ratioBundle) :=
  injOn_encodings.mono (Set.union_subset_union
    (memberEncodings_sole (by simp [drawBundle])) (memberEncodings_sole (by simp [ratioBundle])))

theorem key_drawBundle : drawBundle.key =
    ⟨0xd89e40f6f0debc654f026f8159bc1df4b68f31383bb9194a0c7a3165125547d6⟩ := by
  have hbytes : drawBundle.keyBytes = wordBytes draw.id.digest := List.append_nil _
  rw [Bundle.key_eq_digest, hbytes, id_draw, Keccak.digest_eq_byPlanes]
  decide +kernel

theorem key_ratioBundle : ratioBundle.key =
    ⟨0x0de5c7cafa2d83ca86266f751217b0614f006eb48cf0a128b8e5039686d5dc96⟩ := by
  have hbytes : ratioBundle.keyBytes = wordBytes ratio.id.digest := List.append_nil _
  rw [Bundle.key_eq_digest, hbytes, id_ratio, Keccak.digest_eq_byPlanes]
  decide +kernel

theorem key_drawBundle_ne_key_ratioBundle : drawBundle.key ≠ ratioBundle.key := by
  rw [key_drawBundle, key_ratioBundle]
  decide

/-- Nor is there one among what is hashed for their keys. -/
theorem injOn_keyBytes : Set.InjOn Keccak.digest {drawBundle.keyBytes, ratioBundle.keyBytes} := by
  rw [Set.injOn_pair]
  intro hdigest
  refine absurd ?_ key_drawBundle_ne_key_ratioBundle
  rw [Bundle.key_eq_digest, Bundle.key_eq_digest, hdigest]

theorem memberIds_ne : drawBundle.memberIds ≠ ratioBundle.memberIds := by
  intro hids
  exact id_draw_ne_id_ratio (List.cons.inj hids).1

/-- What the subscription to `drawBundle` stores. -/
def drawContent : NewSubscription :=
  ⟨.bundle drawBundle.key, 5, [("vault", .uint 9 256)], .epoch⟩

/-- The tables with this subscription. -/
def drawTables : TableLedger :=
  ⟨1, [TableLedger.newRow 1 drawContent], TableLedger.newValueRows 1 drawContent.values⟩

/-- The subscription that the tables hold. -/
def drawStored : Subscription :=
  ⟨1, .bundle drawBundle.key, 5, [("vault", .uint 9 256)], true, .epoch⟩

theorem subscribeBundle_draw : Manager.subscribeBundle drawLibrary 0 5 drawValues .epoch
    (ConfiguredLedger.tables .empty) = .ok (1, .tables drawTables) :=
  Manager.subscribeBundle_eq_ok_iff.mpr ⟨draw.subSlots, drawBundle.key, subSlots_drawLibrary,
    Library.bundleKey_of_bundle bundle_drawLibrary,
    Manager.create_eq_ok_iff.mpr ⟨_, drawStored, rfl, rfl, rfl⟩⟩

/-- Another process, which only reads the tables, finds the subscription. -/
theorem loadActive_drawTables : Manager.loadActive 1 (ConfiguredLedger.readOnly drawTables) =
    .ok (drawStored, .readOnly drawTables) := by
  have hinsert : TableLedger.empty.insert drawContent = .ok (drawStored, drawTables) := rfl
  have htells := (TableLedger.tells_insert TableLedger.tells_empty hinsert).2
  have hrow : drawTables.row? (rowNumber 1) = some (TableLedger.newRow 1 drawContent) := rfl
  have hread := (TableLedger.fetch_of_tells htells (show _ = some drawContent from rfl) hrow rfl).1
    ⟨by decide, by decide⟩
  exact Manager.loadActive_eq_ok_iff.mpr ⟨hread, rfl, rfl⟩

/-- What the later process observes. -/
def debtSnapshot : Snapshot :=
  NameMap.ofList [("debt", .uint 4 256)]

/-- What it selects. -/
def debtSelection : Selection :=
  ⟨0, draw.id, NameMap.ofList [("amount", .uint 4 256)]⟩

/-- What the process selects that does not know `draw`. -/
def ratioSelection : Selection :=
  ⟨0, ratio.id, NameMap.ofList []⟩

theorem prepare_mismatch_iff_members_differ_draw :
    (∃ subscription target, prepareExecution ratioLibrary 1 0 debtSnapshot drawInputs
        (ConfiguredLedger.readOnly drawTables) =
      .error (.subscriptionMismatch subscription target)) ∧
    ∃ s found, laterLibrary.get draw.id = .ok s ∧
      Drives s found (drawInputs.override debtSelection.inputs) (.readOnly drawTables)
        (prepareExecution laterLibrary 1 1 debtSnapshot drawInputs (.readOnly drawTables)) := by
  have hreached : ConfiguredLedger.Reaches (.tables drawTables) (.readOnly drawTables) :=
    .single (.openForReading drawTables)
  have hon : (ConfiguredLedger.readOnly drawTables).IsOn 1 := ⟨_, rfl, rfl⟩
  have hgives : ∀ slots stored, drawLibrary.bundleSubSlots 0 = .ok slots →
      List.Forall₂ (StoredFor drawValues) slots stored →
        (ConfiguredLedger.readOnly drawTables).GivesBack
          ⟨.bundle drawBundle.key, 5, stored, .epoch⟩ := by
    intro slots stored hslots hstored
    rw [subSlots_drawLibrary] at hslots
    cases hslots
    have hdeclared : declaredValues (.bundle drawBundle.key) draw.subSlots drawValues =
        .ok [("vault", .uint 9 256)] := rfl
    rw [storedFor_unique hstored (declaredValues_spec hdeclared)]
    exact ⟨by decide, by decide⟩
  refine ⟨?_, ?_⟩
  · obtain ⟨slots, stored, hslots, hstored, hfound, -⟩ :=
      prepare_mismatch_iff_members_differ published_drawLibrary published_ratioLibrary
        bundle_drawLibrary bundle_ratioLibrary injOn_keyBytes injOn_memberEncodings
        (show ratioBundle.select debtSnapshot = .ok ratioSelection from rfl) (.inr .refl)
        subscribeBundle_draw hreached hon drawInputs
    exact (hfound (hgives slots stored hslots hstored)).1.mpr memberIds_ne
  · obtain ⟨slots, stored, hslots, hstored, hfound, -⟩ :=
      prepare_mismatch_iff_members_differ published_drawLibrary published_laterLibrary
        bundle_drawLibrary bundle_laterLibrary
        (by simp [Bundle.keyBytes, Bundle.memberIds, drawBundle, observingBundle])
        (subsingleton_encodings.injOn _)
        (show observingBundle.select debtSnapshot = .ok debtSelection from rfl) (.inr .refl)
        subscribeBundle_draw hreached hon drawInputs
    obtain ⟨s, found, hget, -, -, hdrives⟩ := (hfound (hgives slots stored hslots hstored)).2 rfl
    exact ⟨s, found, hget, hdrives⟩

/-! ## A value that does not fit -/

/-- An amount that is declared with eight bits and needs nine. -/
def oversized : AbiValue := .uint 300 8

theorem not_readable_of_oversized {new : NewSubscription} {name : String}
    (h : (name, oversized) ∈ new.values) : ¬ new.Readable := by
  intro hreadable
  exact absurd (hreadable.1 _ h).2 (show ¬ oversized.fits = true by decide)

/-- What a subscription to `ratioBundle` stores. -/
def oversizedContent : NewSubscription :=
  ⟨.bundle ratioBundle.key, 5, [("state", oversized)], .epoch⟩

/-- What the subscription is said to be when it is made. -/
def oversizedStored : Subscription :=
  ⟨1, .bundle ratioBundle.key, 5, [("state", oversized)], true, .epoch⟩

/-- The tables with this subscription. -/
def oversizedTables : TableLedger :=
  ⟨1, [TableLedger.newRow 1 oversizedContent], TableLedger.newValueRows 1 oversizedContent.values⟩

/-- A subscription whose value does not fit is accepted and on, and an execution of a bundle with
    another member is not refused as a mismatch: the row cannot be read. -/
theorem prepare_oversized :
    Manager.subscribeBundle ratioLibrary 0 5 (NameMap.ofList [("state", oversized)]) .epoch
        (ConfiguredLedger.tables .empty) = .ok (1, .tables oversizedTables) ∧
      (ConfiguredLedger.tables oversizedTables).IsOn 1 ∧
      (∃ selection, drawBundle.select debtSnapshot = .ok selection) ∧
      (∃ row defect, prepareExecution drawLibrary 1 0 debtSnapshot drawInputs
        (ConfiguredLedger.tables oversizedTables) = .error (.corruptRow row defect)) ∧
      ¬ ((∃ subscription target, prepareExecution drawLibrary 1 0 debtSnapshot drawInputs
          (ConfiguredLedger.tables oversizedTables) =
            .error (.subscriptionMismatch subscription target)) ↔
        ratioBundle.memberIds ≠ drawBundle.memberIds) := by
  have hinsert : TableLedger.empty.insert oversizedContent =
    .ok (oversizedStored, oversizedTables) := rfl
  have htells := (TableLedger.tells_insert TableLedger.tells_empty hinsert).2
  have hrow : oversizedTables.row? (rowNumber 1) = some (TableLedger.newRow 1 oversizedContent) :=
    rfl
  obtain ⟨defect, hread⟩ := (TableLedger.fetch_of_tells htells
    (show _ = some oversizedContent from rfl) hrow rfl).2
      (not_readable_of_oversized List.mem_cons_self)
  have hfetch : Ledger.fetch (ConfiguredLedger.tables oversizedTables) 1 =
    .error (.corruptRow 1 defect) := hread
  have hselect : drawBundle.select debtSnapshot =
      .ok ⟨0, draw.id, NameMap.ofList [("amount", .uint 3 256)]⟩ := rfl
  have hprepare := prepareExecution_eq_fetch_error bundle_drawLibrary hselect
    (Library.get_sole draw [drawBundle]) hfetch drawInputs
  refine ⟨?_, ⟨_, rfl, rfl⟩, ⟨_, hselect⟩, ⟨_, _, hprepare⟩, fun hmismatch => ?_⟩
  · exact Manager.subscribeBundle_eq_ok_iff.mpr ⟨ratio.subSlots, ratioBundle.key,
      subSlots_ratioLibrary, Library.bundleKey_of_bundle bundle_ratioLibrary,
      Manager.create_eq_ok_iff.mpr ⟨_, oversizedStored, rfl, rfl, rfl⟩⟩
  · obtain ⟨subscription, target, hother⟩ := hmismatch.mpr memberIds_ne.symm
    rw [hprepare] at hother
    cases hother

end Autopilot
