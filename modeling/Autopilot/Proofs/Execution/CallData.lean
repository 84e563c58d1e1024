/-
  The mapping that is written when a strategy is compiled, and the call data that are made
  when it is executed.

  The mapping finds a sub-slot by its place in the strategy's table, the call data take it
  from the subscription by its name; the order of the stored values was chosen when the
  subscription was made, for a bundle from the table of its first member. That all of them
  speak of one value is proved in steps: the words of the call data are the words of the
  resolved parameters (`word_callData`), each binding agrees with its source for a
  subscription that stores the table's names in order (`agrees_of_resolve`), and every
  subscription to the strategy, or to a bundle with it, stores them so and keeps them
  (`Subscribed.stored`).
-/
import Autopilot.Execution.Resolve
import Autopilot.Proofs.Bytes
import Autopilot.Proofs.Library
import Autopilot.Proofs.Strategy.Built
import Autopilot.Proofs.Subscription.Calls
import Autopilot.Proofs.Subscription.Configured
import Autopilot.Proofs.Wire.Sources

namespace Autopilot

/-! ## Words -/

theorem length_abiBytes (v : AbiValue) : v.abiBytes.length = 32 :=
  length_wordBytes _

theorem abiBytes_zero (type : SlotType) : (AbiValue.zero type).abiBytes = List.replicate 32 0 := by
  have hword : (AbiValue.zero type).abiWord = 0 := by
    cases type with
    | uint bits => rfl
    | address => rfl
    | bool => rfl
    | bytes32 => rfl
  unfold AbiValue.abiBytes
  rw [hword]
  decide

theorem length_word (param : ResolvedParam) (type : SlotType) :
    (ResolvedOperation.word param type).length = 32 := by
  cases param with
  | value v => exact length_abiBytes v
  | piped index => exact length_abiBytes _

theorem length_flatten_words {words : List (List UInt8)} (h : ∀ w ∈ words, w.length = 32) :
    words.flatten.length = 32 * words.length := by
  induction words with
  | nil => rfl
  | cons w words ih =>
    rw [List.forall_mem_cons] at h
    rw [List.flatten_cons, List.length_append, h.1, ih h.2, List.length_cons]
    omega

/-- The words of a concatenation are found at the multiples of their length. -/
theorem word_flatten {words : List (List UInt8)} (h : ∀ w ∈ words, w.length = 32) {j : Nat}
    {w : List UInt8} (hw : words[j]? = some w) : (words.flatten.drop (32 * j)).take 32 = w := by
  induction words generalizing j with
  | nil => cases hw
  | cons head words ih =>
    rw [List.forall_mem_cons] at h
    rw [List.flatten_cons]
    cases j with
    | zero =>
      cases hw
      rw [Nat.mul_zero, List.drop_zero, ← h.1, List.take_left]
    | succ j =>
      have hskip : 32 * (j + 1) = head.length + 32 * j := by
        rw [h.1]
        omega
      rw [hskip, List.drop_append, List.drop_of_length_le (by omega), List.nil_append,
        Nat.add_sub_cancel_left]
      exact ih h.2 hw

/-! ## Resolved operations -/

theorem resolve_operation_eq_ok_iff {stored : Subscription} {inputs : NameMap AbiValue}
    {op : Operation} {resolved : ResolvedOperation} :
    op.resolve stored inputs = .ok resolved ↔
      resolved.signature = op.signature ∧
        List.Forall₂ (fun arg param => arg.1.resolve op.name stored inputs arg.2.type = .ok param)
          op.arguments resolved.params := by
  unfold Operation.resolve
  rw [bind_eq_ok]
  constructor
  · rintro ⟨params, hparams, hpure⟩
    cases hpure
    exact ⟨rfl, mapM_eq_ok.mp hparams⟩
  · rintro ⟨hsignature, hparams⟩
    refine ⟨resolved.params, mapM_eq_ok.mpr hparams, ?_⟩
    rw [← hsignature]
    rfl

theorem resolve_strategy_eq_ok {stored : Subscription} {inputs : NameMap AbiValue} {s : Strategy}
    {resolved : ResolvedStrategy} (h : s.resolve stored inputs = .ok resolved) :
    List.Forall₂ (fun op res => op.resolve stored inputs = .ok res) s.triggers resolved.triggers ∧
      List.Forall₂ (fun op res => op.resolve stored inputs = .ok res) s.actions
        resolved.actions := by
  unfold Strategy.resolve at h
  obtain ⟨triggers, htriggers, h⟩ := bind_eq_ok.mp h
  obtain ⟨actions, hactions, h⟩ := bind_eq_ok.mp h
  cases h
  exact ⟨mapM_eq_ok.mp htriggers, mapM_eq_ok.mp hactions⟩

/-- The words of the call data are those of the resolved parameters, in order. -/
theorem word_callData {stored : Subscription} {inputs : NameMap AbiValue} {op : Operation}
    {resolved : ResolvedOperation} (hlength : op.bindings.length = op.signature.arity)
    (h : op.resolve stored inputs = .ok resolved) :
    resolved.callData.length = 32 * op.signature.arity ∧
      ∀ j binding, op.bindings[j]? = some binding →
        ∃ param type, binding.resolve op.name stored inputs type = .ok param ∧
          (resolved.callData.drop (32 * j)).take 32 = ResolvedOperation.word param type := by
  obtain ⟨hsignature, hparams⟩ := resolve_operation_eq_ok_iff.mp h
  have hcount : resolved.params.length = op.signature.arity := by
    rw [← hparams.length_eq]
    unfold Operation.arguments
    rw [List.length_zip, hlength]
    exact Nat.min_self _
  have hwords : ∀ w ∈ List.zipWith (fun param (spec : Parameter) =>
      ResolvedOperation.word param spec.type) resolved.params op.signature.params,
      w.length = 32 := by
    intro w hw
    obtain ⟨j, hj, rfl⟩ := List.mem_iff_getElem.mp hw
    rw [List.getElem_zipWith]
    exact length_word _ _
  have harity : op.signature.params.length = op.signature.arity := rfl
  unfold ResolvedOperation.callData
  rw [hsignature]
  refine ⟨?_, ?_⟩
  · rw [length_flatten_words hwords, List.length_zipWith, hcount, harity, Nat.min_self]
  · intro j binding hbinding
    have hj : j < op.bindings.length := (List.getElem?_eq_some_iff.mp hbinding).1
    have hparam : j < resolved.params.length := by omega
    have hspec : j < op.signature.params.length := by omega
    have harg : j < op.arguments.length := by
      unfold Operation.arguments
      rw [List.length_zip]
      omega
    have hresolve := hparams.get harg hparam
    have hpair : op.arguments.get ⟨j, harg⟩ = (binding, op.signature.params[j]) := by
      have hb : op.bindings[j] = binding := (List.getElem?_eq_some_iff.mp hbinding).2
      rw [← hb]
      exact List.getElem_zip
    rw [hpair] at hresolve
    refine ⟨resolved.params[j], _, hresolve, word_flatten hwords ?_⟩
    rw [List.getElem?_zipWith, List.getElem?_eq_getElem hparam, List.getElem?_eq_getElem hspec]

/-! ## Sources -/

/-- Where the mapping says that a parameter of the action at a position comes from, and the word
    that stands for it in the call data: a fixed or supplied value, nothing yet for the value of
    an earlier action, a stored value by its place, or the owner. -/
def Agrees (stored : Subscription) (inputs : NameMap AbiValue) (position : Nat)
    (binding : Binding) (source : UInt8) (word : List UInt8) : Prop :=
  (source = 0 ∧ ((∃ value, binding = .const value ∧ word = value.abiBytes) ∨
    ∃ name value, binding = .placeholder name ∧ inputs.find? name = some value ∧
      word = value.abiBytes)) ∨
  (1 ≤ source.toNat ∧ source.toNat ≤ 127 ∧ binding = .piped source.toNat ∧
    source.toNat < position ∧ word = List.replicate 32 0) ∨
  (128 ≤ source.toNat ∧ source.toNat ≤ 253 ∧ ∃ name value, binding = .subSlot name ∧
    stored.values[source.toNat - 128]? = some (name, value) ∧ word = value.abiBytes) ∨
  (source = 255 ∧ binding = .subSlot proxySlot ∧
    word = (AbiValue.address stored.owner).abiBytes)

theorem resolve_subSlot {operation name : String} {stored : Subscription}
    {inputs : NameMap AbiValue} {type : SlotType} {param : ResolvedParam}
    (h : (Binding.subSlot name).resolve operation stored inputs type = .ok param) :
    ∃ value, stored.resolve name = .ok value ∧ param = .value value := by
  unfold Binding.resolve at h
  obtain ⟨value, hvalue, h⟩ := bind_eq_ok.mp h
  obtain ⟨-, -, h⟩ := bind_eq_ok.mp h
  cases h
  exact ⟨value, hvalue, rfl⟩

theorem resolve_placeholder {operation name : String} {stored : Subscription}
    {inputs : NameMap AbiValue} {type : SlotType} {param : ResolvedParam}
    (h : (Binding.placeholder name).resolve operation stored inputs type = .ok param) :
    ∃ value, inputs.find? name = some value ∧ param = .value value := by
  unfold Binding.resolve at h
  dsimp only at h
  cases hfind : inputs.find? name with
  | none =>
    rw [hfind] at h
    cases h
  | some value =>
    rw [hfind] at h
    obtain ⟨-, -, h⟩ := bind_eq_ok.mp h
    cases h
    exact ⟨value, rfl, rfl⟩

/-- If the stored names are those of the table, the value of a name is at the name's place. -/
theorem stored_at_place {s : Strategy} (h : s.Built) {stored : Subscription}
    (hnames : stored.values.map (·.1) = s.subSlots.map (·.name)) {name : String}
    (hproxy : name ≠ proxySlot) {i : Nat} (hindex : s.subSlotIndex? name = some i)
    {value : AbiValue} (hresolve : stored.resolve name = .ok value) :
    stored.values[i]? = some (name, value) := by
  have hplace := (subSlotIndex?_eq_some_iff h.slots_distinct).mp hindex
  rw [← hnames, List.getElem?_map, Option.map_eq_some_iff] at hplace
  obtain ⟨p, hp, rfl⟩ := hplace
  have hdistinct : (stored.values.map (·.1)).Nodup := by
    rw [hnames]
    exact h.slots_distinct
  have hfind := find?_eq_some_of_nodup hdistinct (List.mem_of_getElem? hp)
  unfold Subscription.resolve Subscription.value? at hresolve
  rw [if_neg hproxy, hfind] at hresolve
  cases hresolve
  exact hp

/-- Each binding of an action agrees with its source, for a subscription that stores the names of
    the table in order. -/
theorem agrees_binding {s : Strategy} (h : s.Built) {stored : Subscription}
    (hnames : stored.values.map (·.1) = s.subSlots.map (·.name)) {inputs : NameMap AbiValue}
    {i : Nat} {op : Operation} (hop : s.actions[i]? = some op) {binding : Binding}
    (hbinding : binding ∈ op.bindings) {type : SlotType} {param : ResolvedParam}
    (hresolve : binding.resolve op.name stored inputs type = .ok param) :
    Agrees stored inputs (i + 1) binding (Wire.sourceByte s binding)
      (ResolvedOperation.word param type) := by
  have hmem : op ∈ s.ofKind .action := List.mem_of_getElem? hop
  cases binding with
  | const value =>
    cases hresolve
    exact .inl ⟨rfl, .inl ⟨value, rfl, rfl⟩⟩
  | placeholder name =>
    obtain ⟨value, hvalue, rfl⟩ := resolve_placeholder hresolve
    exact .inl ⟨rfl, .inr ⟨name, value, rfl, hvalue, rfl⟩⟩
  | piped index =>
    cases hresolve
    obtain ⟨hpos, hle⟩ := h.piped_le hmem hbinding
    have hbefore := (h.piped_backwards hop hbinding).2
    have hbyte : (Wire.sourceByte s (.piped index)).toNat = index :=
      toNat_ofNat_of_le (n := index) (by omega)
    right
    left
    rw [hbyte]
    exact ⟨hpos, hle, rfl, by omega, abiBytes_zero type⟩
  | subSlot name =>
    obtain ⟨value, hvalue, rfl⟩ := resolve_subSlot hresolve
    rcases h.exists_place hmem hbinding with rfl | ⟨hproxy, j, hj, hindex⟩
    · cases hvalue
      exact .inr (.inr (.inr ⟨rfl, rfl, rfl⟩))
    · have hbyte := Wire.sourceByte_place hproxy hj hindex
      right
      right
      left
      rw [hbyte, Nat.add_sub_cancel_left]
      exact ⟨by omega, by omega, name, value, rfl,
        stored_at_place h hnames hproxy hindex hvalue, rfl⟩

/-- Every action has a row in the mapping and call data of one word for each of its parameters,
    and each word agrees with the source in the row. Actions are counted from one. -/
structure MappingAgrees (s : Strategy) (stored : Subscription) (inputs : NameMap AbiValue)
    (resolved : ResolvedStrategy) : Prop where
  rows : (Wire.paramMapping s).length = s.actions.length
  data : resolved.actionCallData.length = s.actions.length
  words : ∀ (i : Nat) (op : Operation), s.actions[i]? = some op → ∃ sources data,
    (Wire.paramMapping s)[i]? = some sources ∧ resolved.actionCallData[i]? = some data ∧
      op.bindings.length = op.signature.arity ∧ sources.length = op.signature.arity ∧
      data.length = 32 * op.signature.arity ∧
      ∀ (j : Nat) (binding : Binding), op.bindings[j]? = some binding → ∃ source,
        sources[j]? = some source ∧
          Agrees stored inputs (i + 1) binding source ((data.drop (32 * j)).take 32)

theorem agrees_of_resolve {s : Strategy} (h : s.Built) {stored : Subscription}
    (hnames : stored.values.map (·.1) = s.subSlots.map (·.name)) {inputs : NameMap AbiValue}
    {resolved : ResolvedStrategy} (hresolve : s.resolve stored inputs = .ok resolved) :
    MappingAgrees s stored inputs resolved := by
  have hactions := (resolve_strategy_eq_ok hresolve).2
  have hcount := hactions.length_eq
  refine ⟨List.length_map _, ?_, ?_⟩
  · unfold ResolvedStrategy.actionCallData
    rw [List.length_map, hcount]
  · intro i op hop
    have hmem : op ∈ s.ofKind .action := List.mem_of_getElem? hop
    have hlength : op.bindings.length = op.signature.arity := h.length_bindings hmem
    have hi : i < s.actions.length := (List.getElem?_eq_some_iff.mp hop).1
    have hi' : i < resolved.actions.length := by omega
    have hthis : op.resolve stored inputs = .ok resolved.actions[i] := by
      have hget := hactions.get hi hi'
      have heq : s.actions[i] = op := (List.getElem?_eq_some_iff.mp hop).2
      rw [← heq]
      exact hget
    obtain ⟨hdata, hwords⟩ := word_callData hlength hthis
    refine ⟨op.bindings.map (Wire.sourceByte s), resolved.actions[i].callData, ?_, ?_, hlength, ?_,
      hdata, ?_⟩
    · unfold Wire.paramMapping
      rw [List.getElem?_map, hop]
      rfl
    · unfold ResolvedStrategy.actionCallData
      rw [List.getElem?_map, List.getElem?_eq_getElem hi']
      rfl
    · rw [List.length_map, hlength]
    · intro j binding hbinding
      obtain ⟨param, type, hparam, hword⟩ := hwords j binding hbinding
      refine ⟨Wire.sourceByte s binding, ?_, ?_⟩
      · rw [List.getElem?_map, hbinding]
        rfl
      · rw [hword]
        exact agrees_binding h hnames hop (List.mem_of_getElem? hbinding) hparam

/-! ## Subscriptions to a strategy -/

/-- The number was given to a subscription of the owner with these values, to the strategy alone
    or to a bundle that has it as a member. -/
inductive Subscribed (s : Strategy) (owner : Address) (values : NameMap AbiValue)
    (ledger : ConfiguredLedger) (id : Nat) (created : ConfiguredLedger) : Prop where
  | alone (now : Timestamp) :
    Manager.subscribe s owner values now ledger = .ok (id, created) →
      Subscribed s owner values ledger id created
  | member (lib : Library) (bundle : Nat) (b : Bundle) (m : BundleMember) (now : Timestamp) :
    lib.Reachable → lib.bundle bundle = .ok b → m ∈ b.members → lib.get m.strategy = .ok s →
      Manager.subscribeBundle lib bundle owner values now ledger = .ok (id, created) →
        Subscribed s owner values ledger id created

/-- Either way, one insertion with the values of the strategy's own table. -/
theorem Subscribed.exists_insert {s : Strategy} {owner : Address} {values : NameMap AbiValue}
    {ledger created : ConfiguredLedger} {id : Nat}
    (h : Subscribed s owner values ledger id created) :
    ∃ (new : NewSubscription) (inserted : Subscription), new.owner = owner ∧
      List.Forall₂ (StoredFor values) s.subSlots new.values ∧
      Ledger.insert ledger new = .ok (inserted, created) ∧ inserted.id = id := by
  cases h with
  | alone now hcall =>
    obtain ⟨stored, inserted, hstored, hinsert, hid⟩ := Manager.create_eq_ok_iff.mp hcall
    exact ⟨_, inserted, rfl, declaredValues_spec hstored, hinsert, hid⟩
  | member lib bundle b m now hlib hbundle hm hget hcall =>
    obtain ⟨slots, key, hslots, -, hcreate⟩ := Manager.subscribeBundle_eq_ok_iff.mp hcall
    obtain ⟨stored, inserted, hstored, hinsert, hid⟩ := Manager.create_eq_ok_iff.mp hcreate
    have htable : slots = s.subSlots := Library.bundleSubSlots_eq hlib hbundle hm hget hslots
    rw [htable] at hstored
    exact ⟨_, inserted, rfl, declaredValues_spec hstored, hinsert, hid⟩

/-- Whatever happens to the ledger, what is found under the number has the owner and the values
    of the subscription. -/
theorem Subscribed.stored {s : Strategy} {owner : Address} {values : NameMap AbiValue}
    {ledger created later : ConfiguredLedger} {id : Nat}
    (h : Subscribed s owner values ledger id created) (hreachable : ledger.Reachable)
    (hlater : ConfiguredLedger.Reaches created later) {stored : Subscription}
    (hfetch : Ledger.fetch later id = .ok (some stored)) :
    stored.owner = owner ∧ List.Forall₂ (StoredFor values) s.subSlots stored.values := by
  obtain ⟨new, inserted, howner, hvalues, hinsert, rfl⟩ := h.exists_insert
  have hkeeps := ConfiguredLedger.keeps_of_fetch_inserted hreachable hinsert hlater hfetch
  rw [hkeeps.owner, hkeeps.values]
  exact ⟨howner, hvalues⟩

theorem names_of_storedFor {values : NameMap AbiValue} {slots : List SubSlot}
    {stored : List (String × AbiValue)} (h : List.Forall₂ (StoredFor values) slots stored) :
    stored.map (·.1) = slots.map (·.name) := by
  induction h with
  | nil => rfl
  | cons hfirst _ ih => rw [List.map_cons, List.map_cons, ih, hfirst.name]

theorem substitute_eq_ok_iff {σ : Type} [Ledger σ] {s : Strategy} {target : Target} {id : Nat}
    {inputs : NameMap AbiValue} {ledger next : σ} {resolved : ResolvedStrategy} :
    substitute s target id inputs ledger = .ok (resolved, next) ↔
      ∃ stored found, Ledger.fetch ledger id = .ok (some stored) ∧ stored.enabled = true ∧
        stored.target = target ∧ s.resolve stored inputs = .ok found ∧
        resolved = { found with subscription := id } ∧ next = ledger := by
  unfold substitute
  rw [state_bind_eq_ok]
  constructor
  · rintro ⟨stored, mid, hload, hrest⟩
    obtain ⟨hfetch, henabled, rfl⟩ := Manager.loadActive_eq_ok_iff.mp hload
    split at hrest
    · next htarget =>
      obtain ⟨found, mid', hlift, hpure⟩ := state_bind_eq_ok.mp hrest
      obtain ⟨hresolve, rfl⟩ := state_lift_eq_ok.mp hlift
      cases hpure
      exact ⟨stored, found, hfetch, henabled, htarget, hresolve, rfl, rfl⟩
    · cases hrest
  · rintro ⟨stored, found, hfetch, henabled, htarget, hresolve, rfl, rfl⟩
    refine ⟨stored, next, Manager.loadActive_eq_ok_iff.mpr ⟨hfetch, henabled, rfl⟩, ?_⟩
    rw [if_pos htarget]
    exact state_bind_eq_ok.mpr ⟨found, next, state_lift_eq_ok.mpr ⟨hresolve, rfl⟩, rfl⟩

/-- **Mapping and call data.** For a built strategy and any subscription to it, made alone or
    through a bundle and resolved at any later time, the words of the call data are the values
    that the mapping names. -/
theorem callData_agrees_with_mapping {d : Draft} {s : Strategy} (hbuild : d.build = .ok s)
    {owner : Address} {values : NameMap AbiValue} {ledger created later next : ConfiguredLedger}
    {id : Nat} (hreachable : ledger.Reachable)
    (hsubscribed : Subscribed s owner values ledger id created)
    (hlater : ConfiguredLedger.Reaches created later) {target : Target}
    {inputs : NameMap AbiValue} {resolved : ResolvedStrategy}
    (hsubstitute : substitute s target id inputs later = .ok (resolved, next)) :
    ∃ stored, Ledger.fetch later id = .ok (some stored) ∧ stored.owner = owner ∧
      List.Forall₂ (StoredFor values) s.subSlots stored.values ∧
      MappingAgrees s stored inputs resolved := by
  obtain ⟨stored, found, hfetch, -, -, hresolve, rfl, rfl⟩ := substitute_eq_ok_iff.mp hsubstitute
  obtain ⟨howner, hvalues⟩ := hsubscribed.stored hreachable hlater hfetch
  have hbuilt : s.Built := (build_eq_ok_iff.mp hbuild).2
  have hagrees := agrees_of_resolve hbuilt (names_of_storedFor hvalues) hresolve
  exact ⟨stored, hfetch, howner, hvalues, hagrees.rows, hagrees.data, hagrees.words⟩

/-! ## An execution of `draw` -/

/-- The owner's vault. -/
def drawValues : NameMap AbiValue :=
  NameMap.ofList [("vault", .uint 9 256)]

/-- What the keeper supplies. -/
def drawInputs : NameMap AbiValue :=
  NameMap.ofList [("amount", .uint 3 256), ("manager", .address 11)]

/-- The first subscription of a process. -/
def drawSubscription : Subscription :=
  ⟨1, .strategy draw.id, 5, [("vault", .uint 9 256)], true, .epoch⟩

/-- A ledger with that subscription. -/
def drawLedger : ConfiguredLedger :=
  .memory ⟨1, [drawSubscription]⟩

/-- The strategy with the values of the subscription and of the keeper. -/
def drawResolved : ResolvedStrategy where
  strategy := draw.id
  subscription := 1
  triggers := [⟨Catalogue.triggering "GasPriceTrigger" [("max_gas_price", .uint 256)],
    [.value (.uint 50 256)]⟩]
  actions := [
    ⟨Catalogue.paying "MakerGenerate" [("vault_id", .uint 256), ("amount", .uint 256),
        ("to", .address), ("manager", .address)],
      [.value (.uint 9 256), .value (.uint 3 256), .value (.address 5), .value (.address 11)]⟩,
    ⟨Catalogue.paying "SendToken" [("token", .address), ("to", .address), ("amount", .uint 256)],
      [.value (.address 7), .value (.address 5), .piped 1]⟩]

theorem subscribed_draw : Subscribed draw 5 drawValues (.memory .empty) 1 drawLedger := by
  refine .alone .epoch (Manager.create_eq_ok_iff.mpr ⟨_, drawSubscription, ?_, rfl, rfl⟩)
  rfl

theorem substitute_draw :
    substitute draw (.strategy draw.id) 1 drawInputs drawLedger = .ok (drawResolved, drawLedger) :=
  substitute_eq_ok_iff.mpr ⟨drawSubscription, drawResolved, rfl, rfl, rfl, rfl, rfl, rfl⟩

theorem callData_agrees_with_mapping_draw :
    ∃ stored, Ledger.fetch drawLedger 1 = .ok (some stored) ∧ stored.owner = 5 ∧
      List.Forall₂ (StoredFor drawValues) draw.subSlots stored.values ∧
      MappingAgrees draw stored drawInputs drawResolved :=
  callData_agrees_with_mapping build_draw (.inl .refl) subscribed_draw .refl substitute_draw

example : Wire.paramMapping draw = [[128, 0, 255, 0], [0, 255, 1]] := by decide

end Autopilot
