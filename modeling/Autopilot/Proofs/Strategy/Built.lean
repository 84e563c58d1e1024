/-
  Built strategies: what is known of a strategy that a build returned.

  `Strategy.Built` holds of exactly those strategies (`build_eq_ok_iff`). Its consequences
  are said for the single binding of an operation: the parameter that it fills, the place of
  its sub-slot in the table, and the action that it is piped from.
-/
import Autopilot.Proofs.Strategy.Building

namespace Autopilot

/-- The strategy is well-formed and has the operations of the catalogue. -/
structure Strategy.Built (s : Strategy) : Prop where
  wellFormed : s.toDraft.WellFormed
  catalogued : s.Catalogued

theorem build_eq_ok_iff {d : Draft} {s : Strategy} :
    d.build = .ok s ↔ s.toDraft = d ∧ s.Built := by
  have hbuild := accepts_build d
  constructor
  · intro h
    obtain ⟨hd, rfl, hs⟩ := hbuild.2 s h
    exact ⟨rfl, hd, hs⟩
  · rintro ⟨rfl, hd, hs⟩
    obtain ⟨s', hs'⟩ := hbuild.1 hd
    obtain ⟨-, heq, hcatalogued⟩ := hbuild.2 s' hs'
    rw [hs', Strategy.eq_of_toDraft_eq hcatalogued hs heq]

/-! ## The catalogue -/

theorem name_bytes_of_find? {kind : OperationKind} {name : String} {signature : Signature}
    (h : Catalogue.find? kind name = some signature) : name.utf8ByteSize ≤ 255 := by
  have hall : ∀ kind, ∀ s ∈ Catalogue.entries kind, s.name.utf8ByteSize ≤ 255 := by
    intro kind
    cases kind with
    | action => decide
    | trigger => decide
  rw [← Catalogue.name_of_find? h]
  exact hall kind signature (List.mem_of_find?_eq_some h)

theorem legal_of_find? {kind : OperationKind} {name : String} {signature : Signature}
    (h : Catalogue.find? kind name = some signature) {param : Parameter}
    (hparam : param ∈ signature.params) : param.type.legal = true := by
  have hall : ∀ kind, ∀ s ∈ Catalogue.entries kind, ∀ p ∈ s.params, p.type.legal = true := by
    intro kind
    cases kind with
    | action => decide
    | trigger => decide
  exact hall kind signature (List.mem_of_find?_eq_some h) param hparam

/-! ## Places in the table -/

/-- In a table with distinct names the place of a name is where it stands. -/
theorem subSlotIndex?_eq_some_iff {s : Strategy} (h : (s.subSlots.map (·.name)).Nodup)
    {name : String} {i : Nat} :
    s.subSlotIndex? name = some i ↔ (s.subSlots.map (·.name))[i]? = some name := by
  unfold Strategy.subSlotIndex?
  rw [List.findIdx?_eq_some_iff_getElem, List.getElem?_map, Option.map_eq_some_iff]
  constructor
  · rintro ⟨hi, hname, -⟩
    exact ⟨s.subSlots[i], List.getElem?_eq_getElem hi, of_decide_eq_true hname⟩
  · rintro ⟨slot, hslot, rfl⟩
    obtain ⟨hi, rfl⟩ := List.getElem?_eq_some_iff.mp hslot
    refine ⟨hi, decide_eq_true rfl, ?_⟩
    intro j hji hsame
    have hj : j < s.subSlots.length := Nat.lt_trans hji hi
    have hdiffer := List.pairwise_iff_getElem.mp h j i (by simpa using hj) (by simpa using hi) hji
    exact hdiffer (by simpa using hsame)

theorem Strategy.toDraft_mem_operations {s : Strategy} {kind : OperationKind} {op : Operation}
    (hop : op ∈ s.ofKind kind) : op.toDraft ∈ s.toDraft.operations kind := by
  rw [operations_toDraft]
  exact List.mem_map_of_mem hop

namespace Strategy.Built

variable {s : Strategy} (h : s.Built)

include h

theorem slots_distinct : (s.subSlots.map (·.name)).Nodup :=
  h.wellFormed.slots_distinct

theorem slots_le : s.subSlots.length ≤ 126 :=
  h.wellFormed.slots_le

theorem triggers_le : s.triggers.length ≤ 255 := by
  have hle := h.wellFormed.triggers_le
  rwa [show s.toDraft.triggers.length = s.triggers.length from List.length_map _] at hle

theorem actions_le : s.actions.length ≤ 127 := by
  have hle := h.wellFormed.actions_le
  rwa [show s.toDraft.actions.length = s.actions.length from List.length_map _] at hle

theorem slot_ne_proxy {slot : SubSlot} (hslot : slot ∈ s.subSlots) : slot.name ≠ proxySlot :=
  (h.wellFormed.slots_named slot hslot).2.1

/-- The rules hold under every name that is one. -/
theorem rename {name : String} (hblank : ∃ c ∈ name.toList, Text.isBlank c = false)
    (hbytes : name.utf8ByteSize ≤ 65535) : ({ s with name := name } : Strategy).Built := by
  have hshaped := h.wellFormed.toShaped
  have hflowing := h.wellFormed.toFlowing
  exact ⟨⟨⟨hblank, hbytes, hshaped.actions_pos, hshaped.actions_le, hshaped.triggers_le,
    hshaped.slots_le, hshaped.slots_named, hshaped.slots_distinct⟩,
    ⟨hflowing.placeholders_once, hflowing.placeholders_typed, hflowing.consts_typed,
      hflowing.slots_typed, hflowing.trigger_inputs, hflowing.pipes_backwards⟩,
    h.wellFormed.catalogued, h.wellFormed.placeholders_named⟩, h.catalogued⟩

/-! ## Arguments -/

variable {kind : OperationKind} {op : Operation}

theorem length_bindings (hop : op ∈ s.ofKind kind) : op.bindings.length = op.signature.arity := by
  obtain ⟨signature, hfind, hlength⟩ :=
    h.wellFormed.catalogued kind _ (Strategy.toDraft_mem_operations hop)
  have hsame : Catalogue.find? kind op.name = some op.signature := h.catalogued kind op hop
  have heq : signature = op.signature := Option.some.inj (hfind.symm.trans hsame)
  rw [← heq]
  exact hlength

theorem bindings_le (hop : op ∈ s.ofKind kind) : op.bindings.length ≤ 255 := by
  have hlength := h.length_bindings hop
  have harity := arity_le_of_find? (h.catalogued kind op hop)
  omega

/-- Every binding fills a parameter. -/
theorem exists_argument (hop : op ∈ s.ofKind kind) {binding : Binding}
    (hbinding : binding ∈ op.bindings) :
    ∃ param ∈ op.signature.params, (binding, param) ∈ op.arguments := by
  obtain ⟨i, hi, rfl⟩ := List.mem_iff_getElem.mp hbinding
  have hlength : op.bindings.length = op.signature.params.length := h.length_bindings hop
  have hi' : i < op.signature.params.length := hlength ▸ hi
  refine ⟨op.signature.params[i], List.getElem_mem hi', ?_⟩
  refine List.mem_iff_getElem.mpr ⟨i, ?_, List.getElem_zip⟩
  unfold Operation.arguments
  rw [List.length_zip]
  omega

theorem const_typed (hop : op ∈ s.ofKind kind) {value : AbiValue} {param : Parameter}
    (harg : (Binding.const value, param) ∈ op.arguments) : value.slotType = param.type := by
  have htyped := h.wellFormed.consts_typed kind _ (Strategy.toDraft_mem_operations hop)
  rw [arguments_toDraft (h.catalogued kind op hop)] at htyped
  exact htyped value param harg

/-- A constant has a legal type, as the parameters of the catalogue do. -/
theorem const_legal (hop : op ∈ s.ofKind kind) {value : AbiValue}
    (hbinding : Binding.const value ∈ op.bindings) : value.slotType.legal = true := by
  obtain ⟨param, hparam, harg⟩ := h.exists_argument hop hbinding
  rw [h.const_typed hop harg]
  exact legal_of_find? (h.catalogued kind op hop) hparam

/-- A sub-slot at a parameter is the owner's, or stands in the table with the parameter's type. -/
theorem slot_typed (hop : op ∈ s.ofKind kind) {name : String} {param : Parameter}
    (harg : (Binding.subSlot name, param) ∈ op.arguments) :
    (name = proxySlot ∧ param.type = .address) ∨
      ∃ slot ∈ s.subSlots, slot.name = name ∧ slot.type = param.type := by
  have htyped := h.wellFormed.slots_typed kind _ (Strategy.toDraft_mem_operations hop)
  rw [arguments_toDraft (h.catalogued kind op hop)] at htyped
  exact htyped name param harg

/-- A sub-slot that is bound is the owner's or stands in the table. -/
theorem slot_declared (hop : op ∈ s.ofKind kind) {name : String}
    (hbinding : Binding.subSlot name ∈ op.bindings) :
    name = proxySlot ∨ ∃ slot ∈ s.subSlots, slot.name = name := by
  obtain ⟨param, -, harg⟩ := h.exists_argument hop hbinding
  rcases h.slot_typed hop harg with ⟨hproxy, -⟩ | ⟨slot, hslot, hname, -⟩
  · exact .inl hproxy
  · exact .inr ⟨slot, hslot, hname⟩

/-- A sub-slot that is bound is the owner's or has a place in the table. -/
theorem exists_place (hop : op ∈ s.ofKind kind) {name : String}
    (hbinding : Binding.subSlot name ∈ op.bindings) :
    name = proxySlot ∨ name ≠ proxySlot ∧ ∃ i < 126, s.subSlotIndex? name = some i := by
  rcases h.slot_declared hop hbinding with hproxy | ⟨slot, hslot, rfl⟩
  · exact .inl hproxy
  · obtain ⟨i, hi, rfl⟩ := List.mem_iff_getElem.mp hslot
    have hle := h.slots_le
    refine .inr ⟨h.slot_ne_proxy hslot, i, by omega, ?_⟩
    rw [subSlotIndex?_eq_some_iff h.slots_distinct, List.getElem?_map,
      List.getElem?_eq_getElem hi]
    rfl

theorem placeholder_bytes (hop : op ∈ s.ofKind kind) {name : String}
    (hbinding : Binding.placeholder name ∈ op.bindings) : name.utf8ByteSize ≤ 255 :=
  (h.wellFormed.placeholders_named kind _ (Strategy.toDraft_mem_operations hop) name hbinding).2

/-- An action is piped from one before it; `i` actions are before the one at place `i`. -/
theorem piped_backwards {i index : Nat} (hop : s.actions[i]? = some op)
    (hbinding : Binding.piped index ∈ op.bindings) : 1 ≤ index ∧ index ≤ i := by
  have hmem : op ∈ s.ofKind .action := List.mem_of_getElem? hop
  obtain ⟨param, -, harg⟩ := h.exists_argument hmem hbinding
  have hdraft : s.toDraft.actions[i]? = some op.toDraft := by
    show (s.actions.map Operation.toDraft)[i]? = some op.toDraft
    rw [List.getElem?_map, hop]
    rfl
  have hpipes := h.wellFormed.pipes_backwards i op.toDraft hdraft
  rw [arguments_toDraft (h.catalogued .action op hmem)] at hpipes
  obtain ⟨hpos, hle, -⟩ := hpipes index param harg
  rw [List.length_map, List.length_take] at hle
  exact ⟨hpos, by omega⟩

/-- A pipe stands in an action only and is counted in seven bits. -/
theorem piped_le (hop : op ∈ s.ofKind kind) {index : Nat}
    (hbinding : Binding.piped index ∈ op.bindings) : 1 ≤ index ∧ index ≤ 127 := by
  cases kind with
  | trigger =>
    obtain ⟨param, -, harg⟩ := h.exists_argument hop hbinding
    have hinputs := h.wellFormed.trigger_inputs op.toDraft (Strategy.toDraft_mem_operations hop)
    rw [arguments_toDraft (h.catalogued .trigger op hop)] at hinputs
    exact absurd rfl ((hinputs _ param harg).1 index)
  | action =>
    obtain ⟨i, hi, rfl⟩ := List.mem_iff_getElem.mp hop
    have hcount := h.actions_le
    have hi' : i < s.actions.length := hi
    obtain ⟨hpos, hle⟩ := h.piped_backwards (List.getElem?_eq_getElem hi') hbinding
    exact ⟨hpos, by omega⟩

/-- All uses of a placeholder are at parameters of one type. -/
theorem oneType : OneType (Dataflow.usesOf s.operations) := by
  have htyped := h.wellFormed.placeholders_typed
  rw [uses_toDraft h.catalogued] at htyped
  unfold Dataflow.usesOf Strategy.operations
  rw [List.flatMap_append]
  exact htyped

/-- The types of the variables are those of all parameters that they fill. -/
theorem variableTypes_eq_some_iff {name : String} {type : SlotType} :
    s.variableTypes.find? name = some type ↔ ∃ op ∈ s.operations, ∃ param,
      (Binding.placeholder name, param) ∈ op.arguments ∧ param.type = type := by
  rw [show s.variableTypes = NameMap.ofList (Dataflow.usesOf s.operations) from rfl,
    Dataflow.records_ofList h.oneType, Dataflow.usesOf, List.mem_flatMap]
  simp only [Arguments.mem_uses]

end Strategy.Built

/-! ## A strategy with every kind of binding -/

/-- Draws an amount from a vault and sends it to the owner, while gas is cheap. -/
def drawDraft : Draft where
  name := "draw"
  flavor := .oneShot
  subSlots := [⟨"vault", .uint 256⟩]
  triggers := [⟨"GasPriceTrigger", [.const (.uint 50 256)]⟩]
  actions := [
    ⟨"MakerGenerate", [.subSlot "vault", .placeholder "amount", .subSlot "proxy",
      .placeholder "manager"]⟩,
    ⟨"SendToken", [.const (.address 7), .subSlot "proxy", .piped 1]⟩]

/-- The strategy that `drawDraft` describes. -/
def draw : Strategy where
  name := "draw"
  flavor := .oneShot
  subSlots := [⟨"vault", .uint 256⟩]
  triggers := [⟨Catalogue.triggering "GasPriceTrigger" [("max_gas_price", .uint 256)],
    [.const (.uint 50 256)]⟩]
  actions := [
    ⟨Catalogue.paying "MakerGenerate" [("vault_id", .uint 256), ("amount", .uint 256),
        ("to", .address), ("manager", .address)],
      [.subSlot "vault", .placeholder "amount", .subSlot "proxy", .placeholder "manager"]⟩,
    ⟨Catalogue.paying "SendToken" [("token", .address), ("to", .address), ("amount", .uint 256)],
      [.const (.address 7), .subSlot "proxy", .piped 1]⟩]

theorem build_draw : drawDraft.build = .ok draw := rfl

/-! ## A strategy with a narrow sub-slot -/

/-- Acts as long as the ratio is on the side of the target that the owner chooses. -/
def ratioDraft : Draft where
  name := "ratio"
  flavor := .oneShot
  subSlots := [⟨"state", .uint 8⟩]
  triggers := [⟨"GasPriceTrigger", [.const (.uint 50 256)]⟩]
  actions := [⟨"AaveV3RatioCheck", [.subSlot "state", .const (.uint 150 256)]⟩]

/-- The strategy that `ratioDraft` describes. -/
def ratio : Strategy where
  name := "ratio"
  flavor := .oneShot
  subSlots := [⟨"state", .uint 8⟩]
  triggers := [⟨Catalogue.triggering "GasPriceTrigger" [("max_gas_price", .uint 256)],
    [.const (.uint 50 256)]⟩]
  actions := [⟨Catalogue.checking "AaveV3RatioCheck" [("ratio_state", .uint 8),
      ("target_ratio", .uint 256)],
    [.subSlot "state", .const (.uint 150 256)]⟩]

theorem build_ratio : ratioDraft.build = .ok ratio := rfl

end Autopilot
