/-
  Well-formed drafts: the rules that a strategy keeps to, said without the checks.

  `Draft.WellFormed` lists them for a draft, each rule over all operations, all pairs of
  operations or all bindings at once. Nothing in it depends on an order of checking or on
  what a check has seen before. `Strategy.toDraft` is the draft that a strategy reads as,
  and `Strategy.Catalogued` says that its operations carry the signatures of the catalogue.

  Proved here: the arguments of a catalogued operation are those of its draft
  (`arguments_toDraft`), a catalogued strategy is determined by its draft
  (`Strategy.eq_of_toDraft_eq`), and the type of a sub-slot in a table with distinct usable
  names is the declared one (`slotType?_eq_some_iff`).
-/
import Autopilot.Proofs.Outcome
import Autopilot.Strategy.Draft

namespace Autopilot

/-- The parameters of an operation with the bindings that fill them. -/
abbrev Arguments := List (Binding × Parameter)

/-! ## Rules for the arguments of one operation -/

theorem forall_arguments_cons {rule : Binding → Parameter → Prop} {binding : Binding}
    {param : Parameter} {rest : Arguments} :
    (∀ b p, (b, p) ∈ (binding, param) :: rest → rule b p) ↔
      rule binding param ∧ ∀ b p, (b, p) ∈ rest → rule b p := by
  constructor
  · intro h
    exact ⟨h _ _ List.mem_cons_self, fun b p hmem => h b p (List.mem_cons_of_mem _ hmem)⟩
  · rintro ⟨hhead, hrest⟩ b p hmem
    rcases List.mem_cons.mp hmem with heq | hmem
    · cases heq
      exact hhead
    · exact hrest b p hmem

namespace Arguments

/-- Every constant has the type of its parameter. -/
def ConstsTyped (args : Arguments) : Prop :=
  ∀ value param, (Binding.const value, param) ∈ args → value.slotType = param.type

/-- Every sub-slot is declared with the type of its parameter, or is the owner's at an
    address. -/
def SlotsTyped (slots : List SubSlot) (args : Arguments) : Prop :=
  ∀ name param, (Binding.subSlot name, param) ∈ args →
    (name = proxySlot ∧ param.type = .address) ∨
      ∃ slot ∈ slots, slot.name = name ∧ slot.type = param.type

/-- No argument is piped, and only verified inputs are variables. -/
def TriggerInputs (args : Arguments) : Prop :=
  ∀ binding param, (binding, param) ∈ args →
    (∀ index, binding ≠ .piped index) ∧
      ∀ name, binding = .placeholder name → param.callerVerified = true

/-- Every pipe points to one of the actions before, which are counted from one and return what
    `returns` lists, and the value has the type of the parameter. -/
def PipesBackwards (returns : List (Option SlotType)) (args : Arguments) : Prop :=
  ∀ index param, (Binding.piped index, param) ∈ args →
    1 ≤ index ∧ index ≤ returns.length ∧ returns[index - 1]? = some (some param.type)

/-- The placeholders, with the types of the parameters that they fill. -/
def uses (args : Arguments) : List (String × SlotType) :=
  args.filterMap fun (binding, param) => binding.placeholder?.map fun name => (name, param.type)

theorem mem_uses {args : Arguments} {name : String} {type : SlotType} :
    (name, type) ∈ args.uses ↔
      ∃ param, (Binding.placeholder name, param) ∈ args ∧ param.type = type := by
  unfold uses
  rw [List.mem_filterMap]
  constructor
  · rintro ⟨⟨binding, param⟩, hmem, huse⟩
    cases binding with
    | placeholder other =>
      cases huse
      exact ⟨param, hmem, rfl⟩
    | const value => cases huse
    | subSlot other => cases huse
    | piped index => cases huse
  · rintro ⟨param, hmem, rfl⟩
    exact ⟨_, hmem, rfl⟩

end Arguments

/-- Every name comes with one type only. -/
def OneType (uses : List (String × SlotType)) : Prop :=
  ∀ name type type', (name, type) ∈ uses → (name, type') ∈ uses → type = type'

theorem OneType.mono {uses uses' : List (String × SlotType)} (h : OneType uses)
    (hsub : uses' ⊆ uses) : OneType uses' :=
  fun name type type' ht ht' => h name type type' (hsub ht) (hsub ht')

/-! ## Drafts -/

namespace DraftOperation

/-- The bindings of an operation with the parameters that the catalogue lists for its name. -/
def arguments (kind : OperationKind) (op : DraftOperation) : Arguments :=
  match Catalogue.find? kind op.name with
  | some signature => op.bindings.zip signature.params
  | none => []

/-- What the catalogue says that the action of this name returns. -/
def returns (op : DraftOperation) : Option SlotType :=
  (Catalogue.find? .action op.name).bind (·.returns)

/-- The name is listed for the kind, with as many parameters as there are bindings. -/
def Catalogued (kind : OperationKind) (op : DraftOperation) : Prop :=
  ∃ signature, Catalogue.find? kind op.name = some signature ∧
    op.bindings.length = signature.arity

/-- Every placeholder has a name that can be written. -/
def PlaceholdersNamed (op : DraftOperation) : Prop :=
  ∀ name, Binding.placeholder name ∈ op.bindings → name ≠ "" ∧ name.utf8ByteSize ≤ 255

/-- No placeholder stands twice. -/
def PlaceholdersOnce (op : DraftOperation) : Prop :=
  (op.bindings.filterMap Binding.placeholder?).Nodup

end DraftOperation

namespace Draft

/-- The operations of one kind, in order. -/
def operations (d : Draft) : OperationKind → List DraftOperation
  | .trigger => d.triggers
  | .action => d.actions

/-- The placeholders of all triggers and actions, with the types of the parameters they fill. -/
def uses (d : Draft) : List (String × SlotType) :=
  d.triggers.flatMap (fun op => (op.arguments .trigger).uses) ++
    d.actions.flatMap (fun op => (op.arguments .action).uses)

/-- The rules for the name, the counts and the table of sub-slots. -/
structure Shaped (d : Draft) : Prop where
  name_not_blank : ∃ c ∈ d.name.toList, Text.isBlank c = false
  name_bytes : d.name.utf8ByteSize ≤ 65535
  actions_pos : 1 ≤ d.actions.length
  actions_le : d.actions.length ≤ 127
  triggers_le : d.triggers.length ≤ 255
  slots_le : d.subSlots.length ≤ 126
  slots_named : ∀ slot ∈ d.subSlots,
    slot.name ≠ "" ∧ slot.name ≠ "proxy" ∧ slot.name.utf8ByteSize ≤ 255
  slots_distinct : (d.subSlots.map (·.name)).Nodup

/-- The rules for where the arguments come from. -/
structure Flowing (d : Draft) : Prop where
  placeholders_once : ∀ kind, ∀ op ∈ d.operations kind, op.PlaceholdersOnce
  placeholders_typed : OneType d.uses
  consts_typed : ∀ kind, ∀ op ∈ d.operations kind, (op.arguments kind).ConstsTyped
  slots_typed : ∀ kind, ∀ op ∈ d.operations kind, (op.arguments kind).SlotsTyped d.subSlots
  trigger_inputs : ∀ op ∈ d.triggers, (op.arguments .trigger).TriggerInputs
  /-- The action at place `i`, counted from zero, has the `i` actions before it to pipe from. -/
  pipes_backwards : ∀ i (op : DraftOperation), d.actions[i]? = some op →
    (op.arguments .action).PipesBackwards ((d.actions.take i).map (·.returns))

/-- All the rules that a draft keeps to. -/
structure WellFormed (d : Draft) : Prop extends Shaped d, Flowing d where
  catalogued : ∀ kind, ∀ op ∈ d.operations kind, op.Catalogued kind
  placeholders_named : ∀ kind, ∀ op ∈ d.operations kind, op.PlaceholdersNamed

end Draft

/-! ## Strategies -/

/-- The operation as an author puts it down. -/
def Operation.toDraft (op : Operation) : DraftOperation :=
  ⟨op.name, op.bindings⟩

/-- The operation carries the signature that the catalogue has under its name. -/
def Operation.Catalogued (kind : OperationKind) (op : Operation) : Prop :=
  Catalogue.find? kind op.name = some op.signature

namespace Strategy

/-- The draft that a strategy reads as. -/
def toDraft (s : Strategy) : Draft :=
  ⟨s.name, s.flavor, s.subSlots, s.triggers.map Operation.toDraft,
    s.actions.map Operation.toDraft⟩

/-- The operations of one kind, in order. -/
def ofKind (s : Strategy) : OperationKind → List Operation
  | .trigger => s.triggers
  | .action => s.actions

/-- All operations carry the signatures of the catalogue. -/
def Catalogued (s : Strategy) : Prop :=
  ∀ kind, ∀ op ∈ s.ofKind kind, op.Catalogued kind

theorem exists_kind (s : Strategy) {op : Operation} (h : op ∈ s.operations) :
    ∃ kind, op ∈ s.ofKind kind := by
  rcases List.mem_append.mp h with h | h
  · exact ⟨.trigger, h⟩
  · exact ⟨.action, h⟩

theorem operations_toDraft (s : Strategy) (kind : OperationKind) :
    s.toDraft.operations kind = (s.ofKind kind).map Operation.toDraft := by
  cases kind with
  | action => rfl
  | trigger => rfl

end Strategy

/-! ## Operations and their drafts -/

theorem arguments_toDraft {kind : OperationKind} {op : Operation} (h : op.Catalogued kind) :
    op.toDraft.arguments kind = op.arguments := by
  unfold DraftOperation.arguments
  rw [show Catalogue.find? kind op.toDraft.name = some op.signature from h]
  rfl

theorem returns_toDraft {op : Operation} (h : op.Catalogued .action) :
    op.toDraft.returns = op.signature.returns := by
  unfold DraftOperation.returns
  rw [show Catalogue.find? .action op.toDraft.name = some op.signature from h]
  rfl

theorem Operation.eq_of_toDraft_eq {kind : OperationKind} {op op' : Operation}
    (h : op.Catalogued kind) (h' : op'.Catalogued kind) (heq : op.toDraft = op'.toDraft) :
    op = op' := by
  have hname : op.name = op'.name := congrArg DraftOperation.name heq
  have hbindings : op.bindings = op'.bindings := congrArg DraftOperation.bindings heq
  have hsignature : op.signature = op'.signature := by
    unfold Operation.Catalogued at h h'
    rw [hname, h'] at h
    exact (Option.some.inj h).symm
  cases op
  cases op'
  cases hsignature
  cases hbindings
  rfl

theorem operations_eq_of_toDraft_eq {kind : OperationKind} {ops ops' : List Operation}
    (h : ∀ op ∈ ops, op.Catalogued kind) (h' : ∀ op ∈ ops', op.Catalogued kind)
    (heq : ops.map Operation.toDraft = ops'.map Operation.toDraft) : ops = ops' := by
  induction ops generalizing ops' with
  | nil =>
    cases ops' with
    | nil => rfl
    | cons op' ops' => cases heq
  | cons op ops ih =>
    cases ops' with
    | nil => cases heq
    | cons op' ops' =>
      rw [List.map_cons, List.map_cons, List.cons.injEq] at heq
      have hhead : op = op' :=
        Operation.eq_of_toDraft_eq (h op List.mem_cons_self) (h' op' List.mem_cons_self) heq.1
      have htail : ops = ops' :=
        ih (fun o ho => h o (List.mem_cons_of_mem _ ho))
          (fun o ho => h' o (List.mem_cons_of_mem _ ho)) heq.2
      rw [hhead, htail]

/-- A strategy of the catalogue's operations is determined by its draft. -/
theorem Strategy.eq_of_toDraft_eq {s s' : Strategy} (h : s.Catalogued) (h' : s'.Catalogued)
    (heq : s.toDraft = s'.toDraft) : s = s' := by
  have htriggers : s.triggers = s'.triggers :=
    operations_eq_of_toDraft_eq (h .trigger) (h' .trigger) (congrArg Draft.triggers heq)
  have hactions : s.actions = s'.actions :=
    operations_eq_of_toDraft_eq (h .action) (h' .action) (congrArg Draft.actions heq)
  obtain ⟨name, flavor, slots, triggers, actions⟩ := s
  obtain ⟨name', flavor', slots', triggers', actions'⟩ := s'
  simp only [toDraft, Draft.mk.injEq] at heq
  obtain ⟨rfl, rfl, rfl, -, -⟩ := heq
  cases htriggers
  cases hactions
  rfl

/-! ## Tables of sub-slots -/

/-- Among items with distinct names, an item is found under its name. -/
theorem find?_eq_some_of_nodup {α : Type} {name : α → String} {xs : List α}
    (h : (xs.map name).Nodup) {x : α} (hmem : x ∈ xs) :
    xs.find? (name · = name x) = some x := by
  induction xs with
  | nil => cases hmem
  | cons head rest ih =>
    rw [List.map_cons, List.nodup_cons] at h
    rcases List.mem_cons.mp hmem with rfl | hmem
    · simp
    · have hne : name head ≠ name x := by
        intro heq
        exact h.1 (heq ▸ List.mem_map_of_mem hmem)
      rw [List.find?_cons_of_neg (by simpa using hne)]
      exact ih h.2 hmem

/-- In a table with distinct names, none of them reserved, a name has the declared type. -/
theorem slotType?_eq_some_iff {slots : List SubSlot} (hdistinct : (slots.map (·.name)).Nodup)
    (husable : ∀ slot ∈ slots, slot.name ≠ proxySlot) {name : String} {type : SlotType} :
    slotType? slots name = some type ↔
      (name = proxySlot ∧ type = .address) ∨
        ∃ slot ∈ slots, slot.name = name ∧ slot.type = type := by
  unfold slotType?
  by_cases hname : name = proxySlot
  · subst hname
    rw [if_pos rfl]
    constructor
    · intro h
      exact .inl ⟨rfl, (Option.some.inj h).symm⟩
    · rintro (⟨-, rfl⟩ | ⟨slot, hmem, hslot, -⟩)
      · rfl
      · exact absurd hslot (husable slot hmem)
  · rw [if_neg hname, Option.map_eq_some_iff]
    constructor
    · rintro ⟨slot, hfind, rfl⟩
      refine .inr ⟨slot, List.mem_of_find?_eq_some hfind, ?_, rfl⟩
      simpa using List.find?_some hfind
    · rintro (⟨h, -⟩ | ⟨slot, hmem, rfl, rfl⟩)
      · exact absurd h hname
      · exact ⟨slot, find?_eq_some_of_nodup hdistinct hmem, rfl⟩

end Autopilot
