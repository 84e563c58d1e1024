/-
  Faults of drafts: the sorts of fault that building can end with, and whose they are.

  Names and counts, look-ups in the catalogue and the dataflow have ten sorts of fault between
  them (`Fault.IsOfDraft`), and building has no others (`failsWith_build`). In particular a fault
  of building has no offset, so it is told from one that is found while bytes are read.

  Apart from exceeded limits, a refusal that is no defect of the author is a type mismatch, and it
  is met only where an argument has another type than the parameter that it fills
  (`authoringDefect_of_refusal`).

  Exceeded limits are left out there because the definition and its specification part ways: X2.1
  of SPEC_FULL lists `LimitExceeded` among the authoring defects, which must block publishing, and
  `Fault.isAuthoringDefect` does not count it. A strategy with 128 actions is refused for such a
  limit, and the refusal is not called a defect of the author.
-/
import Autopilot.Proofs.Strategy.FirstFault

namespace Autopilot

/-- The sorts of fault that a draft can have. -/
def Fault.IsOfDraft : Fault → Prop
  | .strategyInvalid .. | .limitExceeded .. | .duplicateSubSlot _ | .unknownOperation _
  | .arityMismatch .. | .invalidPipe .. | .unverifiedTriggerInput .. | .undeclaredSubSlot ..
  | .duplicateVariable .. | .typeMismatch .. => True
  | _ => False

/-- The sorts of fault that names, counts and look-ups have, before the dataflow is judged. -/
def Fault.IsOfParts : Fault → Prop
  | .strategyInvalid .. | .limitExceeded .. | .duplicateSubSlot _ | .unknownOperation _
  | .arityMismatch .. => True
  | _ => False

open Fault (IsOfDraft IsOfParts)

theorem isOfDraft_of_isOfParts {fault : Fault} (h : IsOfParts fault) : IsOfDraft fault := by
  cases fault with
  | strategyInvalid | limitExceeded | duplicateSubSlot | unknownOperation | arityMismatch => trivial
  | _ => exact h.elim

/-! ## Name, counts and sub-slots -/

theorem failsWith_checkLimit (what : Counted) (count limit : Nat) :
    FailsWith (checkLimit what count limit) IsOfParts := by
  unfold checkLimit
  split
  · exact failsWith_ok () _
  · exact failsWith_error trivial

theorem failsWith_checkSubSlots (strategy : String) (earlier : List String)
    (slots : List SubSlot) : FailsWith (checkSubSlots strategy earlier slots) IsOfParts := by
  induction slots generalizing earlier with
  | nil => exact failsWith_ok () _
  | cons slot rest ih =>
    unfold checkSubSlots
    split_ifs
    · exact failsWith_error trivial
    · exact failsWith_error trivial
    · exact failsWith_error trivial
    · exact ih (slot.name :: earlier)

theorem failsWith_checkShape (d : Draft) : FailsWith d.checkShape IsOfParts := by
  have hcounts := (failsWith_checkLimit .nameBytes d.name.utf8ByteSize maxStrategyNameBytes).bind
    fun _ => (failsWith_checkLimit .actions d.actions.length maxActions).bind
    fun _ => (failsWith_checkLimit .triggers d.triggers.length maxTriggers).bind
    fun _ => (failsWith_checkLimit .subSlots d.subSlots.length maxSubSlots).bind
    fun _ => failsWith_checkSubSlots d.name [] d.subSlots
  unfold Draft.checkShape
  refine failsWith_unless ?_ (failsWith_unless ?_ hcounts)
  · trivial
  · trivial

/-! ## Looking operations up -/

theorem failsWith_checkPlaceholder (operation : String) (binding : Binding) :
    FailsWith (checkPlaceholder operation binding) IsOfParts := by
  unfold checkPlaceholder
  split
  · split
    · exact failsWith_error trivial
    · exact failsWith_checkLimit _ _ _
  · exact failsWith_ok () _

theorem failsWith_resolve (kind : OperationKind) (op : DraftOperation) :
    FailsWith (op.resolve kind) IsOfParts := by
  unfold DraftOperation.resolve
  split
  · exact failsWith_error trivial
  · refine (failsWith_checkLimit _ _ _).bind fun _ =>
      (failsWith_forM (failsWith_checkPlaceholder _) _).bind fun _ => ?_
    split
    · exact failsWith_ok _ _
    · exact failsWith_error trivial

/-! ## Dataflow -/

namespace Dataflow

variable {slots : List SubSlot} {returns : List (Option SlotType)}
  {used : List (String × SlotType)} {op : Operation} {fault : Fault}

theorem InputFault.isOfDraft (h : InputFault slots used op fault) : IsOfDraft fault := by
  cases h <;> trivial

theorem TriggerFault.isOfDraft (h : TriggerFault slots used op fault) : IsOfDraft fault := by
  cases h with
  | input h => exact h.isOfDraft
  | _ => trivial

theorem ActionFault.isOfDraft (h : ActionFault slots returns used op fault) : IsOfDraft fault := by
  cases h with
  | input h => exact h.isOfDraft
  | _ => trivial

theorem failsWith_check (slots : List SubSlot) (triggers actions : List Operation) :
    FailsWith (check slots triggers actions) IsOfDraft := by
  intro fault h
  rcases fault_of_check h with ⟨_, _, _, -, hfault⟩ | ⟨_, _, _, -, hfault⟩
  · exact hfault.isOfDraft
  · exact hfault.isOfDraft

end Dataflow

/-! ## Building -/

/-- A refused draft has a fault in its parts, or else the strategy that it reads as has one in its
    dataflow. -/
theorem fault_of_build {d : Draft} {fault : Fault} (h : d.build = .error fault) :
    IsOfParts fault ∨ ∃ s : Strategy, s.toDraft = d ∧ s.Catalogued ∧
      Dataflow.check s.subSlots s.triggers s.actions = .error fault := by
  unfold Draft.build at h
  rcases bind_eq_error.mp h with hshape | ⟨_, -, h⟩
  · exact .inl (failsWith_checkShape d fault hshape)
  rcases bind_eq_error.mp h with htriggers | ⟨triggers, htriggers, h⟩
  · exact .inl (failsWith_mapM (failsWith_resolve .trigger) _ fault htriggers)
  rcases bind_eq_error.mp h with hactions | ⟨actions, hactions, h⟩
  · exact .inl (failsWith_mapM (failsWith_resolve .action) _ fault hactions)
  rcases bind_eq_error.mp h with hflow | ⟨_, -, hpure⟩
  · obtain ⟨ht, htcat⟩ := ((accepts_resolve_all .trigger d.triggers).2 triggers htriggers).2
    obtain ⟨ha, hacat⟩ := ((accepts_resolve_all .action d.actions).2 actions hactions).2
    refine .inr ⟨⟨d.name, d.flavor, d.subSlots, triggers, actions⟩, ?_, ?_, hflow⟩
    · unfold Strategy.toDraft
      rw [ht, ha]
    · rintro (_ | _)
      · exact hacat
      · exact htcat
  · cases hpure

/-- Building fails only with the faults of drafts. -/
theorem failsWith_build (d : Draft) : FailsWith d.build IsOfDraft := by
  intro fault h
  rcases fault_of_build h with hparts | ⟨s, -, -, hflow⟩
  · exact isOfDraft_of_isOfParts hparts
  · exact Dataflow.failsWith_check _ _ _ fault hflow

/-! ## Types -/

/-- Every argument that has a type has that of the parameter that it fills. -/
structure Draft.TypesAgree (d : Draft) : Prop where
  consts_typed : ∀ kind, ∀ op ∈ d.operations kind, (op.arguments kind).ConstsTyped
  slots_typed : ∀ kind, ∀ op ∈ d.operations kind, ∀ name param,
    (Binding.subSlot name, param) ∈ op.arguments kind →
      ∀ type, slotType? d.subSlots name = some type → type = param.type
  pipes_typed : ∀ i (op : DraftOperation), d.actions[i]? = some op → ∀ target param,
    (Binding.piped target, param) ∈ op.arguments .action → 1 ≤ target →
      ∀ type, ((d.actions.take i).map (·.returns))[target - 1]? = some (some type) →
        type = param.type
  placeholders_typed : OneType d.uses

section Types

variable {s : Strategy} {op : Operation} {fault : Fault} {kind : OperationKind}
  {used : List (String × SlotType)}

/-- An input at fault in a draft whose types agree is a defect of the author. -/
theorem authoringDefect_of_input (h : s.toDraft.TypesAgree) (hs : s.Catalogued)
    (hop : op ∈ s.ofKind kind) (huses : used ++ Arguments.uses op.arguments ⊆ s.toDraft.uses)
    (hfault : Dataflow.InputFault s.subSlots used op fault) : fault.isAuthoringDefect = true := by
  have hargs : op.toDraft.arguments kind = op.arguments := arguments_toDraft (hs kind op hop)
  have hmem : op.toDraft ∈ s.toDraft.operations kind := by
    rw [Strategy.operations_toDraft]
    exact List.mem_map_of_mem hop
  cases hfault with
  | constType hat hne =>
    exact absurd (h.consts_typed kind _ hmem _ _ (hargs ▸ hat.mem)).symm hne
  | undeclared => rfl
  | slotType hat htype hne =>
    exact absurd (h.slots_typed kind _ hmem _ _ (hargs ▸ hat.mem) _ htype).symm hne
  | duplicate => rfl
  | placeholderType hat hused hne =>
    have huse := Arguments.mem_uses.mpr ⟨_, hat.mem, rfl⟩
    exact absurd (h.placeholders_typed _ _ _ (huses (List.mem_append_left _ hused))
      (huses (List.mem_append_right _ huse))) hne

theorem authoringDefect_of_trigger (h : s.toDraft.TypesAgree) (hs : s.Catalogued)
    {front back : List Operation} (hsplit : s.triggers = front ++ op :: back)
    (hfault : Dataflow.TriggerFault s.subSlots (Dataflow.usesOf front) op fault) :
    fault.isAuthoringDefect = true := by
  have hop : op ∈ s.ofKind .trigger := by simp [Strategy.ofKind, hsplit]
  cases hfault with
  | piped => rfl
  | unverified => rfl
  | input hfault =>
    refine authoringDefect_of_input h hs hop ?_ hfault
    rw [uses_toDraft hs, ← Dataflow.usesOf_append_singleton]
    refine List.Subset.trans (Dataflow.usesOf_subset ?_) (List.subset_append_left _ _)
    simp [hsplit]

theorem authoringDefect_of_action (h : s.toDraft.TypesAgree) (hs : s.Catalogued)
    {front back : List Operation} (hsplit : s.actions = front ++ op :: back)
    (hfault : Dataflow.ActionFault s.subSlots (front.map (·.signature.returns))
      (Dataflow.usesOf s.triggers ++ Dataflow.usesOf front) op fault) :
    fault.isAuthoringDefect = true := by
  have hop : op ∈ s.ofKind .action := by simp [Strategy.ofKind, hsplit]
  cases hfault with
  | pipe => rfl
  | pipeType hat hpos hreturn hne =>
    have hplace : s.toDraft.actions[front.length]? = some op.toDraft := by
      simp [Strategy.toDraft, hsplit]
    have hreturns : (s.toDraft.actions.take front.length).map (·.returns) =
        front.map (·.signature.returns) := by
      rw [returns_take_toDraft hs, hsplit, List.take_left']
      rfl
    have hargs : op.toDraft.arguments .action = op.arguments :=
      arguments_toDraft (hs .action op hop)
    refine absurd (h.pipes_typed _ _ hplace _ _ (hargs ▸ hat.mem) hpos _ ?_).symm hne
    rw [hreturns]
    exact hreturn
  | input hfault =>
    refine authoringDefect_of_input h hs hop ?_ hfault
    rw [uses_toDraft hs, List.append_assoc, ← Dataflow.usesOf_append_singleton]
    refine List.append_subset.mpr ⟨List.subset_append_left _ _,
      List.Subset.trans (Dataflow.usesOf_subset ?_) (List.subset_append_right _ _)⟩
    simp [hsplit]

end Types

/-- **Whose a refusal is.** If a draft is refused for anything but an exceeded limit, then the
    refusal is a defect of the author unless it is a type mismatch; and this is met only if the
    types of the draft do not agree. -/
theorem authoringDefect_of_refusal {d : Draft} {fault : Fault} (h : d.build = .error fault)
    (hlimit : ∀ what limit, fault ≠ .limitExceeded what limit) :
    (fault.isAuthoringDefect = true ↔
      ∀ name expected found, fault ≠ .typeMismatch name expected found) ∧
    (d.TypesAgree → fault.isAuthoringDefect = true) := by
  have hsorts := failsWith_build d fault h
  refine ⟨?_, fun hagree => ?_⟩
  · cases fault with
    | limitExceeded what limit => exact absurd rfl (hlimit what limit)
    | typeMismatch name expected found => simp [Fault.isAuthoringDefect]
    | strategyInvalid | duplicateSubSlot | unknownOperation | arityMismatch | invalidPipe
    | unverifiedTriggerInput | undeclaredSubSlot | duplicateVariable =>
      simp [Fault.isAuthoringDefect]
    | _ => exact hsorts.elim
  · rcases fault_of_build h with hparts | ⟨s, rfl, hs, hflow⟩
    · cases fault with
      | limitExceeded what limit => exact absurd rfl (hlimit what limit)
      | strategyInvalid | duplicateSubSlot | unknownOperation | arityMismatch => rfl
      | _ => exact hparts.elim
    · rcases Dataflow.fault_of_check hflow with ⟨_, _, _, hsplit, hfault⟩ |
        ⟨_, _, _, hsplit, hfault⟩
      · exact authoringDefect_of_trigger hagree hs hsplit hfault
      · exact authoringDefect_of_action hagree hs hsplit hfault

/-- Sends an amount where the token is wanted. -/
def mistyped : Draft where
  name := "send"
  actions := [⟨"SendToken", [.const (.uint 1 256), .subSlot "proxy", .placeholder "amount"]⟩]

/-- A refusal that is no defect of the author. -/
theorem refusal_of_mistyped :
    mistyped.build = .error (.typeMismatch "SendToken.token" .address (.uint 256)) ∧
      (Fault.typeMismatch "SendToken.token" .address (.uint 256)).isAuthoringDefect = false :=
  ⟨rfl, rfl⟩

/-- Sends the value of an action that there is not. -/
def unfounded : Draft where
  name := "send"
  actions := [⟨"SendToken", [.const (.address 7), .subSlot "proxy", .piped 1]⟩]

theorem authoringDefect_of_refusal_unfounded :
    unfounded.build = .error (.invalidPipe "SendToken" 3 1 .ownOutput) ∧
      (Fault.invalidPipe "SendToken" 3 1 .ownOutput).isAuthoringDefect = true := by
  have hbuild : unfounded.build = .error (.invalidPipe "SendToken" 3 1 .ownOutput) := rfl
  exact ⟨hbuild, (authoringDefect_of_refusal hbuild nofun).1.mpr nofun⟩

end Autopilot
