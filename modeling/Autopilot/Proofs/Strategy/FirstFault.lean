/-
  The fault of a dataflow is true, and it is the first one.

  What can be wrong at an argument is said without the checks: of a trigger (`TriggerFault`), of an
  action behind the actions that it may take values from (`ActionFault`) and of the inputs that
  are no pipes in either (`InputFault`). A fault names its operation, and by position or by name the
  argument, and the rule is broken there. A check that fails has found such a fault, by induction
  along the arguments that are left with those passed kept in view; for placeholders the state of
  the pass stands for all uses before.

  Which operation has the fault is said by `foldlM_eq_error_iff`: the first whose step fails. So
  the operations before it pass by themselves, and what comes behind it has no say
  (`check_finds_first`).
-/
import Autopilot.Proofs.Strategy.Built

namespace Autopilot.Dataflow

open Arguments

/-! ## What can be wrong -/

/-- The argument of an operation at a position, counted from one, with the parameter it fills. -/
def ArgumentAt (op : Operation) (position : Nat) (binding : Binding) (param : Parameter) : Prop :=
  1 ≤ position ∧ op.bindings[position - 1]? = some binding ∧
    op.signature.params[position - 1]? = some param

/-- What is wrong with a pipe to an action behind those that return `returns`. -/
inductive PipeFault (returns : List (Option SlotType)) : Nat → PipeDefect → Prop where
  | indexZero : PipeFault returns 0 .indexZero
  | ownOutput : PipeFault returns (returns.length + 1) .ownOutput
  | later {target : Nat} : returns.length + 1 < target →
      PipeFault returns target (.later target (returns.length + 1))
  | noReturn {target : Nat} : 1 ≤ target → returns[target - 1]? = some none →
      PipeFault returns target (.noReturn target)

/-- What is wrong with the constants, sub-slots and placeholders of an operation behind the
    uses `used`. -/
inductive InputFault (slots : List SubSlot) (used : List (String × SlotType)) (op : Operation) :
    Fault → Prop where
  | constType {position : Nat} {value : AbiValue} {param : Parameter} :
      ArgumentAt op position (.const value) param → param.type ≠ value.slotType →
        InputFault slots used op
          (.typeMismatch (op.name ++ "." ++ param.name) param.type value.slotType)
  | undeclared {position : Nat} {name : String} {param : Parameter} :
      ArgumentAt op position (.subSlot name) param → name ≠ proxySlot →
        (∀ slot ∈ slots, slot.name ≠ name) →
        InputFault slots used op (.undeclaredSubSlot op.name name)
  | slotType {position : Nat} {name : String} {param : Parameter} {type : SlotType} :
      ArgumentAt op position (.subSlot name) param → slotType? slots name = some type →
        param.type ≠ type →
        InputFault slots used op (.typeMismatch (op.name ++ "." ++ param.name) param.type type)
  | duplicate {first second : Nat} {name : String} {param param' : Parameter} :
      ArgumentAt op first (.placeholder name) param →
        ArgumentAt op second (.placeholder name) param' → first < second →
        InputFault slots used op (.duplicateVariable op.name name)
  | placeholderType {position : Nat} {name : String} {param : Parameter} {type : SlotType} :
      ArgumentAt op position (.placeholder name) param → (name, type) ∈ used →
        type ≠ param.type →
        InputFault slots used op (.typeMismatch ("%" ++ name) type param.type)

/-- What is wrong with a trigger behind the uses `used`. -/
inductive TriggerFault (slots : List SubSlot) (used : List (String × SlotType))
    (op : Operation) : Fault → Prop where
  | piped {position target : Nat} {param : Parameter} :
      ArgumentAt op position (.piped target) param →
        TriggerFault slots used op (.invalidPipe op.name position target .inTrigger)
  | unverified {position : Nat} {name : String} {param : Parameter} :
      ArgumentAt op position (.placeholder name) param → param.callerVerified = false →
        TriggerFault slots used op (.unverifiedTriggerInput op.name position)
  | input {fault : Fault} : InputFault slots used op fault → TriggerFault slots used op fault

/-- What is wrong with an action behind those that return `returns` and the uses `used`. -/
inductive ActionFault (slots : List SubSlot) (returns : List (Option SlotType))
    (used : List (String × SlotType)) (op : Operation) : Fault → Prop where
  | pipe {position target : Nat} {param : Parameter} {cause : PipeDefect} :
      ArgumentAt op position (.piped target) param → PipeFault returns target cause →
        ActionFault slots returns used op (.invalidPipe op.name position target cause)
  | pipeType {position target : Nat} {param : Parameter} {type : SlotType} :
      ArgumentAt op position (.piped target) param → 1 ≤ target →
        returns[target - 1]? = some (some type) → param.type ≠ type →
        ActionFault slots returns used op
          (.typeMismatch (op.name ++ "." ++ param.name) param.type type)
  | input {fault : Fault} : InputFault slots used op fault →
      ActionFault slots returns used op fault

/-! ## Positions -/

section Positions

variable {op : Operation} {passed rest : Arguments} {binding : Binding} {param : Parameter}

theorem argumentAt_of_getElem? {i : Nat} (h : op.arguments[i]? = some (binding, param)) :
    ArgumentAt op (i + 1) binding param :=
  ⟨Nat.le_add_left 1 i, List.getElem?_zip_eq_some.mp h⟩

theorem ArgumentAt.mem {position : Nat} (h : ArgumentAt op position binding param) :
    (binding, param) ∈ op.arguments :=
  List.mem_of_getElem? (List.getElem?_zip_eq_some.mpr h.2)

/-- The argument behind those passed. -/
theorem argumentAt_next (h : op.arguments = passed ++ (binding, param) :: rest) :
    ArgumentAt op (passed.length + 1) binding param := by
  refine argumentAt_of_getElem? ?_
  rw [h, List.getElem?_append_right (Nat.le_refl _), Nat.sub_self]
  rfl

theorem exists_argumentAt_of_mem (h : op.arguments = passed ++ rest)
    (hmem : (binding, param) ∈ passed) :
    ∃ position ≤ passed.length, ArgumentAt op position binding param := by
  obtain ⟨i, hi⟩ := List.getElem?_of_mem hmem
  obtain ⟨hlt, -⟩ := List.getElem?_eq_some_iff.mp hi
  refine ⟨i + 1, hlt, argumentAt_of_getElem? ?_⟩
  rw [h, List.getElem?_append_left hlt, hi]

end Positions

/-! ## Single checks -/

section Checks

variable {slots : List SubSlot} {op : Operation} {fault : Fault}

theorem expectType_eq_error_iff {param : Parameter} {found : SlotType} :
    expectType op param found = .error fault ↔ param.type ≠ found ∧
      fault = .typeMismatch (op.name ++ "." ++ param.name) param.type found := by
  unfold expectType
  split
  · next h => simp [h]
  · next h => simp [h, eq_comm]

theorem pipeFault_of_pipedType {returns : List (Option SlotType)} {target : Nat}
    {cause : PipeDefect} (h : pipedType returns target = .error cause) :
    PipeFault returns target cause := by
  cases target with
  | zero =>
    cases h
    exact .indexZero
  | succ n =>
    simp only [pipedType] at h
    split at h
    · next hown =>
      cases h
      rw [hown]
      exact .ownOutput
    · next hown =>
      split at h
      · next hlater =>
        cases h
        exact .later hlater
      · next hlater =>
        have hlt : n < returns.length := by omega
        split at h
        · cases h
        · next hnone =>
          cases h
          refine .noReturn (Nat.le_add_left 1 n) ?_
          rw [Nat.add_sub_cancel, List.getElem?_eq_getElem hlt]
          cases hreturn : returns[n] with
          | none => rfl
          | some type =>
            rw [List.getElem?_eq_getElem hlt, hreturn] at hnone
            exact absurd rfl (hnone type)

theorem triggerFault_of_checkTriggerInputs {used : List (String × SlotType)}
    {passed rest : Arguments} (hargs : op.arguments = passed ++ rest)
    (h : checkTriggerInputs op (passed.length + 1) rest = .error fault) :
    TriggerFault slots used op fault := by
  induction rest generalizing passed with
  | nil => cases h
  | cons arg rest ih =>
    obtain ⟨binding, param⟩ := arg
    have hhere := argumentAt_next hargs
    have hsplit : op.arguments = (passed ++ [(binding, param)]) ++ rest := by simp [hargs]
    have hnext : checkTriggerInputs op (passed.length + 1 + 1) rest = .error fault →
        TriggerFault slots used op fault := by
      intro hrest
      refine ih hsplit ?_
      rwa [List.length_append]
    cases binding with
    | piped target =>
      cases h
      exact .piped hhere
    | placeholder name =>
      unfold checkTriggerInputs at h
      split at h
      · exact hnext h
      · next hverified =>
        cases h
        exact .unverified hhere (by simpa using hverified)
    | const value => exact hnext h
    | subSlot name => exact hnext h

theorem actionFault_of_checkPipes {returns : List (Option SlotType)}
    {used : List (String × SlotType)} {passed rest : Arguments}
    (hargs : op.arguments = passed ++ rest)
    (h : checkPipes returns op (passed.length + 1) rest = .error fault) :
    ActionFault slots returns used op fault := by
  induction rest generalizing passed with
  | nil => cases h
  | cons arg rest ih =>
    obtain ⟨binding, param⟩ := arg
    have hhere := argumentAt_next hargs
    have hsplit : op.arguments = (passed ++ [(binding, param)]) ++ rest := by simp [hargs]
    have hnext : checkPipes returns op (passed.length + 1 + 1) rest = .error fault →
        ActionFault slots returns used op fault := by
      intro hrest
      refine ih hsplit ?_
      rwa [List.length_append]
    cases binding with
    | piped target =>
      unfold checkPipes at h
      split at h
      · next cause hcause =>
        cases h
        exact .pipe hhere (pipeFault_of_pipedType hcause)
      · next type htype =>
        obtain ⟨hpos, -, hreturn⟩ := pipedType_eq_ok_iff.mp htype
        split at h
        · next fault' hfault =>
          cases h
          obtain ⟨hne, rfl⟩ := expectType_eq_error_iff.mp hfault
          exact .pipeType hhere hpos hreturn hne
        · exact hnext h
    | const value => exact hnext h
    | subSlot name => exact hnext h
    | placeholder name => exact hnext h

/-- A name without a type is neither reserved nor declared. -/
theorem slotType?_eq_none_iff {name : String} :
    slotType? slots name = none ↔ name ≠ proxySlot ∧ ∀ slot ∈ slots, slot.name ≠ name := by
  unfold slotType?
  by_cases hname : name = proxySlot
  · simp [hname]
  · simp [hname]

/-- A placeholder is refused where it stands in the same operation already, or was used at
    another type. -/
theorem usePlaceholder_eq_error_iff {own : List String} {types : NameMap SlotType} {name : String}
    {param : Parameter} :
    usePlaceholder op own types name param = .error fault ↔
      (name ∈ own ∧ fault = .duplicateVariable op.name name) ∨
        (name ∉ own ∧ ∃ type, types.find? name = some type ∧ type ≠ param.type ∧
          fault = .typeMismatch ("%" ++ name) type param.type) := by
  unfold usePlaceholder
  by_cases hown : name ∈ own
  · simp [hown, eq_comm]
  · rw [if_neg hown]
    cases types.find? name with
    | none => simp [hown]
    | some type =>
      by_cases htype : type = param.type
      · simp [hown, htype]
      · simp [hown, htype, eq_comm]

/-- The placeholders `own` are those of the arguments passed, whose uses the types record behind
    the uses before the operation. -/
theorem inputFault_of_checkInputs {used : List (String × SlotType)} {passed rest : Arguments}
    {own : List String} {types : NameMap SlotType} (hargs : op.arguments = passed ++ rest)
    (hown : ∀ name, name ∈ own ↔ ∃ param, (Binding.placeholder name, param) ∈ passed)
    (htypes : Records types (used ++ passed.uses))
    (h : checkInputs slots op own types rest = .error fault) :
    InputFault slots used op fault := by
  induction rest generalizing passed own types with
  | nil => cases h
  | cons arg rest ih =>
    obtain ⟨binding, param⟩ := arg
    have hhere := argumentAt_next hargs
    have hsplit : op.arguments = (passed ++ [(binding, param)]) ++ rest := by simp [hargs]
    have huses : uses (passed ++ [(binding, param)]) = uses passed ++ uses [(binding, param)] :=
      List.filterMap_append
    -- behind an argument that is no placeholder nothing has changed
    have hnext : binding.placeholder? = none → checkInputs slots op own types rest = .error fault →
        InputFault slots used op fault := by
      intro hnone hrest
      refine ih hsplit (fun name => ?_) ?_ hrest
      · rw [hown]
        refine exists_congr fun param' => ?_
        have hother : (Binding.placeholder name, param') ≠ (binding, param) := by
          rintro heq
          cases heq
          cases hnone
        simp [hother]
      · rw [huses, uses_cons_of_none param hnone]
        simpa [uses] using htypes
    cases binding with
    | const value =>
      unfold checkInputs at h
      split at h
      · next fault' hfault =>
        cases h
        obtain ⟨hne, rfl⟩ := expectType_eq_error_iff.mp hfault
        exact .constType hhere hne
      · exact hnext rfl h
    | subSlot name =>
      unfold checkInputs at h
      split at h
      · next hnone =>
        cases h
        obtain ⟨hproxy, hslots⟩ := slotType?_eq_none_iff.mp hnone
        exact .undeclared hhere hproxy hslots
      · next type htype =>
        split at h
        · next fault' hfault =>
          cases h
          obtain ⟨hne, rfl⟩ := expectType_eq_error_iff.mp hfault
          exact .slotType hhere htype hne
        · exact hnext rfl h
    | piped target => exact hnext rfl h
    | placeholder name =>
      unfold checkInputs at h
      split at h
      · next fault' hfault =>
        cases h
        rcases usePlaceholder_eq_error_iff.mp hfault with
          ⟨hmem, rfl⟩ | ⟨hnew, type, hfind, hne, rfl⟩
        · obtain ⟨param', hpassed⟩ := (hown name).mp hmem
          obtain ⟨first, hfirst, hat⟩ := exists_argumentAt_of_mem hargs hpassed
          exact .duplicate hat hhere (Nat.lt_succ_of_le hfirst)
        · -- the other type is of a use before the operation, as the name is new to it
          rcases List.mem_append.mp ((htypes name type).mp hfind) with hused | hpassed
          · exact .placeholderType hhere hused hne
          · obtain ⟨param', hmem, -⟩ := mem_uses.mp hpassed
            exact absurd ((hown name).mpr ⟨param', hmem⟩) hnew
      · next types' htypes' =>
        have hrecorded := ((accepts_usePlaceholder op own htypes name param).2 types' htypes').2
        refine ih hsplit (fun other => ?_) ?_ h
        · rw [List.mem_cons, hown]
          constructor
          · rintro (rfl | ⟨param', hmem⟩)
            · exact ⟨param, by simp⟩
            · exact ⟨param', List.mem_append_left _ hmem⟩
          · rintro ⟨param', hmem⟩
            rcases List.mem_append.mp hmem with hmem | hmem
            · exact .inr ⟨param', hmem⟩
            · cases List.mem_singleton.mp hmem
              exact .inl rfl
        · rw [huses, ← List.append_assoc]
          exact hrecorded

end Checks

/-! ## One operation -/

section Steps

variable {slots : List SubSlot} {returns : List (Option SlotType)}
  {used : List (String × SlotType)} {seen : Seen} {op : Operation} {fault : Fault}

/-- The inputs are judged behind the uses before the operation alone. -/
theorem inputFault_of_inputs (hused : Records seen.placeholders used)
    (h : checkInputs slots op [] seen.placeholders op.arguments = .error fault) :
    InputFault slots used op fault := by
  refine inputFault_of_checkInputs (List.nil_append op.arguments).symm (by simp) ?_ h
  simpa [uses] using hused

theorem triggerFault_of_checkTrigger (hseen : Knows [] used seen)
    (h : checkTrigger slots seen op = .error fault) : TriggerFault slots used op fault := by
  unfold checkTrigger at h
  rcases bind_eq_error.mp h with hfirst | ⟨_, -, hrest⟩
  · exact triggerFault_of_checkTriggerInputs (List.nil_append op.arguments).symm hfirst
  · rcases bind_eq_error.mp hrest with hinputs | ⟨_, -, hpure⟩
    · exact .input (inputFault_of_inputs hseen.2 hinputs)
    · cases hpure

theorem actionFault_of_checkAction (hseen : Knows returns used seen)
    (h : checkAction slots seen op = .error fault) : ActionFault slots returns used op fault := by
  unfold checkAction at h
  rw [hseen.1] at h
  rcases bind_eq_error.mp h with hfirst | ⟨_, -, hrest⟩
  · exact actionFault_of_checkPipes (List.nil_append op.arguments).symm hfirst
  · rcases bind_eq_error.mp hrest with hinputs | ⟨_, -, hpure⟩
    · exact .input (inputFault_of_inputs hseen.2 hinputs)
    · cases hpure

end Steps

/-! ## The pass -/

section Pass

variable {slots : List SubSlot} {triggers actions : List Operation} {fault : Fault}

theorem check_eq_ok_iff : check slots triggers actions = .ok () ↔ ∃ seen last,
    triggers.foldlM (checkTrigger slots) Seen.none = .ok seen ∧
      actions.foldlM (checkAction slots) seen = .ok last := by
  unfold check
  rw [bind_eq_ok]
  constructor
  · rintro ⟨seen, hseen, hrest⟩
    obtain ⟨last, hlast, -⟩ := bind_eq_ok.mp hrest
    exact ⟨seen, last, hseen, hlast⟩
  · rintro ⟨seen, last, hseen, hlast⟩
    exact ⟨seen, hseen, bind_eq_ok.mpr ⟨last, hlast, rfl⟩⟩

theorem check_eq_error_iff : check slots triggers actions = .error fault ↔
    triggers.foldlM (checkTrigger slots) Seen.none = .error fault ∨
      ∃ seen, triggers.foldlM (checkTrigger slots) Seen.none = .ok seen ∧
        actions.foldlM (checkAction slots) seen = .error fault := by
  unfold check
  rw [bind_eq_error]
  refine or_congr_right (exists_congr fun seen => and_congr_right fun _ => ?_)
  rw [bind_eq_error]
  constructor
  · rintro (hfails | ⟨_, -, hpure⟩)
    · exact hfails
    · cases hpure
  · exact .inl

/-- The trigger that the pass stops at. -/
theorem trigger_at_fault (h : triggers.foldlM (checkTrigger slots) Seen.none = .error fault) :
    ∃ front op back, triggers = front ++ op :: back ∧ check slots front [] = .ok () ∧
      TriggerFault slots (usesOf front) op fault ∧
      ∀ back' actions', check slots (front ++ op :: back') actions' = .error fault := by
  obtain ⟨front, op, back, mid, hsplit, hfront, hop⟩ := foldlM_eq_error_iff.mp h
  have hknown := ((accepts_checkTriggers slots front).2 mid hfront).2
  refine ⟨front, op, back, hsplit, check_eq_ok_iff.mpr ⟨mid, mid, hfront, rfl⟩,
    triggerFault_of_checkTrigger hknown hop, fun back' actions' => ?_⟩
  exact check_eq_error_iff.mpr (.inl (foldlM_eq_error_iff.mpr
    ⟨front, op, back', mid, rfl, hfront, hop⟩))

/-- The action that the pass stops at, behind triggers that it passes. -/
theorem action_at_fault {seen : Seen}
    (hseen : triggers.foldlM (checkTrigger slots) Seen.none = .ok seen)
    (h : actions.foldlM (checkAction slots) seen = .error fault) :
    ∃ front op back, actions = front ++ op :: back ∧ check slots triggers front = .ok () ∧
      ActionFault slots (front.map (·.signature.returns)) (usesOf triggers ++ usesOf front) op
        fault ∧
      ∀ back', check slots triggers (front ++ op :: back') = .error fault := by
  obtain ⟨front, op, back, mid, hsplit, hfront, hop⟩ := foldlM_eq_error_iff.mp h
  have hbefore := ((accepts_checkTriggers slots triggers).2 seen hseen).2
  have hknown := ((accepts_checkActions front hbefore).2 mid hfront).2
  refine ⟨front, op, back, hsplit, check_eq_ok_iff.mpr ⟨seen, mid, hseen, hfront⟩,
    actionFault_of_checkAction hknown hop, fun back' => ?_⟩
  exact check_eq_error_iff.mpr (.inr ⟨seen, hseen, foldlM_eq_error_iff.mpr
    ⟨front, op, back', mid, rfl, hfront, hop⟩⟩)

/-- A refused dataflow has a trigger or an action at fault. -/
theorem fault_of_check (h : check slots triggers actions = .error fault) :
    (∃ front op back, triggers = front ++ op :: back ∧
      TriggerFault slots (usesOf front) op fault) ∨
    ∃ front op back, actions = front ++ op :: back ∧
      ActionFault slots (front.map (·.signature.returns)) (usesOf triggers ++ usesOf front) op
        fault := by
  rcases check_eq_error_iff.mp h with htriggers | ⟨seen, hseen, hactions⟩
  · obtain ⟨front, op, back, hsplit, -, hfault, -⟩ := trigger_at_fault htriggers
    exact .inl ⟨front, op, back, hsplit, hfault⟩
  · obtain ⟨front, op, back, hsplit, -, hfault, -⟩ := action_at_fault hseen hactions
    exact .inr ⟨front, op, back, hsplit, hfault⟩

/-- **The first fault.** If the dataflow is refused, then an operation breaks the rule that the
    fault names at the argument that it names. The operations before this one pass by themselves,
    and whatever operations follow it, the fault is the same. -/
theorem check_finds_first (h : check slots triggers actions = .error fault) :
    (∃ front op back, triggers = front ++ op :: back ∧ check slots front [] = .ok () ∧
      TriggerFault slots (usesOf front) op fault ∧
      ∀ back' actions', check slots (front ++ op :: back') actions' = .error fault) ∨
    ∃ front op back, actions = front ++ op :: back ∧ check slots triggers front = .ok () ∧
      ActionFault slots (front.map (·.signature.returns)) (usesOf triggers ++ usesOf front) op
        fault ∧
      ∀ back', check slots triggers (front ++ op :: back') = .error fault := by
  rcases check_eq_error_iff.mp h with htriggers | ⟨seen, hseen, hactions⟩
  · exact .inl (trigger_at_fault htriggers)
  · exact .inr (action_at_fault hseen hactions)

end Pass

/-- The actions of `draw`, but the token that is sent is the amount drawn. -/
def crossed : List Operation :=
  draw.actions.take 1 ++ [⟨Catalogue.paying "SendToken" [("token", .address), ("to", .address),
    ("amount", .uint 256)], [.placeholder "amount", .subSlot "proxy", .piped 1]⟩]

/-- The fault of `crossed` is found at its second action, as the first one is that of `draw`. -/
theorem check_finds_first_crossed :
    check draw.subSlots draw.triggers crossed =
        .error (.typeMismatch "%amount" (.uint 256) .address) ∧
      ∃ op, crossed = draw.actions.take 1 ++ [op] ∧
        ActionFault draw.subSlots [some (.uint 256)]
          [("amount", .uint 256), ("manager", .address)] op
          (.typeMismatch "%amount" (.uint 256) .address) := by
  have hcrossed : check draw.subSlots draw.triggers crossed =
      .error (.typeMismatch "%amount" (.uint 256) .address) := rfl
  have hdraw : check draw.subSlots draw.triggers draw.actions = .ok () := rfl
  refine ⟨hcrossed, ?_⟩
  rcases check_finds_first hcrossed with ⟨front, op, back, hsplit, -, -, hstable⟩ |
    ⟨front, op, back, hsplit, -, hfault, hstable⟩
  · have hfails := hstable back draw.actions
    rw [← hsplit, hdraw] at hfails
    cases hfails
  · match front, hsplit with
    | [], hsplit =>
      have hfails := hstable (draw.actions.drop 1)
      cases hsplit
      cases hdraw.symm.trans hfails
    | [_], hsplit =>
      cases hsplit
      exact ⟨_, rfl, hfault⟩
    | _ :: _ :: _, hsplit =>
      have hlength := congrArg List.length hsplit
      rw [show crossed.length = 2 from rfl] at hlength
      simp at hlength

end Autopilot.Dataflow
