/-
  The pass over the operations of a strategy accepts exactly what keeps to the rules.

  The pass goes from left to right with a state: the return types of the actions passed and
  the first type of each placeholder. The rules speak of all operations at once. What ties
  them together is an invariant of the state: its types record exactly the uses passed so
  far (`Records`), so comparing with the first use is comparing with every use, and its
  returns are those of the actions passed. One lemma for each check says when it accepts and
  what it leaves of the invariant; `accepts_check` puts them together.
-/
import Autopilot.Proofs.NameMap
import Autopilot.Proofs.Strategy.WellFormed

namespace Autopilot.Dataflow

open Arguments

/-! ## What the state knows -/

/-- The types are those of the uses. -/
def Records (types : NameMap SlotType) (used : List (String × SlotType)) : Prop :=
  ∀ name type, types.find? name = some type ↔ (name, type) ∈ used

theorem records_empty : Records NameMap.empty [] := by
  intro name type
  simp

theorem Records.oneType {types : NameMap SlotType} {used : List (String × SlotType)}
    (h : Records types used) : OneType used := by
  intro name type type' ht ht'
  have := ((h name type).mpr ht).symm.trans ((h name type').mpr ht')
  exact Option.some.inj this

/-- A use of a name that is recorded already adds nothing. -/
theorem Records.again {types : NameMap SlotType} {used : List (String × SlotType)}
    (h : Records types used) {name : String} {type : SlotType}
    (hfind : types.find? name = some type) : Records types (used ++ [(name, type)]) := by
  intro other type'
  rw [h, List.mem_append, List.mem_singleton]
  have hmem := (h name type).mp hfind
  constructor
  · exact .inl
  · rintro (hused | heq)
    · exact hused
    · rw [heq]; exact hmem

/-- The first use of a name is recorded by filing it. -/
theorem Records.first {types : NameMap SlotType} {used : List (String × SlotType)}
    (h : Records types used) {name : String} (type : SlotType)
    (hfind : types.find? name = none) :
    Records (types.insert name type) (used ++ [(name, type)]) := by
  intro other type'
  rw [NameMap.find?_insert, List.mem_append, List.mem_singleton, Prod.mk.injEq]
  have hfresh : (name, type') ∉ used := by
    intro hmem
    rw [(h name type').mpr hmem] at hfind
    cases hfind
  by_cases hname : other = name
  · subst hname
    rw [if_pos rfl, Option.some.injEq]
    simp [hfresh, eq_comm]
  · rw [if_neg hname, h]
    simp [hname]

/-- Uses with one type each are recorded by filing all of them, in any order. -/
theorem records_ofList {used : List (String × SlotType)} (h : OneType used) :
    Records (NameMap.ofList used) used :=
  fun _ _ => NameMap.find?_ofList_iff h

/-! ## Pipes and unverified inputs -/

theorem accepts_checkTriggerInputs (op : Operation) (args : Arguments) (position : Nat) :
    Accepts (checkTriggerInputs op position args) args.TriggerInputs (fun _ => True) := by
  induction args generalizing position with
  | nil => exact accepts_ok (by simp [TriggerInputs]) trivial
  | cons arg rest ih =>
    obtain ⟨binding, param⟩ := arg
    have hcons : TriggerInputs ((binding, param) :: rest) ↔
        ((∀ index, binding ≠ .piped index) ∧
          ∀ name, binding = .placeholder name → param.callerVerified = true) ∧
        TriggerInputs rest :=
      forall_arguments_cons
    cases binding with
    | piped index =>
      refine accepts_error ?_
      simp [hcons]
    | placeholder name =>
      unfold checkTriggerInputs
      by_cases hverified : param.callerVerified = true
      · rw [if_pos hverified]
        exact (ih _).imp (by simp [hcons, hverified]) (fun _ _ h => h)
      · rw [if_neg hverified]
        exact accepts_error (by simp [hcons, hverified])
    | const value => exact (ih _).imp (by simp [hcons]) (fun _ _ h => h)
    | subSlot name => exact (ih _).imp (by simp [hcons]) (fun _ _ h => h)

theorem accepts_expectType (op : Operation) (param : Parameter) (found : SlotType) :
    Accepts (expectType op param found) (param.type = found) (fun _ => True) :=
  accepts_test _ _

theorem pipedType_eq_ok_iff {returns : List (Option SlotType)} {target : Nat} {type : SlotType} :
    pipedType returns target = .ok type ↔
      1 ≤ target ∧ target ≤ returns.length ∧ returns[target - 1]? = some (some type) := by
  cases target with
  | zero => simp [pipedType]
  | succ n =>
    simp only [pipedType, Nat.add_sub_cancel]
    by_cases hown : n + 1 = returns.length + 1
    · rw [if_pos hown]
      simp only [reduceCtorEq, false_iff]
      omega
    · rw [if_neg hown]
      by_cases hlater : returns.length + 1 < n + 1
      · rw [if_pos hlater]
        simp only [reduceCtorEq, false_iff]
        omega
      · rw [if_neg hlater]
        have hlt : n < returns.length := by omega
        rw [List.getElem?_eq_getElem hlt]
        cases returns[n] with
        | none => simp
        | some found =>
          simp only [Except.ok.injEq, Option.some.injEq]
          constructor
          · intro heq
            exact ⟨by omega, by omega, heq⟩
          · exact fun h => h.2.2

theorem pipesBackwards_iff {returns : List (Option SlotType)} {args : Arguments} :
    args.PipesBackwards returns ↔ ∀ binding param, (binding, param) ∈ args →
      ∀ index, binding = .piped index → pipedType returns index = .ok param.type := by
  simp only [PipesBackwards, pipedType_eq_ok_iff]
  constructor
  · rintro h binding param hmem index rfl
    exact h index param hmem
  · intro h index param hmem
    exact h _ param hmem index rfl

theorem accepts_checkPipes (returns : List (Option SlotType)) (op : Operation)
    (args : Arguments) (position : Nat) :
    Accepts (checkPipes returns op position args) (args.PipesBackwards returns)
      (fun _ => True) := by
  induction args generalizing position with
  | nil => exact accepts_ok (by simp [PipesBackwards]) trivial
  | cons arg rest ih =>
    obtain ⟨binding, param⟩ := arg
    have hcons : PipesBackwards returns ((binding, param) :: rest) ↔
        (∀ index, binding = .piped index → pipedType returns index = .ok param.type) ∧
        PipesBackwards returns rest := by
      rw [pipesBackwards_iff, pipesBackwards_iff]
      exact forall_arguments_cons
    cases binding with
    | piped index =>
      unfold checkPipes
      cases htype : pipedType returns index with
      | error cause =>
        refine accepts_error ?_
        simp [hcons, htype]
      | ok type =>
        refine ((accepts_expectType op param type).andThen (fun _ _ => ih (position + 1)) ?_
          ?_).imp ?_ (fun _ _ h => h)
        · intro _ h
          simp only [h]
        · intro e h
          simp only [h]
        · simp [hcons, htype, eq_comm]
    | const value => exact (ih _).imp (by simp [hcons]) (fun _ _ h => h)
    | subSlot name => exact (ih _).imp (by simp [hcons]) (fun _ _ h => h)
    | placeholder name => exact (ih _).imp (by simp [hcons]) (fun _ _ h => h)

/-! ## Constants, sub-slots and placeholders -/

/-- A constant or a sub-slot has the type of the parameter that it fills. -/
def ArgumentTyped (slots : List SubSlot) : Binding → Parameter → Prop
  | .const value, param => param.type = value.slotType
  | .subSlot name, param => slotType? slots name = some param.type
  | _, _ => True

/-- What must hold of the inputs of an operation behind the uses `used`; `own` are the
    placeholders that stand further left in the same operation. -/
structure InputsAgree (slots : List SubSlot) (own : List String)
    (used : List (String × SlotType)) (args : Arguments) : Prop where
  typed : ∀ binding param, (binding, param) ∈ args → ArgumentTyped slots binding param
  once : (args.uses.map (·.1)).Nodup
  fresh : ∀ name ∈ own, name ∉ args.uses.map (·.1)
  oneType : OneType (used ++ args.uses)

section Inputs

variable {slots : List SubSlot} {own : List String} {used : List (String × SlotType)}
  {param : Parameter} {rest : Arguments}

theorem inputsAgree_nil (h : OneType used) : InputsAgree slots own used [] := by
  refine ⟨by simp, List.nodup_nil, by simp [uses], ?_⟩
  simpa [uses] using h

theorem uses_cons_of_none (param : Parameter) {binding : Binding}
    (h : binding.placeholder? = none) : uses ((binding, param) :: rest) = uses rest := by
  unfold uses
  rw [List.filterMap_cons_none]
  simp only [h, Option.map_none]

theorem uses_cons_placeholder (name : String) :
    uses ((.placeholder name, param) :: rest) = (name, param.type) :: uses rest := rfl

theorem inputsAgree_cons_of_none {binding : Binding} (h : binding.placeholder? = none) :
    InputsAgree slots own used ((binding, param) :: rest) ↔
      ArgumentTyped slots binding param ∧ InputsAgree slots own used rest := by
  constructor
  · rintro ⟨htyped, honce, hfresh, hone⟩
    rw [uses_cons_of_none param h] at honce hfresh hone
    obtain ⟨hhead, hrest⟩ := forall_arguments_cons.mp htyped
    exact ⟨hhead, hrest, honce, hfresh, hone⟩
  · rintro ⟨hhead, hrest, honce, hfresh, hone⟩
    rw [← uses_cons_of_none param h] at honce hfresh hone
    exact ⟨forall_arguments_cons.mpr ⟨hhead, hrest⟩, honce, hfresh, hone⟩

theorem inputsAgree_cons_placeholder {name : String} :
    InputsAgree slots own used ((.placeholder name, param) :: rest) ↔
      name ∉ own ∧ InputsAgree slots (name :: own) (used ++ [(name, param.type)]) rest := by
  constructor
  · rintro ⟨htyped, honce, hfresh, hone⟩
    rw [uses_cons_placeholder, List.map_cons, List.nodup_cons] at honce
    rw [uses_cons_placeholder] at hone hfresh
    refine ⟨fun hown => hfresh name hown List.mem_cons_self, ?_, honce.2, ?_, ?_⟩
    · exact (forall_arguments_cons.mp htyped).2
    · intro other hother hmem
      rcases List.mem_cons.mp hother with rfl | hother
      · exact honce.1 hmem
      · exact hfresh other hother (List.mem_cons_of_mem _ hmem)
    · simpa using hone
  · rintro ⟨hown, htyped, honce, hfresh, hone⟩
    refine ⟨forall_arguments_cons.mpr ⟨trivial, htyped⟩, ?_, ?_, ?_⟩
    · rw [uses_cons_placeholder, List.map_cons, List.nodup_cons]
      exact ⟨hfresh name List.mem_cons_self, honce⟩
    · intro other hother hmem
      rw [uses_cons_placeholder, List.map_cons] at hmem
      rcases List.mem_cons.mp hmem with rfl | hmem
      · exact hown hother
      · exact hfresh other (List.mem_cons_of_mem _ hother) hmem
    · rw [uses_cons_placeholder]
      simpa using hone

/-- Only one type goes with the name of a use that agrees with the uses before it. -/
theorem InputsAgree.type_eq {name : String} {type : SlotType}
    (h : InputsAgree slots own (used ++ [(name, param.type)]) rest)
    (hused : (name, type) ∈ used) : type = param.type := by
  refine h.oneType name type param.type ?_ ?_
  · exact List.mem_append_left _ (List.mem_append_left _ hused)
  · exact List.mem_append_left _ (List.mem_append_right _ List.mem_cons_self)

end Inputs

/-- A placeholder is accepted where it is new to the operation and of the type of its uses
    before, and this use is recorded with them. -/
theorem accepts_usePlaceholder (op : Operation) (own : List String) {types : NameMap SlotType}
    {used : List (String × SlotType)} (hrec : Records types used) (name : String)
    (param : Parameter) :
    Accepts (usePlaceholder op own types name param)
      (name ∉ own ∧ ∀ type, (name, type) ∈ used → type = param.type)
      (fun types' => Records types' (used ++ [(name, param.type)])) := by
  unfold usePlaceholder
  by_cases hown : name ∈ own
  · rw [if_pos hown]
    exact accepts_error fun h => h.1 hown
  · rw [if_neg hown]
    cases hfind : types.find? name with
    | some type =>
      have hused : (name, type) ∈ used := (hrec name type).mp hfind
      by_cases htype : type = param.type
      · subst htype
        simp only [if_true]
        refine accepts_ok ⟨hown, ?_⟩ (hrec.again hfind)
        exact fun type' hused' => hrec.oneType name type' param.type hused' hused
      · simp only [htype, if_false]
        exact accepts_error fun h => htype (h.2 type hused)
    | none =>
      refine accepts_ok ⟨hown, ?_⟩ (hrec.first param.type hfind)
      intro type hused
      rw [(hrec name type).mpr hused] at hfind
      cases hfind

/-- The inputs are accepted when they agree with the uses before, and are recorded with them. -/
theorem accepts_checkInputs (slots : List SubSlot) (op : Operation) (args : Arguments)
    (own : List String) (types : NameMap SlotType) (used : List (String × SlotType))
    (hrec : Records types used) :
    Accepts (checkInputs slots op own types args) (InputsAgree slots own used args)
      (fun types' => Records types' (used ++ args.uses)) := by
  induction args generalizing own types used with
  | nil =>
    refine accepts_ok (inputsAgree_nil hrec.oneType) ?_
    simpa [uses] using hrec
  | cons arg rest ih =>
    obtain ⟨binding, param⟩ := arg
    cases binding with
    | const value =>
      rw [inputsAgree_cons_of_none rfl, uses_cons_of_none _ rfl]
      refine (accepts_expectType op param value.slotType).andThen
        (fun _ _ => ih own types used hrec) ?_ ?_
      · intro _ h
        simp only [checkInputs, h]
      · intro e h
        simp only [checkInputs, h]
    | subSlot name =>
      rw [inputsAgree_cons_of_none rfl, uses_cons_of_none _ rfl]
      have harg : ArgumentTyped slots (.subSlot name) param ↔
          slotType? slots name = some param.type := Iff.rfl
      rw [harg]
      unfold checkInputs
      cases htype : slotType? slots name with
      | none =>
        exact accepts_error (by simp)
      | some type =>
        have hexpect : Accepts (expectType op param type) (some type = some param.type)
            (fun _ => True) :=
          (accepts_expectType op param type).imp (by simp [eq_comm]) (fun _ _ h => h)
        refine hexpect.andThen (fun _ _ => ih own types used hrec) ?_ ?_
        · intro _ h
          simp only [h]
        · intro e h
          simp only [h]
    | placeholder name =>
      have happend := List.append_cons used (name, param.type) (uses rest)
      rw [inputsAgree_cons_placeholder, uses_cons_placeholder, happend]
      refine ((accepts_usePlaceholder op own hrec name param).andThen
        (fun types' hrec' => ih (name :: own) types' _ hrec') ?_ ?_).imp ?_ (fun _ _ h => h)
      · intro types' h
        simp only [checkInputs, h]
      · intro e h
        simp only [checkInputs, h]
      · constructor
        · exact fun h => ⟨h.1.1, h.2⟩
        · exact fun h => ⟨⟨h.1, fun _ hused => h.2.type_eq hused⟩, h.2⟩
    | piped index =>
      rw [inputsAgree_cons_of_none rfl, uses_cons_of_none _ rfl]
      exact (ih own types used hrec).imp (by simp [ArgumentTyped]) (fun _ _ h => h)

/-! ## The pass -/

/-- The placeholders of all operations, with the types of the parameters that they fill. -/
def usesOf (ops : List Operation) : List (String × SlotType) :=
  ops.flatMap fun op => uses op.arguments

theorem usesOf_append_singleton (ops : List Operation) (op : Operation) :
    usesOf (ops ++ [op]) = usesOf ops ++ uses op.arguments := by
  unfold usesOf
  rw [List.flatMap_append, List.flatMap_singleton]

theorem usesOf_subset {ops ops' : List Operation} (h : ops ⊆ ops') :
    usesOf ops ⊆ usesOf ops' := by
  intro use huse
  obtain ⟨op, hop, hmem⟩ := List.mem_flatMap.mp huse
  exact List.mem_flatMap.mpr ⟨op, h hop, hmem⟩

/-- The arguments of an operation have the types of their parameters, and none of its
    placeholders stands twice. -/
def InputsSound (slots : List SubSlot) (op : Operation) : Prop :=
  (∀ binding param, (binding, param) ∈ op.arguments → ArgumentTyped slots binding param) ∧
    ((uses op.arguments).map (·.1)).Nodup

/-- What is known of the state behind some operations: the returns and the uses. -/
def Knows (returns : List (Option SlotType)) (used : List (String × SlotType)) (seen : Seen) :
    Prop :=
  seen.returns = returns ∧ Records seen.placeholders used

/-- The common shape of both steps: a check of their own, then the inputs. -/
theorem accepts_step (slots : List SubSlot) (op : Operation) {first : Except Fault Unit}
    {rule : Prop} {seen : Seen} {used : List (String × SlotType)}
    (hfirst : Accepts first rule (fun _ => True)) (hrec : Records seen.placeholders used)
    (returns : List (Option SlotType)) :
    Accepts
      (do
        first
        let types ← checkInputs slots op [] seen.placeholders op.arguments
        pure ⟨returns, types⟩)
      (rule ∧ InputsAgree slots [] used op.arguments)
      (Knows returns (used ++ uses op.arguments)) := by
  have hinputs := accepts_checkInputs slots op op.arguments [] seen.placeholders used hrec
  have hresult : ∀ types, Records types (used ++ uses op.arguments) →
      Accepts (pure ⟨returns, types⟩ : Except Fault Seen) True
        (Knows returns (used ++ uses op.arguments)) :=
    fun types htypes => accepts_ok trivial ⟨rfl, htypes⟩
  exact (hfirst.bind fun _ _ => hinputs.bind hresult).imp (by simp) (fun _ _ h => h)

/-- A pass along operations that are judged behind the uses `used`, by a step that follows
    `rule` and files the returns that `returns` names. -/
theorem accepts_pass (slots : List SubSlot) (step : Seen → Operation → Except Fault Seen)
    (rule : List Operation → Operation → Prop)
    (returns : List Operation → List (Option SlotType)) (used : List (String × SlotType))
    (hstep : ∀ passed seen op, Knows (returns passed) (used ++ usesOf passed) seen →
      Accepts (step seen op)
        (rule passed op ∧ InputsAgree slots [] (used ++ usesOf passed) op.arguments)
        (Knows (returns (passed ++ [op])) (used ++ usesOf passed ++ uses op.arguments)))
    (ops : List Operation) (seen : Seen) (hseen : Knows (returns []) used seen) :
    Accepts (ops.foldlM step seen)
      ((∀ i op, ops[i]? = some op → rule (ops.take i) op) ∧
        (∀ op ∈ ops, InputsSound slots op) ∧ OneType (used ++ usesOf ops))
      (Knows (returns ops) (used ++ usesOf ops)) := by
  have hpass := accepts_foldlM
    (fun passed => Knows (returns passed) (used ++ usesOf passed))
    (fun passed op => rule passed op ∧ InputsAgree slots [] (used ++ usesOf passed) op.arguments)
    (fun passed state op hstate => (hstep passed state op hstate).imp Iff.rfl (by
      intro next _ hnext
      rw [usesOf_append_singleton, ← List.append_assoc]
      exact hnext))
    ops [] seen (by simpa [usesOf] using hseen)
  refine hpass.restate ?_ ?_
  · rintro ⟨hrule, hsound, hone⟩ i op hop
    obtain ⟨htyped, honce⟩ := hsound op (List.mem_of_getElem? hop)
    refine ⟨hrule i op hop, htyped, honce, by simp, hone.mono ?_⟩
    -- the operations up to place `i` are among all operations
    rw [List.nil_append, List.append_assoc, ← usesOf_append_singleton]
    have hpart : ops.take i ++ [op] ⊆ ops := by
      intro other hother
      rcases List.mem_append.mp hother with h | h
      · exact List.mem_of_mem_take h
      · rw [List.mem_singleton.mp h]
        exact List.mem_of_getElem? hop
    exact List.append_subset.mpr ⟨List.subset_append_left _ _,
      List.Subset.trans (usesOf_subset hpart) (List.subset_append_right _ _)⟩
  · intro state hrules hstate
    rw [List.nil_append] at hstate
    refine ⟨⟨fun i op hop => (hrules i op hop).1, ?_, hstate.2.oneType⟩, hstate⟩
    intro op hmem
    obtain ⟨i, hi⟩ := List.getElem?_of_mem hmem
    exact ⟨(hrules i op hi).2.typed, (hrules i op hi).2.once⟩

theorem accepts_checkTrigger {slots : List SubSlot} {seen : Seen} {op : Operation}
    {used : List (String × SlotType)} (h : Knows [] used seen) :
    Accepts (checkTrigger slots seen op)
      (TriggerInputs op.arguments ∧ InputsAgree slots [] used op.arguments)
      (Knows [] (used ++ uses op.arguments)) := by
  unfold checkTrigger
  rw [h.1]
  exact accepts_step slots op (accepts_checkTriggerInputs op op.arguments 1) h.2 []

theorem accepts_checkAction {slots : List SubSlot} {seen : Seen} {op : Operation}
    {returns : List (Option SlotType)} {used : List (String × SlotType)}
    (h : Knows returns used seen) :
    Accepts (checkAction slots seen op)
      (PipesBackwards returns op.arguments ∧ InputsAgree slots [] used op.arguments)
      (Knows (returns ++ [op.signature.returns]) (used ++ uses op.arguments)) := by
  unfold checkAction
  rw [h.1]
  exact accepts_step slots op (accepts_checkPipes returns op op.arguments 1) h.2 _

theorem accepts_checkTriggers (slots : List SubSlot) (triggers : List Operation) :
    Accepts (triggers.foldlM (checkTrigger slots) Seen.none)
      ((∀ op ∈ triggers, TriggerInputs op.arguments) ∧
        (∀ op ∈ triggers, InputsSound slots op) ∧ OneType (usesOf triggers))
      (Knows [] (usesOf triggers)) := by
  have hpass := accepts_pass slots (checkTrigger slots)
    (fun _ op => TriggerInputs op.arguments) (fun _ => []) []
    (fun _ _ _ => accepts_checkTrigger) triggers Seen.none ⟨rfl, records_empty⟩
  refine hpass.imp ?_ (fun _ _ h => h)
  rw [List.nil_append]
  refine and_congr_left' ?_
  constructor
  · intro h op hmem
    obtain ⟨i, hi⟩ := List.getElem?_of_mem hmem
    exact h i op hi
  · exact fun h i op hi => h op (List.mem_of_getElem? hi)

theorem accepts_checkActions {slots : List SubSlot} (actions : List Operation)
    {used : List (String × SlotType)} {seen : Seen} (hseen : Knows [] used seen) :
    Accepts (actions.foldlM (checkAction slots) seen)
      ((∀ i op, actions[i]? = some op →
          PipesBackwards ((actions.take i).map (·.signature.returns)) op.arguments) ∧
        (∀ op ∈ actions, InputsSound slots op) ∧ OneType (used ++ usesOf actions))
      (Knows (actions.map (·.signature.returns)) (used ++ usesOf actions)) :=
  accepts_pass slots (checkAction slots)
    (fun passed op => PipesBackwards (passed.map (·.signature.returns)) op.arguments)
    (fun passed => passed.map (·.signature.returns)) used
    (fun passed _ op hstate => by
      rw [List.map_append]
      exact accepts_checkAction hstate)
    actions seen hseen

/-- The rules that the pass enforces, for all triggers and actions at once. -/
structure Sound (slots : List SubSlot) (triggers actions : List Operation) : Prop where
  trigger_inputs : ∀ op ∈ triggers, TriggerInputs op.arguments
  pipes_backwards : ∀ i op, actions[i]? = some op →
    PipesBackwards ((actions.take i).map (·.signature.returns)) op.arguments
  inputs : ∀ op ∈ triggers ++ actions, InputsSound slots op
  oneType : OneType (usesOf triggers ++ usesOf actions)

/-- The pass accepts exactly what keeps to the rules. -/
theorem accepts_check (slots : List SubSlot) (triggers actions : List Operation) :
    Accepts (check slots triggers actions) (Sound slots triggers actions) (fun _ => True) := by
  unfold check
  refine Accepts.imp ((accepts_checkTriggers slots triggers).bind fun seen hseen =>
    (accepts_checkActions actions hseen).bind fun _ _ => accepts_ok trivial trivial) ?_
    (fun _ _ h => h)
  constructor
  · rintro ⟨⟨htriggers, htin, -⟩, ⟨hpipes, hain, hone⟩, -⟩
    refine ⟨htriggers, hpipes, ?_, hone⟩
    intro op hmem
    exact (List.mem_append.mp hmem).elim (htin op) (hain op)
  · intro h
    refine ⟨⟨h.trigger_inputs, ?_, h.oneType.mono (List.subset_append_left _ _)⟩,
      ⟨h.pipes_backwards, ?_, h.oneType⟩, trivial⟩
    · exact fun op hmem => h.inputs op (List.mem_append_left _ hmem)
    · exact fun op hmem => h.inputs op (List.mem_append_right _ hmem)

end Autopilot.Dataflow
