/-
  Building, with every look into the list of return types written as one by position.

  An `Indexed` computation has no outcome, neither a result nor a fault, if it looks at a position
  outside its list. `Indexed.build` judges a draft as `Draft.build` does, but where a pipe points
  to an action it takes the return type from the place before the pipe's target, without asking
  whether there is one. The tests on the target come first, and they are enough: building always
  has an outcome, and it is that of `Draft.build` (`Indexed.build_eq_sure`).
-/
import Autopilot.Proofs.Outcome
import Autopilot.Strategy.Draft

namespace Autopilot

/-- A computation that looks things up by position. It has no outcome if a position is outside. -/
abbrev Indexed (ε α : Type) := ExceptT ε Option α

namespace Indexed

variable {ε ε' α β σ : Type}

/-- A computation that looks nowhere. -/
def sure (x : Except ε α) : Indexed ε α :=
  ExceptT.mk (some x)

/-- The item at a position. -/
def item (xs : List α) (i : Nat) : Indexed ε α :=
  ExceptT.mk (xs[i]?.map .ok)

theorem item_eq_sure {xs : List α} {i : Nat} {x : α} (h : xs[i]? = some x) :
    (item xs i : Indexed ε α) = sure (.ok x) := by
  unfold item
  rw [h]
  rfl

theorem sure_ok_bind (a : α) (f : α → Indexed ε β) : (sure (.ok a) >>= f) = f a := rfl

theorem sure_error_bind (e : ε) (f : α → Indexed ε β) :
    (sure (.error e) >>= f) = sure (.error e) := rfl

theorem sure_bind (x : Except ε α) (f : α → Except ε β) :
    (sure x >>= fun a => sure (f a)) = sure (x >>= f) := by
  cases x with
  | ok a => rfl
  | error e => rfl

theorem sure_adapt (f : ε → ε') (x : Except ε α) : (sure x).adapt f = sure (x.mapError f) := rfl

theorem sure_foldlM (f : σ → α → Except ε σ) (xs : List α) (s : σ) :
    xs.foldlM (fun s x => sure (f s x)) s = sure (xs.foldlM f s) := by
  induction xs generalizing s with
  | nil => rfl
  | cons x xs ih =>
    rw [List.foldlM_cons, List.foldlM_cons, ← sure_bind]
    exact congrArg (_ >>= ·) (funext ih)

/-! ## Pipes -/

/-- The type that a pipe delivers. The return type of an action stands one place before its
    position, as actions are counted from one. -/
def pipedType (returns : List (Option SlotType)) (target : Nat) : Indexed PipeDefect SlotType :=
  let own := returns.length + 1
  if target = 0 then throw .indexZero
  else if target = own then throw .ownOutput
  else if own < target then throw (.later target own)
  else do
    match ← item returns (target - 1) with
    | some type => pure type
    | none => throw (.noReturn target)

/-- What the tests leave over points behind none of the actions that have run. -/
theorem pipedType_eq_sure (returns : List (Option SlotType)) (target : Nat) :
    pipedType returns target = sure (Dataflow.pipedType returns target) := by
  unfold pipedType Dataflow.pipedType
  cases target with
  | zero => rfl
  | succ n =>
    dsimp only
    rw [if_neg (Nat.succ_ne_zero n)]
    split_ifs with hown hlater
    · rfl
    · rfl
    · have hinside : n < returns.length := by omega
      have hitem : returns[n]? = some returns[n] := List.getElem?_eq_getElem hinside
      rw [Nat.add_sub_cancel, item_eq_sure hitem, hitem]
      cases returns[n] with
      | none => rfl
      | some type => rfl

/-- Judges the pipes of an action. -/
def checkPipes (returns : List (Option SlotType)) (op : Operation) (position : Nat) :
    List (Binding × Parameter) → Indexed Fault Unit
  | [] => pure ()
  | (.piped target, param) :: rest => do
    let type ← (pipedType returns target).adapt (.invalidPipe op.name position target)
    sure (Dataflow.expectType op param type)
    checkPipes returns op (position + 1) rest
  | _ :: rest => checkPipes returns op (position + 1) rest

theorem checkPipes_eq_sure (returns : List (Option SlotType)) (op : Operation) (position : Nat)
    (args : List (Binding × Parameter)) :
    checkPipes returns op position args = sure (Dataflow.checkPipes returns op position args) := by
  induction args generalizing position with
  | nil => rfl
  | cons arg rest ih =>
    obtain ⟨binding, param⟩ := arg
    cases binding with
    | piped target =>
      unfold checkPipes Dataflow.checkPipes
      rw [pipedType_eq_sure, sure_adapt]
      cases Dataflow.pipedType returns target with
      | error cause => rfl
      | ok type =>
        rw [show (Except.ok type).mapError (Fault.invalidPipe op.name position target) =
          .ok type from rfl, sure_ok_bind]
        dsimp only
        cases Dataflow.expectType op param type with
        | error fault => rfl
        | ok => exact ih (position + 1)
    | const value => exact ih (position + 1)
    | subSlot name => exact ih (position + 1)
    | placeholder name => exact ih (position + 1)

/-! ## The pass and building -/

/-- Judges one action and records what it returns. -/
def checkAction (slots : List SubSlot) (seen : Dataflow.Seen) (op : Operation) :
    Indexed Fault Dataflow.Seen := do
  checkPipes seen.returns op 1 op.arguments
  let types ← sure (Dataflow.checkInputs slots op [] seen.placeholders op.arguments)
  pure ⟨seen.returns ++ [op.signature.returns], types⟩

theorem checkAction_eq_sure (slots : List SubSlot) (seen : Dataflow.Seen) (op : Operation) :
    checkAction slots seen op = sure (Dataflow.checkAction slots seen op) := by
  unfold checkAction Dataflow.checkAction
  rw [checkPipes_eq_sure, ← sure_bind]
  simp only [← sure_bind]
  rfl

/-- Judges the triggers and then the actions. -/
def check (slots : List SubSlot) (triggers actions : List Operation) : Indexed Fault Unit := do
  let seen ← sure (triggers.foldlM (Dataflow.checkTrigger slots) Dataflow.Seen.none)
  let _ ← actions.foldlM (checkAction slots) seen
  pure ()

theorem check_eq_sure (slots : List SubSlot) (triggers actions : List Operation) :
    check slots triggers actions = sure (Dataflow.check slots triggers actions) := by
  have haction : checkAction slots = fun seen op => sure (Dataflow.checkAction slots seen op) :=
    funext fun seen => funext fun op => checkAction_eq_sure slots seen op
  unfold check Dataflow.check
  simp only [haction, sure_foldlM, ← sure_bind]
  rfl

/-- Builds the strategy that a draft describes. -/
def build (d : Draft) : Indexed Fault Strategy := do
  sure d.checkShape
  let triggers ← sure (d.triggers.mapM (DraftOperation.resolve .trigger))
  let actions ← sure (d.actions.mapM (DraftOperation.resolve .action))
  check d.subSlots triggers actions
  pure ⟨d.name, d.flavor, d.subSlots, triggers, actions⟩

/-- Building looks at no return type that is not there. -/
theorem build_eq_sure (d : Draft) : build d = sure d.build := by
  unfold build Draft.build
  simp only [check_eq_sure, ← sure_bind]
  rfl

end Indexed

end Autopilot
