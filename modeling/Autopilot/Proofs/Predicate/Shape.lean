/-
  Predicates as trees.

  A node is a predicate that stands somewhere in another one, the outermost included. Whatever is
  asked of all nodes (that AND and OR have two parts or more, that keys are names) is a property
  of the outermost one and of all nodes of its parts (`everywhere_iff`), and bounding the height
  lowers the bound by one at each part (`height_le_succ_iff`). Proofs about all predicates go from
  the parts of a predicate to the predicate (`inductionOnParts`).
-/
import Autopilot.Predicate.Basic
import Autopilot.Proofs.Binding

namespace Autopilot

open Binding (IsName)

namespace Predicate

/-- The predicates directly inside a predicate. -/
def parts : Predicate → List Predicate
  | .always => []
  | .atLeast _ _ => []
  | .atMost _ _ => []
  | .all parts => parts
  | .any parts => parts
  | .not part => [part]

/-- The operands of a comparison. -/
def operands : Predicate → List Operand
  | .atLeast left right => [left, right]
  | .atMost left right => [left, right]
  | _ => []

/-- Whether a predicate joins any number of others. -/
def joins : Predicate → Bool
  | .all _ => true
  | .any _ => true
  | _ => false

mutual

/-- The number of levels of a predicate; one that has no parts has a single level. -/
def height : Predicate → Nat
  | .always => 1
  | .atLeast _ _ => 1
  | .atMost _ _ => 1
  | .all parts => greatestHeight parts + 1
  | .any parts => greatestHeight parts + 1
  | .not part => height part + 1

/-- The greatest number of levels in a list of predicates. -/
def greatestHeight : List Predicate → Nat
  | [] => 0
  | part :: rest => max (height part) (greatestHeight rest)

end

mutual

/-- A predicate and all that stand inside it, each as often as it stands there. -/
def nodes : Predicate → List Predicate
  | .always => [.always]
  | .atLeast left right => [.atLeast left right]
  | .atMost left right => [.atMost left right]
  | .all parts => .all parts :: nodesOf parts
  | .any parts => .any parts :: nodesOf parts
  | .not part => .not part :: nodes part

/-- The nodes of a list of predicates. -/
def nodesOf : List Predicate → List Predicate
  | [] => []
  | part :: rest => nodes part ++ nodesOf rest

end

/-- Every node has a property. -/
def Everywhere (holds : Predicate → Prop) (p : Predicate) : Prop :=
  ∀ q ∈ p.nodes, holds q

/-- Each AND and each OR has at least two parts. -/
def Branching (p : Predicate) : Prop :=
  p.Everywhere fun q => q.joins = true → 2 ≤ q.parts.length

/-- Each key that a comparison asks for is a name. -/
def KeysAreNames (p : Predicate) : Prop :=
  p.Everywhere fun q => ∀ name, .key name ∈ q.operands → IsName name

/-! ## From the parts to the whole -/

theorem sizeOf_lt_of_mem_parts {p q : Predicate} (h : q ∈ p.parts) : sizeOf q < sizeOf p := by
  cases p with
  | always => simp [parts] at h
  | atLeast left right => simp [parts] at h
  | atMost left right => simp [parts] at h
  | all parts =>
    have hsize : sizeOf q < sizeOf parts := List.sizeOf_lt_of_mem h
    rw [all.sizeOf_spec]
    omega
  | any parts =>
    have hsize : sizeOf q < sizeOf parts := List.sizeOf_lt_of_mem h
    rw [any.sizeOf_spec]
    omega
  | not part =>
    rw [List.mem_singleton.mp h, not.sizeOf_spec]
    omega

/-- What passes from the parts of a predicate to the predicate holds of all. -/
theorem inductionOnParts {motive : Predicate → Prop}
    (step : ∀ p : Predicate, (∀ q ∈ p.parts, motive q) → motive p) (p : Predicate) : motive p :=
  step p fun q _ => inductionOnParts step q
termination_by sizeOf p
decreasing_by exact sizeOf_lt_of_mem_parts ‹_›

/-! ## Height -/

theorem greatestHeight_le_iff {ps : List Predicate} {n : Nat} :
    greatestHeight ps ≤ n ↔ ∀ p ∈ ps, p.height ≤ n := by
  induction ps with
  | nil => simp [greatestHeight]
  | cons p ps ih => simp [greatestHeight, ih]

theorem height_le_succ_iff {p : Predicate} {n : Nat} :
    p.height ≤ n + 1 ↔ ∀ q ∈ p.parts, q.height ≤ n := by
  cases p with
  | always => simp [height, parts]
  | atLeast left right => simp [height, parts]
  | atMost left right => simp [height, parts]
  | all parts => rw [height, Nat.add_le_add_iff_right, greatestHeight_le_iff, Predicate.parts]
  | any parts => rw [height, Nat.add_le_add_iff_right, greatestHeight_le_iff, Predicate.parts]
  | not part => simp [height, parts]

theorem height_pos (p : Predicate) : 0 < p.height := by
  cases p with
  | always => simp [height]
  | atLeast left right => simp [height]
  | atMost left right => simp [height]
  | all parts => simp [height]
  | any parts => simp [height]
  | not part => simp [height]

/-! ## Nodes -/

theorem nodesOf_eq (ps : List Predicate) : nodesOf ps = ps.flatMap nodes := by
  induction ps with
  | nil => rfl
  | cons p ps ih => rw [nodesOf, ih, List.flatMap_cons]

theorem nodes_eq (p : Predicate) : p.nodes = p :: p.parts.flatMap nodes := by
  cases p with
  | always => rfl
  | atLeast left right => rfl
  | atMost left right => rfl
  | all parts => rw [nodes, nodesOf_eq, Predicate.parts]
  | any parts => rw [nodes, nodesOf_eq, Predicate.parts]
  | not part => rw [nodes, parts, List.flatMap_singleton]

/-- A property of all nodes, one level at a time. -/
theorem everywhere_iff {holds : Predicate → Prop} {p : Predicate} :
    p.Everywhere holds ↔ holds p ∧ ∀ q ∈ p.parts, q.Everywhere holds := by
  unfold Everywhere
  rw [nodes_eq, List.forall_mem_cons, List.forall_mem_flatMap]

end Predicate

end Autopilot
