/-
  What a precondition says, and what it looks at.

  `Holds` is the meaning of a predicate over a snapshot, told without an order of evaluation: a
  comparison holds if both of its sides can be read and stand in order, AND if all of its parts
  hold, OR if one of them does, NOT if its part does not. It is what `holds` decides
  (`holds_eq_true_iff`), however deep the predicate is nested.

  A predicate mentions the keys that its comparisons ask for, and snapshots that agree on these
  cannot be told apart by it (`holds_congr`).
-/
import Autopilot.Proofs.Predicate.Shape

namespace Autopilot.Predicate

/-! ## Meaning -/

/-- The predicate is true of the snapshot. -/
def Holds (snapshot : Snapshot) : Predicate → Prop
  | .always => True
  | .atLeast left right => ∃ l r : Word, left.resolve? snapshot = some l ∧
      right.resolve? snapshot = some r ∧ r ≤ l
  | .atMost left right => ∃ l r : Word, left.resolve? snapshot = some l ∧
      right.resolve? snapshot = some r ∧ l ≤ r
  | .all parts => ∀ part, (_ : part ∈ parts) → Holds snapshot part
  | .any parts => ∃ part, ∃ _ : part ∈ parts, Holds snapshot part
  | .not part => ¬ Holds snapshot part

theorem compare_eq_true_iff {snapshot : Snapshot} {left right : Operand}
    {inOrder : Word → Word → Bool} :
    compare snapshot left right inOrder = true ↔ ∃ l r, left.resolve? snapshot = some l ∧
      right.resolve? snapshot = some r ∧ inOrder l r = true := by
  unfold compare
  cases left.resolve? snapshot with
  | none => simp
  | some l =>
    cases right.resolve? snapshot with
    | none => simp
    | some r => simp

theorem allHold_eq (snapshot : Snapshot) (ps : List Predicate) :
    allHold snapshot ps = ps.all (holds snapshot) := by
  induction ps with
  | nil => rfl
  | cons p ps ih => rw [allHold, ih, List.all_cons]

theorem anyHolds_eq (snapshot : Snapshot) (ps : List Predicate) :
    anyHolds snapshot ps = ps.any (holds snapshot) := by
  induction ps with
  | nil => rfl
  | cons p ps ih => rw [anyHolds, ih, List.any_cons]

/-- Evaluation decides the meaning. -/
theorem holds_eq_true_iff {snapshot : Snapshot} {p : Predicate} :
    p.holds snapshot = true ↔ p.Holds snapshot := by
  induction p using inductionOnParts with
  | step p ih =>
    cases p with
    | always => simp [holds, Holds]
    | atLeast left right =>
      rw [holds, compare_eq_true_iff, Holds]
      simp only [decide_eq_true_eq, BitVec.le_def]
    | atMost left right =>
      rw [holds, compare_eq_true_iff, Holds]
      simp only [decide_eq_true_eq, BitVec.le_def]
    | all parts =>
      rw [holds, allHold_eq, List.all_eq_true, Holds]
      exact forall₂_congr ih
    | any parts =>
      rw [holds, anyHolds_eq, List.any_eq_true, Holds]
      simp only [exists_prop]
      exact exists_congr fun part => and_congr_right (ih part)
    | not part =>
      have hpart : part.holds snapshot = true ↔ part.Holds snapshot :=
        ih part (List.mem_singleton.mpr rfl)
      rw [holds, Bool.not_eq_true', Holds, ← hpart, Bool.not_eq_true]

instance (snapshot : Snapshot) (p : Predicate) : Decidable (p.Holds snapshot) :=
  decidable_of_iff _ holds_eq_true_iff

/-- A comparison with what was not observed does not hold, so its negation does. -/
example : (Predicate.not (.atLeast (.key "debt") (.literal 0))).Holds .empty := by decide

/-! ## Keys -/

/-- Some comparison of the predicate asks for the key. -/
def Mentions (p : Predicate) (key : String) : Prop :=
  ∃ q ∈ p.nodes, .key key ∈ q.operands

theorem mentions_iff {p : Predicate} {key : String} :
    p.Mentions key ↔ .key key ∈ p.operands ∨ ∃ q ∈ p.parts, q.Mentions key := by
  unfold Mentions
  rw [nodes_eq]
  simp only [List.mem_cons, List.mem_flatMap, or_and_right, exists_or, exists_eq_left]
  constructor
  · rintro (hself | ⟨q, ⟨part, hpart, hq⟩, hkey⟩)
    · exact .inl hself
    · exact .inr ⟨part, hpart, q, hq, hkey⟩
  · rintro (hself | ⟨part, hpart, q, hq, hkey⟩)
    · exact .inl hself
    · exact .inr ⟨q, ⟨part, hpart, hq⟩, hkey⟩

theorem resolve?_congr {snapshot snapshot' : Snapshot} {operand : Operand}
    (h : ∀ key, operand = .key key → snapshot.find? key = snapshot'.find? key) :
    operand.resolve? snapshot = operand.resolve? snapshot' := by
  cases operand with
  | key name =>
    unfold Operand.resolve?
    dsimp only
    rw [h name rfl]
  | literal value => rfl

/-- Whether a predicate holds depends on nothing but the keys that it mentions. -/
theorem holds_congr {snapshot snapshot' : Snapshot} {p : Predicate}
    (h : ∀ key, p.Mentions key → snapshot.find? key = snapshot'.find? key) :
    p.holds snapshot = p.holds snapshot' := by
  induction p using inductionOnParts with
  | step p ih =>
    have hoperand : ∀ operand ∈ p.operands,
        operand.resolve? snapshot = operand.resolve? snapshot' := by
      intro operand hmem
      refine resolve?_congr fun key hkey => h key (mentions_iff.mpr (.inl ?_))
      rwa [← hkey]
    have hpart : ∀ q ∈ p.parts, q.holds snapshot = q.holds snapshot' := fun q hq =>
      ih q hq fun key hkey => h key (mentions_iff.mpr (.inr ⟨q, hq, hkey⟩))
    cases p with
    | always => rfl
    | atLeast left right =>
      simp only [holds, compare, hoperand left (by simp [operands]),
        hoperand right (by simp [operands])]
    | atMost left right =>
      simp only [holds, compare, hoperand left (by simp [operands]),
        hoperand right (by simp [operands])]
    | all parts =>
      rw [holds, holds, allHold_eq, allHold_eq, Bool.eq_iff_iff, List.all_eq_true,
        List.all_eq_true]
      exact forall₂_congr fun q hq => by rw [hpart q hq]
    | any parts =>
      rw [holds, holds, anyHolds_eq, anyHolds_eq, Bool.eq_iff_iff, List.any_eq_true,
        List.any_eq_true]
      exact exists_congr fun q => and_congr_right fun hq => by rw [hpart q hq]
    | not part => rw [holds, holds, hpart part (List.mem_singleton.mpr rfl)]

end Autopilot.Predicate
