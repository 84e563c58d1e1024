/-
  Preconditions over snapshots from which something is missing.

  A comparison that cannot be read does not hold, so what is missing can only make a predicate
  fail, as long as no negation turns this around. `negations` counts the negations above each place
  where a key is asked for. Keys that stand under even numbers of negations only can be left out
  without making the predicate true, and keys under odd numbers only without making it false
  (`holds_of_within`); the induction carries both at once, since a negation exchanges them. In
  particular no member of a bundle becomes eligible because observations are dropped, if its
  precondition has no negation (`missing_failSafe`).
-/
import Autopilot.Proofs.Execution.Selection
import Mathlib.Algebra.Ring.Parity

namespace Autopilot

/-! ## Snapshots with more entries -/

namespace Snapshot

/-- The larger snapshot has every entry of the smaller one, unchanged. -/
def Within (smaller larger : Snapshot) : Prop :=
  ∀ key value, smaller.find? key = some value → larger.find? key = some value

/-- The key is present in the larger snapshot and not in the smaller one. -/
def Added (smaller larger : Snapshot) (key : String) : Prop :=
  smaller.find? key = none ∧ ∃ value, larger.find? key = some value

variable {smaller larger : Snapshot}

/-- A key that is not added is found in both snapshots or in neither. -/
theorem Within.find?_eq (h : smaller.Within larger) {key : String}
    (hkey : ¬ smaller.Added larger key) : smaller.find? key = larger.find? key := by
  cases hsmaller : smaller.find? key with
  | some value => exact (h key value hsmaller).symm
  | none =>
    cases hlarger : larger.find? key with
    | none => rfl
    | some value => exact absurd ⟨hsmaller, value, hlarger⟩ hkey

theorem within_insert {key : String} (h : smaller.find? key = none) (value : AbiValue) :
    smaller.Within (smaller.insert key value) := by
  intro other found hfound
  have hother : other ≠ key := by
    rintro rfl
    rw [h] at hfound
    cases hfound
  rw [NameMap.find?_insert, if_neg hother]
  exact hfound

theorem eq_of_added_insert {key other : String} {value : AbiValue}
    (h : smaller.Added (smaller.insert key value) other) : other = key := by
  by_contra hother
  obtain ⟨hnone, found, hfound⟩ := h
  rw [NameMap.find?_insert, if_neg hother, hnone] at hfound
  cases hfound

end Snapshot

namespace Predicate

/-! ## Negations above a key -/

mutual

/-- For each comparison that asks for the key, the number of negations above it. -/
def negations (key : String) : Predicate → List Nat
  | .always => []
  | .atLeast left right => if .key key ∈ [left, right] then [0] else []
  | .atMost left right => if .key key ∈ [left, right] then [0] else []
  | .all parts => negationsOf key parts
  | .any parts => negationsOf key parts
  | .not part => (negations key part).map (· + 1)

/-- The numbers of negations in a list of predicates. -/
def negationsOf (key : String) : List Predicate → List Nat
  | [] => []
  | part :: rest => negations key part ++ negationsOf key rest

end

/-- The key stands under even numbers of negations only, if it stands in the predicate at all. -/
def Positive (p : Predicate) (key : String) : Prop :=
  ∀ n ∈ p.negations key, Even n

/-- The key stands under odd numbers of negations only, if it stands in the predicate at all. -/
def Negative (p : Predicate) (key : String) : Prop :=
  ∀ n ∈ p.negations key, Odd n

instance (p : Predicate) (key : String) : Decidable (p.Positive key) :=
  inferInstanceAs (Decidable (∀ n ∈ p.negations key, Even n))

instance (p : Predicate) (key : String) : Decidable (p.Negative key) :=
  inferInstanceAs (Decidable (∀ n ∈ p.negations key, Odd n))

/-- No negation stands anywhere in the predicate. -/
def NegationFree (p : Predicate) : Prop :=
  p.Everywhere fun q => ∀ part, q ≠ .not part

theorem negationsOf_eq (key : String) (ps : List Predicate) :
    negationsOf key ps = ps.flatMap (negations key) := by
  induction ps with
  | nil => rfl
  | cons p ps ih => rw [negationsOf, ih, List.flatMap_cons]

/-! ### One level of a predicate -/

variable {p part : Predicate} {parts : List Predicate} {key : String}

/-- What joins predicates leaves the negations above their keys as they are. -/
theorem negations_of_joins (h : p.joins = true) :
    p.negations key = p.parts.flatMap (negations key) := by
  cases p with
  | all parts => exact negationsOf_eq key parts
  | any parts => exact negationsOf_eq key parts
  | always => cases h
  | atLeast left right => cases h
  | atMost left right => cases h
  | not part => cases h

theorem Positive.of_joins (h : p.Positive key) (hjoins : p.joins = true) (hpart : part ∈ p.parts) :
    part.Positive key := by
  intro n hn
  refine h n ?_
  rw [negations_of_joins hjoins]
  exact List.mem_flatMap.mpr ⟨part, hpart, hn⟩

theorem Negative.of_joins (h : p.Negative key) (hjoins : p.joins = true) (hpart : part ∈ p.parts) :
    part.Negative key := by
  intro n hn
  refine h n ?_
  rw [negations_of_joins hjoins]
  exact List.mem_flatMap.mpr ⟨part, hpart, hn⟩

/-- A negation exchanges what is positive and what is negative. -/
theorem Positive.of_not (h : (Predicate.not part).Positive key) : part.Negative key := by
  intro n hn
  have heven := h (n + 1) (List.mem_map.mpr ⟨n, hn, rfl⟩)
  rwa [Nat.even_add_one, Nat.not_even_iff_odd] at heven

theorem Negative.of_not (h : (Predicate.not part).Negative key) : part.Positive key := by
  intro n hn
  have hodd := h (n + 1) (List.mem_map.mpr ⟨n, hn, rfl⟩)
  rwa [Nat.odd_add_one, Nat.not_odd_iff_even] at hodd

/-- A key of a comparison stands under no negation, so it is not negative. -/
theorem Negative.not_mem_operands (h : p.Negative key) : .key key ∉ p.operands := by
  intro hkey
  have hzero : 0 ∈ p.negations key := by
    cases p with
    | atLeast left right => simp [negations, show .key key ∈ [left, right] from hkey]
    | atMost left right => simp [negations, show .key key ∈ [left, right] from hkey]
    | always => cases hkey
    | all parts => cases hkey
    | any parts => cases hkey
    | not part => cases hkey
  exact Nat.not_odd_zero (h 0 hzero)

/-- Without negations every key is positive. -/
theorem NegationFree.positive (h : p.NegationFree) (key : String) : p.Positive key := by
  have hcomparison : ∀ asked : List Operand, ∀ n ∈ if .key key ∈ asked then [0] else [],
      Even n := by
    intro asked n hn
    split at hn
    · rw [List.mem_singleton.mp hn]
      exact Even.zero
    · cases hn
  induction p using inductionOnParts with
  | step p ih =>
    have hparts := (everywhere_iff.mp h).2
    have hjoined : p.joins = true → p.Positive key := by
      intro hjoins n hn
      rw [negations_of_joins hjoins] at hn
      obtain ⟨part, hpart, hn⟩ := List.mem_flatMap.mp hn
      exact ih part hpart (hparts part hpart) n hn
    cases p with
    | always => exact nofun
    | atLeast left right => exact hcomparison [left, right]
    | atMost left right => exact hcomparison [left, right]
    | all parts => exact hjoined rfl
    | any parts => exact hjoined rfl
    | not part => exact absurd rfl ((everywhere_iff.mp h).1 part)

/-! ## Predicates over fewer entries -/

variable {smaller larger : Snapshot}

/-- What an operand amounts to in the smaller snapshot, it amounts to in the larger one. -/
theorem resolve?_of_within (h : smaller.Within larger) {operand : Operand} {amount : Word}
    (hamount : operand.resolve? smaller = some amount) :
    operand.resolve? larger = some amount := by
  cases operand with
  | literal value => exact hamount
  | key name =>
    obtain ⟨value, hvalue, hword⟩ := Option.bind_eq_some_iff.mp hamount
    exact Option.bind_eq_some_iff.mpr ⟨value, h name value hvalue, hword⟩

/-- An operand reads the same in both snapshots if no added key is asked for without a negation. -/
theorem resolve?_of_negative (h : smaller.Within larger)
    (hadded : ∀ key, smaller.Added larger key → p.Negative key) {operand : Operand}
    (hoperand : operand ∈ p.operands) : operand.resolve? smaller = operand.resolve? larger := by
  refine resolve?_congr fun key hkey => h.find?_eq fun hnew => ?_
  rw [hkey] at hoperand
  exact (hadded key hnew).not_mem_operands hoperand

/-- A comparison of either direction: entries that are added can only make it true, and change
    nothing if they are not asked for. -/
theorem comparison_of_within (h : smaller.Within larger) {left right : Operand}
    (hleft : left ∈ p.operands) (hright : right ∈ p.operands) (inOrder : Word → Word → Prop) :
    ((∃ l r, left.resolve? smaller = some l ∧ right.resolve? smaller = some r ∧ inOrder l r) →
      ∃ l r, left.resolve? larger = some l ∧ right.resolve? larger = some r ∧ inOrder l r) ∧
    ((∀ key, smaller.Added larger key → p.Negative key) →
      (∃ l r, left.resolve? larger = some l ∧ right.resolve? larger = some r ∧ inOrder l r) →
      ∃ l r, left.resolve? smaller = some l ∧ right.resolve? smaller = some r ∧ inOrder l r) := by
  constructor
  · rintro ⟨l, r, hl, hr, horder⟩
    exact ⟨l, r, resolve?_of_within h hl, resolve?_of_within h hr, horder⟩
  · intro hadded hlarger
    rwa [resolve?_of_negative h hadded hleft, resolve?_of_negative h hadded hright]

/-- Entries under positive keys can only make a predicate true, and under negative keys only make it
    false. -/
theorem holds_of_within (h : smaller.Within larger) (p : Predicate) :
    ((∀ key, smaller.Added larger key → p.Positive key) → p.Holds smaller → p.Holds larger) ∧
      ((∀ key, smaller.Added larger key → p.Negative key) → p.Holds larger → p.Holds smaller) := by
  induction p using inductionOnParts with
  | step p ih =>
    cases p with
    | always => simp only [Holds, implies_true, and_self]
    | atLeast left right =>
      have hleft : left ∈ (atLeast left right).operands := List.mem_cons_self
      have hright : right ∈ (atLeast left right).operands := by simp [operands]
      have hcompare := comparison_of_within h hleft hright fun l r => r ≤ l
      rw [Holds, Holds]
      exact ⟨fun _ => hcompare.1, hcompare.2⟩
    | atMost left right =>
      have hleft : left ∈ (atMost left right).operands := List.mem_cons_self
      have hright : right ∈ (atMost left right).operands := by simp [operands]
      have hcompare := comparison_of_within h hleft hright fun l r => l ≤ r
      rw [Holds, Holds]
      exact ⟨fun _ => hcompare.1, hcompare.2⟩
    | all parts =>
      rw [Holds, Holds]
      constructor
      · intro hadded hall part hpart
        have hpositive := fun key hnew => (hadded key hnew).of_joins rfl hpart
        exact (ih part hpart).1 hpositive (hall part hpart)
      · intro hadded hall part hpart
        have hnegative := fun key hnew => (hadded key hnew).of_joins rfl hpart
        exact (ih part hpart).2 hnegative (hall part hpart)
    | any parts =>
      rw [Holds, Holds]
      constructor
      · rintro hadded ⟨part, hpart, hholds⟩
        have hpositive := fun key hnew => (hadded key hnew).of_joins rfl hpart
        exact ⟨part, hpart, (ih part hpart).1 hpositive hholds⟩
      · rintro hadded ⟨part, hpart, hholds⟩
        have hnegative := fun key hnew => (hadded key hnew).of_joins rfl hpart
        exact ⟨part, hpart, (ih part hpart).2 hnegative hholds⟩
    | not part =>
      have hpart := ih part (List.mem_singleton.mpr rfl)
      rw [Holds, Holds]
      constructor
      · intro hadded hnot hholds
        exact hnot (hpart.2 (fun key hnew => (hadded key hnew).of_not) hholds)
      · intro hadded hnot hholds
        exact hnot (hpart.1 (fun key hnew => (hadded key hnew).of_not) hholds)

/-- **Missing observations.** In a snapshot from which entries are missing, a predicate holds only
    if it holds in the whole one, if each missing key stands under even numbers of negations, and
    conversely if each stands under odd ones. So without negations no member of a bundle becomes
    eligible because entries are dropped. -/
theorem missing_failSafe (h : smaller.Within larger) :
    (∀ p : Predicate, (∀ key, smaller.Added larger key → p.Positive key) →
      p.holds smaller = true → p.holds larger = true) ∧
    (∀ p : Predicate, (∀ key, smaller.Added larger key → p.Negative key) →
      p.holds larger = true → p.holds smaller = true) ∧
    ∀ b : Bundle, (∀ m ∈ b.members, m.precondition.NegationFree) →
      (∀ m ∈ b.members, m.precondition.holds smaller = true →
        m.precondition.holds larger = true) ∧
      (b.eligible? larger = none → b.eligible? smaller = none) := by
  simp only [holds_eq_true_iff, Bundle.eligible?_eq_none_iff]
  have hmember : ∀ b : Bundle, (∀ m ∈ b.members, m.precondition.NegationFree) →
      ∀ m ∈ b.members, m.precondition.Holds smaller → m.precondition.Holds larger := by
    intro b hfree m hm
    exact (holds_of_within h m.precondition).1 fun key _ => (hfree m hm).positive key
  refine ⟨fun p => (holds_of_within h p).1, fun p => (holds_of_within h p).2, fun b hfree => ?_⟩
  exact ⟨hmember b hfree, fun hnone m hm hholds => hnone m hm (hmember b hfree m hm hholds)⟩

/-- What is observed of a vault whose balance is not known. -/
def withoutBalance : Snapshot :=
  NameMap.ofList [("amount", .uint 4 256), ("debt", .uint 7 256)]

/-- The same with the balance. -/
def withBalance : Snapshot :=
  withoutBalance.insert "balance" (.uint 3 256)

/-- The own funds cover the amount. -/
def covered : Predicate :=
  .atLeast (.key "balance") (.key "amount")

/-- The balance is asked for under two negations, under one, and under none. -/
theorem missing_failSafe_balance :
    withoutBalance.Within withBalance ∧
      (Predicate.any [.atLeast (.key "debt") (.literal 5), .not (.not covered)]).holds
        withBalance = true ∧
      (Predicate.not covered).holds withoutBalance = true ∧
      Bundle.eligible? ⟨"repay", [⟨⟨1⟩, "own funds", covered, .empty⟩]⟩ withoutBalance = none := by
  have hwithin : withoutBalance.Within withBalance := Snapshot.within_insert rfl _
  have hadded : ∀ {key}, withoutBalance.Added withBalance key → key = "balance" :=
    fun hnew => Snapshot.eq_of_added_insert hnew
  refine ⟨hwithin, (missing_failSafe hwithin).1 _ ?_ (by decide),
    (missing_failSafe hwithin).2.1 _ ?_ (by decide),
    ((missing_failSafe hwithin).2.2 _ ?_).2 (by decide)⟩
  · intro key hnew
    rw [hadded hnew]
    decide
  · intro key hnew
    rw [hadded hnew]
    decide
  · simp [NegationFree, Everywhere, nodes, covered]

end Predicate

end Autopilot
