/-
  Which member of a bundle is selected, and how a selection ends.

  The first member whose precondition holds decides alone (`FirstEligible`): members before it are
  passed over, members behind it are never looked at, also if a value of the first one is missing.
  A selection that has such a member either lacks an observation, and then reports the key that
  stands under the least name of those that lack theirs (`FirstMissing`), or it gathers one value
  for each of the member's names and for no other (`Sourced`).
-/
import Autopilot.Bundle
import Autopilot.Proofs.NameMap
import Autopilot.Proofs.Predicate.Meaning

namespace Autopilot

/-! ## The first eligible member -/

namespace Bundle

/-- The member at the index is the first whose precondition holds. -/
structure FirstEligible (b : Bundle) (snapshot : Snapshot) (index : Nat) (m : BundleMember) :
    Prop where
  member : b.members[index]? = some m
  holds : m.precondition.Holds snapshot
  least : ∀ (i : Nat) (earlier : BundleMember), i < index → b.members[i]? = some earlier →
    ¬ earlier.precondition.Holds snapshot

theorem eligible?_eq_some_iff {b : Bundle} {snapshot : Snapshot} {index : Nat} {m : BundleMember} :
    b.eligible? snapshot = some (m, index) ↔ b.FirstEligible snapshot index m := by
  unfold eligible?
  rw [List.find?_eq_some_iff_getElem]
  simp only [List.getElem_zipIdx, Nat.zero_add, Bool.not_eq_true', Prod.mk.injEq,
    Predicate.holds_eq_true_iff, ← Bool.not_eq_true]
  constructor
  · rintro ⟨hholds, i, hi, ⟨rfl, rfl⟩, hbefore⟩
    rw [List.length_zipIdx] at hi
    refine ⟨List.getElem?_eq_getElem hi, hholds, ?_⟩
    intro j earlier hj hearlier
    obtain ⟨-, rfl⟩ := List.getElem?_eq_some_iff.mp hearlier
    exact hbefore j hj
  · intro h
    obtain ⟨hlt, hm⟩ := List.getElem?_eq_some_iff.mp h.member
    refine ⟨h.holds, index, by simpa using hlt, ⟨hm, rfl⟩, ?_⟩
    intro j hj
    exact h.least j _ hj (List.getElem?_eq_getElem (Nat.lt_trans hj hlt))

theorem eligible?_eq_none_iff {b : Bundle} {snapshot : Snapshot} :
    b.eligible? snapshot = none ↔ ∀ m ∈ b.members, ¬ m.precondition.Holds snapshot := by
  unfold eligible?
  rw [List.find?_eq_none]
  simp only [Predicate.holds_eq_true_iff]
  constructor
  · intro h m hm
    obtain ⟨i, hi⟩ := List.mem_iff_getElem?.mp hm
    exact h (m, i) (List.mk_mem_zipIdx_iff_getElem?.mpr hi)
  · rintro h ⟨m, i⟩ hm
    exact h m (List.fst_mem_of_mem_zipIdx hm)

/-- Either no precondition holds or there is a first member whose precondition does. -/
theorem exists_firstEligible_or (b : Bundle) (snapshot : Snapshot) :
    (∃ index m, b.FirstEligible snapshot index m) ∨
      ∀ m ∈ b.members, ¬ m.precondition.Holds snapshot := by
  cases h : b.eligible? snapshot with
  | none => exact .inr (eligible?_eq_none_iff.mp h)
  | some found => exact .inl ⟨found.2, found.1, eligible?_eq_some_iff.mp h⟩

namespace FirstEligible

variable {b : Bundle} {snapshot : Snapshot} {index : Nat} {m : BundleMember}

theorem mem (h : b.FirstEligible snapshot index m) : m ∈ b.members :=
  List.mem_of_getElem? h.member

/-- It stays the first, whatever follows behind it. -/
theorem take_append (h : b.FirstEligible snapshot index m) (later : List BundleMember) :
    FirstEligible ⟨b.name, b.members.take (index + 1) ++ later⟩ snapshot index m := by
  have hlt : index < b.members.length := (List.getElem?_eq_some_iff.mp h.member).1
  have hsame : ∀ i ≤ index, (b.members.take (index + 1) ++ later)[i]? = b.members[i]? := by
    intro i hi
    rw [List.getElem?_append_left (by rw [List.length_take]; omega),
      List.getElem?_take_of_lt (by omega)]
  refine ⟨(hsame index (Nat.le_refl index)).trans h.member, h.holds, ?_⟩
  intro i earlier hi hearlier
  exact h.least i earlier hi ((hsame i (Nat.le_of_lt hi)).symm.trans hearlier)

end FirstEligible

end Bundle

/-! ## The values of its variables -/

namespace VariableSource

variable {snapshot : Snapshot}

theorem value_snapshot_eq_ok_iff {key : String} {value : AbiValue} :
    (VariableSource.snapshot key).value snapshot = .ok value ↔
      snapshot.find? key = some value := by
  unfold VariableSource.value
  cases hfind : snapshot.find? key with
  | none => simp [hfind]
  | some found => simp [hfind]

theorem value_eq_error_iff {source : VariableSource} {fault : Fault} :
    source.value snapshot = .error fault ↔ ∃ key, source = .snapshot key ∧
      snapshot.find? key = none ∧ fault = .missingSnapshotValue key := by
  cases source with
  | const value => simp [VariableSource.value]
  | snapshot key =>
    unfold VariableSource.value
    cases hfind : snapshot.find? key with
    | none => simp [hfind, eq_comm]
    | some found => simp [hfind]

end VariableSource

namespace BundleMember

open VariableSource

/-- The name takes its value from a key without an observation, and no smaller name does. -/
structure FirstMissing (m : BundleMember) (snapshot : Snapshot) (name key : String) : Prop where
  source : m.sources.find? name = some (.snapshot key)
  missing : snapshot.find? key = none
  least : ∀ other otherKey, other < name → m.sources.find? other = some (.snapshot otherKey) →
    ∃ value, snapshot.find? otherKey = some value

/-- The map has the names of the member's sources, and under each the constant or what was
    observed. -/
structure Sourced (m : BundleMember) (snapshot : Snapshot) (inputs : NameMap AbiValue) : Prop where
  names : inputs.keys = m.sources.keys
  consts : ∀ name value, m.sources.find? name = some (.const value) →
    inputs.find? name = some value
  observed : ∀ name key, m.sources.find? name = some (.snapshot key) →
    ∃ value, snapshot.find? key = some value ∧ inputs.find? name = some value

variable {m : BundleMember} {snapshot : Snapshot}

/-- Values are gathered by increasing name, so the least name that lacks its value is at fault. -/
theorem inputs_eq_error_iff {fault : Fault} :
    m.inputs snapshot = .error fault ↔
      ∃ name key, m.FirstMissing snapshot name key ∧ fault = .missingSnapshotValue key := by
  unfold inputs
  rw [NameMap.mapM_eq_error_iff]
  constructor
  · rintro ⟨name, source, hsource, hfault, hsmaller⟩
    obtain ⟨key, rfl, hmissing, rfl⟩ := value_eq_error_iff.mp hfault
    refine ⟨name, key, ⟨hsource, hmissing, ?_⟩, rfl⟩
    intro other otherKey hlt hother
    obtain ⟨value, hvalue⟩ := hsmaller other _ hlt hother
    exact ⟨value, value_snapshot_eq_ok_iff.mp hvalue⟩
  · rintro ⟨name, key, h, rfl⟩
    refine ⟨name, _, h.source, value_eq_error_iff.mpr ⟨key, rfl, h.missing, rfl⟩, ?_⟩
    intro other source hlt hother
    cases source with
    | const value => exact ⟨value, rfl⟩
    | snapshot otherKey =>
      obtain ⟨value, hvalue⟩ := h.least other otherKey hlt hother
      exact ⟨value, value_snapshot_eq_ok_iff.mpr hvalue⟩

theorem sourced_of_inputs {inputs : NameMap AbiValue} (h : m.inputs snapshot = .ok inputs) :
    m.Sourced snapshot inputs := by
  obtain ⟨hnames, hvalues⟩ := NameMap.mapM_eq_ok h
  refine ⟨hnames, ?_, ?_⟩
  · intro name value hsource
    obtain ⟨image, himage, hfind⟩ := hvalues name _ hsource
    cases himage
    exact hfind
  · intro name key hsource
    obtain ⟨image, himage, hfind⟩ := hvalues name _ hsource
    exact ⟨image, value_snapshot_eq_ok_iff.mp himage, hfind⟩

/-- Some observation is missing exactly if one is missing first. -/
theorem exists_firstMissing_iff :
    (∃ name key, m.FirstMissing snapshot name key) ↔
      ∃ name key, m.sources.find? name = some (.snapshot key) ∧ snapshot.find? key = none := by
  constructor
  · rintro ⟨name, key, h⟩
    exact ⟨name, key, h.source, h.missing⟩
  · rintro ⟨name, key, hsource, hmissing⟩
    cases hinputs : m.inputs snapshot with
    | error fault =>
      obtain ⟨name', key', h, -⟩ := inputs_eq_error_iff.mp hinputs
      exact ⟨name', key', h⟩
    | ok inputs =>
      obtain ⟨value, hvalue, -⟩ := (sourced_of_inputs hinputs).observed name key hsource
      rw [hmissing] at hvalue
      cases hvalue

end BundleMember

/-! ## Selection -/

namespace Bundle

theorem select_of_firstEligible {b : Bundle} {snapshot : Snapshot} {index : Nat}
    {m : BundleMember} (h : b.FirstEligible snapshot index m) :
    b.select snapshot = (m.inputs snapshot).map fun inputs => ⟨index, m.strategy, inputs⟩ := by
  unfold select
  rw [eligible?_eq_some_iff.mpr h]
  rfl

theorem select_of_none {b : Bundle} {snapshot : Snapshot}
    (h : ∀ m ∈ b.members, ¬ m.precondition.Holds snapshot) :
    b.select snapshot = .error (.noEligibleStrategy b.name) := by
  unfold select
  rw [eligible?_eq_none_iff.mpr h]

/-- A selection is that of the first eligible member, with the values of its variables. -/
theorem select_eq_ok_iff {b : Bundle} {snapshot : Snapshot} {selection : Selection} :
    b.select snapshot = .ok selection ↔ ∃ m, b.FirstEligible snapshot selection.index m ∧
      m.strategy = selection.strategy ∧ m.inputs snapshot = .ok selection.inputs := by
  constructor
  · intro hselect
    rcases b.exists_firstEligible_or snapshot with ⟨index, m, h⟩ | hnone
    · rw [select_of_firstEligible h] at hselect
      obtain ⟨inputs, hinputs, rfl⟩ := map_eq_ok.mp hselect
      exact ⟨m, h, rfl, hinputs⟩
    · rw [select_of_none hnone] at hselect
      cases hselect
  · rintro ⟨m, h, hstrategy, hinputs⟩
    rw [select_of_firstEligible h, hinputs, hstrategy]
    rfl

/-- How a selection ends. -/
structure SelectsFirst (b : Bundle) (snapshot : Snapshot) : Prop where
  /-- It finds no member exactly if no precondition holds. -/
  none_iff : b.select snapshot = .error (.noEligibleStrategy b.name) ↔
    ∀ m ∈ b.members, ¬ m.precondition.Holds snapshot
  /-- If some precondition holds, there is a first one to decide. -/
  decided : (∃ m ∈ b.members, m.precondition.Holds snapshot) →
    ∃ index m, b.FirstEligible snapshot index m
  /-- It lacks an observation exactly if the first eligible member does. -/
  missing_iff : ∀ index m, b.FirstEligible snapshot index m →
    ((∃ key, b.select snapshot = .error (.missingSnapshotValue key)) ↔
      ∃ name key, m.sources.find? name = some (.snapshot key) ∧ snapshot.find? key = none)
  /-- The key that it reports stands under the least name that lacks its value. -/
  missing_key : ∀ index m, b.FirstEligible snapshot index m → ∀ key,
    (b.select snapshot = .error (.missingSnapshotValue key) ↔
      ∃ name, m.FirstMissing snapshot name key)
  /-- Otherwise it returns the member's place and strategy, and a value for each of its names. -/
  selected : ∀ index m, b.FirstEligible snapshot index m →
    (¬ ∃ name key, m.sources.find? name = some (.snapshot key) ∧ snapshot.find? key = none) →
      ∃ inputs, b.select snapshot = .ok ⟨index, m.strategy, inputs⟩ ∧ m.Sourced snapshot inputs
  /-- Members behind the first eligible one may be left out or exchanged. -/
  later : ∀ index m, b.FirstEligible snapshot index m → ∀ others : List BundleMember,
    Bundle.select ⟨b.name, b.members.take (index + 1) ++ others⟩ snapshot = b.select snapshot

/-- **First match.** Every selection is decided by the first member whose precondition holds. -/
theorem select_takes_first (b : Bundle) (snapshot : Snapshot) : b.SelectsFirst snapshot := by
  have hmissing : ∀ index m, b.FirstEligible snapshot index m → ∀ key,
      (b.select snapshot = .error (.missingSnapshotValue key) ↔
        ∃ name, m.FirstMissing snapshot name key) := by
    intro index m h key
    rw [select_of_firstEligible h, map_eq_error, BundleMember.inputs_eq_error_iff]
    simp
  refine ⟨⟨?_, select_of_none⟩, ?_, ?_, hmissing, ?_, ?_⟩
  · intro hnone
    rcases b.exists_firstEligible_or snapshot with ⟨index, m, h⟩ | hall
    · rw [select_of_firstEligible h, map_eq_error, BundleMember.inputs_eq_error_iff] at hnone
      obtain ⟨name, key, -, hfault⟩ := hnone
      cases hfault
    · exact hall
  · rintro ⟨m, hm, hholds⟩
    exact (b.exists_firstEligible_or snapshot).resolve_right fun hall => hall m hm hholds
  · intro index m h
    rw [← BundleMember.exists_firstMissing_iff, exists_comm]
    exact exists_congr (hmissing index m h)
  · intro index m h hpresent
    rw [← BundleMember.exists_firstMissing_iff] at hpresent
    cases hinputs : m.inputs snapshot with
    | error fault =>
      obtain ⟨name, key, hfirst, -⟩ := BundleMember.inputs_eq_error_iff.mp hinputs
      exact absurd ⟨name, key, hfirst⟩ hpresent
    | ok inputs =>
      refine ⟨inputs, ?_, BundleMember.sourced_of_inputs hinputs⟩
      rw [select_of_firstEligible h, hinputs]
      rfl
  · intro index m h others
    rw [select_of_firstEligible h, select_of_firstEligible (h.take_append others)]

/-- A missing observation ends the selection, although the second member needs none. -/
example : select ⟨"draw", [
    ⟨⟨1⟩, "observed", .always, NameMap.ofList [("amount", .snapshot "debt")]⟩,
    ⟨⟨2⟩, "fixed", .always, .empty⟩]⟩ .empty = .error (.missingSnapshotValue "debt") := rfl

end Bundle

end Autopilot
