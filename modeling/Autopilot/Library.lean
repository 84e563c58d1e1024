/-
  The library of published strategies and bundles.

  A strategy is filed under its content address and keeps the place at which it was
  first registered; registering the same content again changes nothing. A map from ids
  to places stands beside the list of strategies, and looking up goes through it: that
  the map has exactly the ids of the list, each with its place, is part of the library
  and kept by `register`. Bundles are numbered in the order of their creation, and all
  members of a bundle declare the same table of sub-slots, so that one subscription can
  drive any of them.
-/
import Autopilot.Bundle
import Std.Data.HashMap

namespace Autopilot

/-- The places in a list of strategies, by id. -/
abbrev PlaceMap := Std.HashMap StrategyId Nat

/-- The map has the ids of the list and no others, each with its place. -/
def PlaceMap.Indexes (byId : PlaceMap) (strategies : List (StrategyId × Strategy)) : Prop :=
  ∀ (id : StrategyId) (index : Nat),
    byId[id]? = some index ↔ strategies[index]?.map (·.1) = some id

namespace PlaceMap

variable {byId : PlaceMap} {strategies : List (StrategyId × Strategy)}

theorem indexes_empty : Indexes ∅ [] := by
  intro id index
  simp

theorem Indexes.lt_length (h : byId.Indexes strategies) {id : StrategyId} {index : Nat}
    (hid : byId[id]? = some index) : index < strategies.length := by
  obtain ⟨entry, hentry, -⟩ := Option.map_eq_some_iff.mp ((h id index).mp hid)
  exact (List.getElem?_eq_some_iff.mp hentry).1

/-- A strategy under an id that is new goes behind the others. -/
theorem Indexes.insert (h : byId.Indexes strategies) {id : StrategyId} (hnew : byId[id]? = none)
    (s : Strategy) :
    Indexes (Std.HashMap.insert byId id strategies.length) (strategies ++ [(id, s)]) := by
  intro other index
  have hold : strategies.length ≤ index → byId[other]? ≠ some index := fun hle hin =>
    Nat.not_lt.mpr hle (h.lt_length hin)
  rw [Std.HashMap.getElem?_insert]
  rcases Nat.lt_trichotomy index strategies.length with hlt | rfl | hgt
  · -- at an old place stands an old id
    rw [List.getElem?_append_left hlt, ← h]
    by_cases hother : id = other
    · subst hother
      simp [hnew, Nat.ne_of_gt hlt]
    · simp [hother]
  · rw [List.getElem?_concat_length]
    by_cases hother : id = other
    · simp [hother]
    · simp [hother, hold (Nat.le_refl _)]
  · have hout : (strategies ++ [(id, s)])[index]? = none := by
      simpa using Nat.succ_le_of_lt hgt
    rw [hout]
    by_cases hother : id = other
    · simp [hother, Nat.ne_of_lt hgt]
    · simp [hother, hold (Nat.le_of_lt hgt)]

end PlaceMap

/-- Published strategies with their ids in order of registration, the place of each id, and
    bundles in order of creation. -/
structure Library where
  strategies : List (StrategyId × Strategy)
  byId : PlaceMap
  bundles : List Bundle
  indexed : byId.Indexes strategies

namespace Library

/-- The most members that a bundle may have. -/
def maxMembers : Nat := 255

/-- Nothing is published. -/
def empty : Library := ⟨[], ∅, [], PlaceMap.indexes_empty⟩

/-! ## Strategies -/

/-- The place of an id in the order of registration. -/
def place? (lib : Library) (id : StrategyId) : Option Nat :=
  lib.byId[id]?

/-- The place of an id, which must be registered. -/
def indexOf (lib : Library) (id : StrategyId) : Except Fault Nat :=
  match lib.place? id with
  | some index => .ok index
  | none => .error (.unknownStrategy id.text)

/-- The strategy with an id, which must be registered: the one at the place of the id. -/
def get (lib : Library) (id : StrategyId) : Except Fault Strategy :=
  match h : lib.place? id with
  | some index => .ok (lib.strategies.get ⟨index, lib.indexed.lt_length h⟩).2
  | none => .error (.unknownStrategy id.text)

/-- The strategy at a place in the order of registration. -/
def strategyAt? (lib : Library) (index : Nat) : Option (StrategyId × Strategy) :=
  lib.strategies[index]?

/-- Registers a strategy under its content address. -/
def register (lib : Library) (s : Strategy) : StrategyId × Library :=
  let id := s.id
  match h : lib.place? id with
  | some _ => (id, lib)
  | none =>
    (id, { lib with
      strategies := lib.strategies ++ [(id, s)]
      byId := lib.byId.insert id lib.strategies.length
      indexed := lib.indexed.insert h s })

/-! ## Bundles -/

/-- Each of the members must be registered and declare the same sub-slots as the first. -/
def checkMembers (lib : Library) (name : String) (first : Strategy) :
    List BundleMember → Except Fault Unit
  | [] => .ok ()
  | member :: rest =>
    match lib.get member.strategy with
    | .error fault => .error fault
    | .ok strategy =>
      if strategy.subSlots = first.subSlots then lib.checkMembers name first rest
      else .error (.incompatibleBundle name (.differentSlots strategy.name first.name))

/-- One more bundle, behind the others. -/
def withBundle (lib : Library) (b : Bundle) : Library :=
  { lib with bundles := lib.bundles ++ [b] }

/-- Creates a bundle and returns its number. -/
def createBundle (lib : Library) (name : String) (members : List BundleMember) :
    Except Fault (Nat × Library) :=
  match members with
  | [] => .error (.incompatibleBundle name .noMember)
  | head :: rest => do
    if maxMembers < members.length then
      throw (.incompatibleBundle name (.tooManyMembers members.length maxMembers))
    let first ← lib.get head.strategy
    lib.checkMembers name first rest
    pure (lib.bundles.length, lib.withBundle ⟨name, members⟩)

/-- The bundle with a number. -/
def bundle (lib : Library) (id : Nat) : Except Fault Bundle :=
  match lib.bundles[id]? with
  | some b => .ok b
  | none => .error (.unknownBundle id)

/-- The key of the bundle with a number. -/
def bundleKey (lib : Library) (id : Nat) : Except Fault BundleKey :=
  (lib.bundle id).map Bundle.key

/-- The table of sub-slots that the members of a bundle share. -/
def bundleSubSlots (lib : Library) (id : Nat) : Except Fault (List SubSlot) := do
  let b ← lib.bundle id
  match b.members with
  | [] => throw (.unknownBundle id)
  | first :: _ =>
    let strategy ← lib.get first.strategy
    pure strategy.subSlots

end Library

end Autopilot
