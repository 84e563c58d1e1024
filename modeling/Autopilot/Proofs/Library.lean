/-
  Libraries that came about by publishing.

  A library that was filled by registrations and creations of bundles has every member of
  every bundle, and all members of a bundle declare one table (`exists_table`). So the table
  that a subscription to the bundle is held against is the table of each of its members
  (`bundleSubSlots_eq`).

  A library into which only strategies that were built were registered (`Published`) files
  each of them under its own id (`Published.built_of_get`).

  What is found under an id is what stands at the place that the map has for it, and by the
  invariant of the library this is what is filed in the list under the id
  (`get_eq_ok_iff_mem`). Everything else here speaks of the list.
-/
import Autopilot.Library
import Autopilot.Proofs.Strategy.Built
import Mathlib.Logic.Relation

namespace Autopilot.Library

/-- A strategy is registered or a bundle created. -/
inductive Step : Library → Library → Prop where
  | register (lib : Library) (s : Strategy) : Step lib (lib.register s).2
  | createBundle {lib next : Library} {name : String} {members : List BundleMember} {id : Nat} :
    lib.createBundle name members = .ok (id, next) → Step lib next

/-- The library came about from the empty one. -/
def Reachable (lib : Library) : Prop :=
  Relation.ReflTransGen Step empty lib

/-- Every member of the bundle is registered, with this table. -/
def HasTable (lib : Library) (b : Bundle) (slots : List SubSlot) : Prop :=
  ∀ m ∈ b.members, ∃ s, lib.get m.strategy = .ok s ∧ s.subSlots = slots

/-! ## Looking up -/

theorem place?_eq_some_iff {lib : Library} {id : StrategyId} {index : Nat} :
    lib.place? id = some index ↔ ∃ s, lib.strategyAt? index = some (id, s) := by
  unfold place? strategyAt?
  rw [lib.indexed id index, Option.map_eq_some_iff]
  constructor
  · intro h
    obtain ⟨⟨_, s⟩, hentry, rfl⟩ := h
    exact ⟨s, hentry⟩
  · intro h
    obtain ⟨s, hentry⟩ := h
    exact ⟨(id, s), hentry, rfl⟩

theorem place?_eq_none_iff {lib : Library} {id : StrategyId} :
    lib.place? id = none ↔ ∀ entry ∈ lib.strategies, entry.1 ≠ id := by
  rw [Option.eq_none_iff_forall_ne_some]
  simp only [ne_eq, place?_eq_some_iff]
  constructor
  · rintro h ⟨_, s⟩ hentry rfl
    obtain ⟨index, hindex⟩ := List.mem_iff_getElem?.mp hentry
    exact h index ⟨s, hindex⟩
  · intro h index hindex
    obtain ⟨s, hindex⟩ := hindex
    exact h (id, s) (List.mem_of_getElem? hindex) rfl

/-- What is found under an id stands at the place of the id, and is filed there under it. -/
theorem get_eq_ok_iff {lib : Library} {id : StrategyId} {s : Strategy} :
    lib.get id = .ok s ↔
      ∃ index, lib.place? id = some index ∧ lib.strategyAt? index = some (id, s) := by
  unfold get
  split
  · next index h =>
    obtain ⟨found, hfound⟩ := place?_eq_some_iff.mp h
    obtain ⟨hlt, hentry⟩ := List.getElem?_eq_some_iff.mp hfound
    rw [List.get_eq_getElem, hentry]
    simp [h, hfound]
  · next h => simp [h]

theorem get_eq_error_of_place? {lib : Library} {id : StrategyId} (h : lib.place? id = none) :
    lib.get id = .error (.unknownStrategy id.text) := by
  unfold get
  split
  · next hsome =>
    rw [h] at hsome
    cases hsome
  · rfl

/-- An id is filed once, so what is filed under it is found under it. -/
theorem get_eq_ok_iff_mem {lib : Library} {id : StrategyId} {s : Strategy} :
    lib.get id = .ok s ↔ (id, s) ∈ lib.strategies := by
  rw [get_eq_ok_iff]
  constructor
  · intro h
    obtain ⟨index, -, hentry⟩ := h
    exact List.mem_of_getElem? hentry
  · intro h
    obtain ⟨index, hindex⟩ := List.mem_iff_getElem?.mp h
    exact ⟨index, place?_eq_some_iff.mpr ⟨s, hindex⟩, hindex⟩

theorem mem_of_get {lib : Library} {id : StrategyId} {s : Strategy} (h : lib.get id = .ok s) :
    (id, s) ∈ lib.strategies :=
  get_eq_ok_iff_mem.mp h

theorem indexOf_eq_ok_iff {lib : Library} {id : StrategyId} {index : Nat} :
    lib.indexOf id = .ok index ↔ lib.place? id = some index := by
  unfold indexOf
  cases lib.place? id with
  | none => simp
  | some place => simp

/-- Under one id the library has one strategy, also by its place. -/
theorem strategyAt?_of_indexOf {lib : Library} {id : StrategyId} {s : Strategy} {index : Nat}
    (hget : lib.get id = .ok s) (hindex : lib.indexOf id = .ok index) :
    lib.strategyAt? index = some (id, s) := by
  obtain ⟨index', hplace, hentry⟩ := get_eq_ok_iff.mp hget
  rw [indexOf_eq_ok_iff, hplace] at hindex
  cases hindex
  exact hentry

/-! ## One registration -/

theorem register_fst (lib : Library) (s : Strategy) : (lib.register s).1 = s.id := by
  unfold register
  dsimp only
  split
  · rfl
  · rfl

theorem register_of_place? {lib : Library} {s : Strategy} {index : Nat}
    (h : lib.place? s.id = some index) : (lib.register s).2 = lib := by
  unfold register
  dsimp only
  split
  · rfl
  · next hnone =>
    rw [h] at hnone
    cases hnone

theorem strategies_register_of_new {lib : Library} {s : Strategy} (h : lib.place? s.id = none) :
    (lib.register s).2.strategies = lib.strategies ++ [(s.id, s)] := by
  unfold register
  dsimp only
  split
  · next hsome =>
    rw [h] at hsome
    cases hsome
  · rfl

theorem mem_strategies_register_of_mem {lib : Library} {entry : StrategyId × Strategy}
    (h : entry ∈ lib.strategies) (s : Strategy) : entry ∈ (lib.register s).2.strategies := by
  cases hplace : lib.place? s.id with
  | some index =>
    rw [register_of_place? hplace]
    exact h
  | none =>
    rw [strategies_register_of_new hplace]
    exact List.mem_append_left _ h

/-- What is registered stays as it is. -/
theorem get_register {lib : Library} {id : StrategyId} {s : Strategy} (h : lib.get id = .ok s)
    (s' : Strategy) : (lib.register s').2.get id = .ok s :=
  get_eq_ok_iff_mem.mpr (mem_strategies_register_of_mem (mem_of_get h) s')

/-- A registration files at most the strategy, under its id. -/
theorem mem_strategies_register {lib : Library} {s : Strategy} {entry : StrategyId × Strategy}
    (h : entry ∈ (lib.register s).2.strategies) : entry ∈ lib.strategies ∨ entry = (s.id, s) := by
  cases hplace : lib.place? s.id with
  | some index =>
    rw [register_of_place? hplace] at h
    exact .inl h
  | none =>
    rw [strategies_register_of_new hplace] at h
    exact (List.mem_append.mp h).imp_right List.mem_singleton.mp

theorem bundles_register (lib : Library) (s : Strategy) :
    (lib.register s).2.bundles = lib.bundles := by
  unfold register
  dsimp only
  split
  · rfl
  · rfl

/-! ## Bundles -/

theorem mem_of_bundle {lib : Library} {id : Nat} {b : Bundle} (h : lib.bundle id = .ok b) :
    b ∈ lib.bundles := by
  unfold bundle at h
  cases hb : lib.bundles[id]? with
  | none =>
    rw [hb] at h
    cases h
  | some b' =>
    rw [hb] at h
    cases h
    exact List.mem_of_getElem? hb

theorem failsWith_bundle (lib : Library) {id : Nat} {p : Fault → Prop} (h : p (.unknownBundle id)) :
    FailsWith (lib.bundle id) p := by
  unfold bundle
  cases lib.bundles[id]? with
  | some b => exact failsWith_ok b _
  | none => exact failsWith_error h

theorem bundleKey_of_bundle {lib : Library} {id : Nat} {b : Bundle}
    (h : lib.bundle id = .ok b) : lib.bundleKey id = .ok b.key := by
  unfold bundleKey
  rw [h]
  rfl

/-! ## Creating bundles -/

@[simp] theorem bundles_withBundle (lib : Library) (b : Bundle) :
    (lib.withBundle b).bundles = lib.bundles ++ [b] := rfl

@[simp] theorem get_withBundle (lib : Library) (b : Bundle) (id : StrategyId) :
    (lib.withBundle b).get id = lib.get id := rfl

theorem checkMembers_eq_ok_iff {lib : Library} {name : String} {first : Strategy}
    {members : List BundleMember} :
    lib.checkMembers name first members = .ok () ↔
      ∀ m ∈ members, ∃ s, lib.get m.strategy = .ok s ∧ s.subSlots = first.subSlots := by
  induction members with
  | nil =>
    unfold checkMembers
    simp
  | cons m rest ih =>
    unfold checkMembers
    rw [List.forall_mem_cons]
    cases hget : lib.get m.strategy with
    | error fault =>
      dsimp only
      constructor
      · intro h
        cases h
      · rintro ⟨⟨s, hs, -⟩, -⟩
        cases hs
    | ok s =>
      dsimp only
      by_cases hslots : s.subSlots = first.subSlots
      · rw [if_pos hslots, ih]
        exact (and_iff_right ⟨s, rfl, hslots⟩).symm
      · rw [if_neg hslots]
        constructor
        · intro h
          cases h
        · rintro ⟨⟨s', hs', hslots'⟩, -⟩
          cases hs'
          exact absurd hslots' hslots

/-- A bundle that is created has one table, and nothing else is new. -/
theorem hasTable_of_createBundle {lib next : Library} {name : String}
    {members : List BundleMember} {id : Nat}
    (h : lib.createBundle name members = .ok (id, next)) :
    next = lib.withBundle ⟨name, members⟩ ∧
      ∃ slots, lib.HasTable ⟨name, members⟩ slots := by
  unfold createBundle at h
  cases members with
  | nil => cases h
  | cons head rest =>
    dsimp only at h
    split at h
    · cases h
    · obtain ⟨first, hfirst, h⟩ := bind_eq_ok.mp h
      obtain ⟨_, hrest, h⟩ := bind_eq_ok.mp h
      cases h
      refine ⟨rfl, first.subSlots, ?_⟩
      intro m hm
      rcases List.mem_cons.mp hm with rfl | hm
      · exact ⟨first, hfirst, rfl⟩
      · exact checkMembers_eq_ok_iff.mp hrest m hm

/-- Members that are registered with one table can be bundled. -/
theorem createBundle_of_hasTable {lib : Library} {name : String} {members : List BundleMember}
    (hsome : members ≠ []) (hcount : members.length ≤ maxMembers) {slots : List SubSlot}
    (h : lib.HasTable ⟨name, members⟩ slots) :
    lib.createBundle name members =
      .ok (lib.bundles.length, lib.withBundle ⟨name, members⟩) := by
  unfold createBundle
  cases members with
  | nil => exact absurd rfl hsome
  | cons head rest =>
    obtain ⟨first, hfirst, htable⟩ := h head List.mem_cons_self
    have hrest : lib.checkMembers name first rest = .ok () := by
      refine checkMembers_eq_ok_iff.mpr fun m hm => ?_
      rw [htable]
      exact h m (List.mem_cons_of_mem _ hm)
    dsimp only
    rw [if_neg (Nat.not_lt.mpr hcount), hfirst]
    show (lib.checkMembers name first rest >>= fun _ => _) = _
    rw [hrest]
    rfl

/-! ## Tables of bundles -/

theorem tables_step {lib next : Library}
    (h : ∀ b ∈ lib.bundles, ∃ slots, lib.HasTable b slots) (hstep : Step lib next) :
    ∀ b ∈ next.bundles, ∃ slots, next.HasTable b slots := by
  intro b hb
  cases hstep with
  | register s =>
    rw [bundles_register] at hb
    obtain ⟨slots, hslots⟩ := h b hb
    refine ⟨slots, ?_⟩
    intro m hm
    obtain ⟨s', hget, htable⟩ := hslots m hm
    exact ⟨s', get_register hget s, htable⟩
  | createBundle hcreate =>
    obtain ⟨rfl, hnew⟩ := hasTable_of_createBundle hcreate
    rcases List.mem_append.mp hb with hb | hb
    · exact h b hb
    · rw [List.mem_singleton] at hb
      rw [hb]
      exact hnew

/-- In a reachable library every bundle has one table. -/
theorem exists_table {lib : Library} (h : lib.Reachable) :
    ∀ b ∈ lib.bundles, ∃ slots, lib.HasTable b slots := by
  induction h with
  | refl =>
    intro b hb
    cases hb
  | tail _ hstep ih => exact tables_step ih hstep

/-- The table of a bundle is the table of each of its members. -/
theorem bundleSubSlots_eq {lib : Library} (h : lib.Reachable) {id : Nat} {b : Bundle}
    (hbundle : lib.bundle id = .ok b) {m : BundleMember} (hm : m ∈ b.members) {s : Strategy}
    (hget : lib.get m.strategy = .ok s) {slots : List SubSlot}
    (hslots : lib.bundleSubSlots id = .ok slots) : slots = s.subSlots := by
  obtain ⟨table, htable⟩ := exists_table h b (mem_of_bundle hbundle)
  have hs : s.subSlots = table := by
    obtain ⟨s', hget', hs'⟩ := htable m hm
    rw [hget] at hget'
    cases hget'
    exact hs'
  unfold bundleSubSlots at hslots
  obtain ⟨b', hbundle', hslots⟩ := bind_eq_ok.mp hslots
  rw [hbundle] at hbundle'
  cases hbundle'
  cases hmembers : b.members with
  | nil =>
    rw [hmembers] at hslots
    cases hslots
  | cons head rest =>
    rw [hmembers] at hslots
    obtain ⟨first, hfirst, hslots⟩ := bind_eq_ok.mp hslots
    cases hslots
    have hhead : head ∈ b.members := by
      rw [hmembers]
      exact List.mem_cons_self
    obtain ⟨first', hfirst', htable'⟩ := htable head hhead
    rw [hfirst] at hfirst'
    cases hfirst'
    rw [htable', hs]

/-- All members of a bundle are registered. -/
theorem exists_member {lib : Library} (h : lib.Reachable) {id : Nat} {b : Bundle}
    (hbundle : lib.bundle id = .ok b) {m : BundleMember} (hm : m ∈ b.members) :
    ∃ s, lib.get m.strategy = .ok s := by
  obtain ⟨table, htable⟩ := exists_table h b (mem_of_bundle hbundle)
  obtain ⟨s, hget, -⟩ := htable m hm
  exact ⟨s, hget⟩

/-- What is registered has a place in the order of registration. -/
theorem exists_index {lib : Library} {id : StrategyId} {s : Strategy} (h : lib.get id = .ok s) :
    ∃ index, lib.indexOf id = .ok index := by
  obtain ⟨index, hplace, -⟩ := get_eq_ok_iff.mp h
  exact ⟨index, indexOf_eq_ok_iff.mpr hplace⟩

/-! ## Ids -/

theorem ids_step {lib next : Library} (h : ∀ entry ∈ lib.strategies, entry.2.id = entry.1)
    (hstep : Step lib next) : ∀ entry ∈ next.strategies, entry.2.id = entry.1 := by
  cases hstep with
  | register s =>
    intro entry hentry
    rcases mem_strategies_register hentry with hentry | rfl
    · exact h entry hentry
    · rfl
  | createBundle hcreate =>
    rw [(hasTable_of_createBundle hcreate).1]
    exact h

/-- In a reachable library every strategy is filed under its id. -/
theorem Reachable.ids {lib : Library} (h : lib.Reachable) :
    ∀ entry ∈ lib.strategies, entry.2.id = entry.1 := by
  induction h with
  | refl =>
    intro entry hentry
    cases hentry
  | tail _ hstep ih => exact ids_step ih hstep

theorem Reachable.id_of_get {lib : Library} (h : lib.Reachable) {id : StrategyId} {s : Strategy}
    (hget : lib.get id = .ok s) : s.id = id :=
  h.ids (id, s) (mem_of_get hget)

/-! ## Published strategies -/

/-- A strategy that was built is registered, or a bundle created. -/
inductive Publication : Library → Library → Prop where
  | register (lib : Library) {d : Draft} {s : Strategy} : d.build = .ok s →
    Publication lib (lib.register s).2
  | createBundle {lib next : Library} {name : String} {members : List BundleMember} {id : Nat} :
    lib.createBundle name members = .ok (id, next) → Publication lib next

/-- The library came about from the empty one, with no strategies but built ones. -/
def Published (lib : Library) : Prop :=
  Relation.ReflTransGen Publication empty lib

theorem Publication.step {lib next : Library} (h : Publication lib next) : Step lib next := by
  cases h with
  | register hbuild => exact .register lib _
  | createBundle hcreate => exact .createBundle hcreate

theorem Published.reachable {lib : Library} (h : lib.Published) : lib.Reachable :=
  Relation.ReflTransGen.mono (fun _ _ => Publication.step) _ _ h

/-- Every strategy is built and filed under its id. -/
def Filed (lib : Library) : Prop :=
  ∀ entry ∈ lib.strategies, entry.2.Built ∧ entry.2.id = entry.1

theorem filed_step {lib next : Library} (h : lib.Filed) (hstep : Publication lib next) :
    next.Filed := by
  cases hstep with
  | @register d s hbuild =>
    intro entry hentry
    rcases mem_strategies_register hentry with hentry | rfl
    · exact h entry hentry
    · exact ⟨(build_eq_ok_iff.mp hbuild).2, rfl⟩
  | createBundle hcreate =>
    rw [(hasTable_of_createBundle hcreate).1]
    exact h

theorem Published.filed {lib : Library} (h : lib.Published) : lib.Filed := by
  induction h with
  | refl =>
    intro entry hentry
    cases hentry
  | tail _ hstep ih => exact filed_step ih hstep

/-- What is found under an id was built and has this id. -/
theorem Published.built_of_get {lib : Library} (h : lib.Published) {id : StrategyId}
    {s : Strategy} (hget : lib.get id = .ok s) : s.Built ∧ s.id = id :=
  h.filed (id, s) (mem_of_get hget)

/-! ## One strategy -/

/-- The library of a process that registers one strategy and then creates bundles. -/
def sole (s : Strategy) (bundles : List Bundle) : Library :=
  bundles.foldl withBundle (empty.register s).2

theorem strategies_foldl_withBundle (lib : Library) (bundles : List Bundle) :
    (bundles.foldl withBundle lib).strategies = lib.strategies := by
  induction bundles generalizing lib with
  | nil => rfl
  | cons b rest ih => exact ih (lib.withBundle b)

theorem bundles_foldl_withBundle (lib : Library) (bundles : List Bundle) :
    (bundles.foldl withBundle lib).bundles = lib.bundles ++ bundles := by
  induction bundles generalizing lib with
  | nil => exact (List.append_nil _).symm
  | cons b rest ih =>
    rw [List.foldl_cons, ih, bundles_withBundle, List.append_assoc]
    rfl

/-- Bundles whose members are all one registered strategy can be created one after the other. -/
theorem Published.foldl_withBundle {lib : Library} (h : lib.Published) {s : Strategy}
    (hget : lib.get s.id = .ok s) {bundles : List Bundle}
    (hbundles : ∀ b ∈ bundles, b.members ≠ [] ∧ b.members.length ≤ maxMembers ∧
      ∀ m ∈ b.members, m.strategy = s.id) : (bundles.foldl withBundle lib).Published := by
  induction bundles generalizing lib with
  | nil => exact h
  | cons b rest ih =>
    obtain ⟨⟨hsome, hcount, hall⟩, hrest⟩ := List.forall_mem_cons.mp hbundles
    have htable : lib.HasTable b s.subSlots := by
      intro m hm
      rw [hall m hm]
      exact ⟨s, hget, rfl⟩
    refine ih (h.tail (.createBundle (createBundle_of_hasTable hsome hcount htable))) ?_ hrest
    rw [get_withBundle]
    exact hget

section Sole

variable (s : Strategy) (bundles : List Bundle)

theorem place?_empty (id : StrategyId) : empty.place? id = none :=
  place?_eq_none_iff.mpr nofun

theorem strategies_sole : (sole s bundles).strategies = [(s.id, s)] := by
  unfold sole
  rw [strategies_foldl_withBundle, strategies_register_of_new (place?_empty s.id)]
  rfl

theorem bundles_sole : (sole s bundles).bundles = bundles := by
  unfold sole
  rw [bundles_foldl_withBundle, bundles_register]
  rfl

theorem get_sole : (sole s bundles).get s.id = .ok s := by
  rw [get_eq_ok_iff_mem, strategies_sole]
  exact List.mem_cons_self

theorem indexOf_sole : (sole s bundles).indexOf s.id = .ok 0 := by
  rw [indexOf_eq_ok_iff, place?_eq_some_iff]
  refine ⟨s, ?_⟩
  unfold strategyAt?
  rw [strategies_sole]
  rfl

theorem bundle_sole {number : Nat} {b : Bundle} (h : bundles[number]? = some b) :
    (sole s bundles).bundle number = .ok b := by
  unfold bundle
  rw [bundles_sole, h]

variable {s bundles}

theorem bundleSubSlots_sole {number : Nat} {b : Bundle} (h : bundles[number]? = some b)
    (hsome : b.members ≠ []) (hall : ∀ m ∈ b.members, m.strategy = s.id) :
    (sole s bundles).bundleSubSlots number = .ok s.subSlots := by
  refine bind_eq_ok.mpr ⟨b, bundle_sole s bundles h, ?_⟩
  cases hmembers : b.members with
  | nil => exact absurd hmembers hsome
  | cons m rest =>
    have hm : m.strategy = s.id := hall m (by simp [hmembers])
    dsimp only
    rw [hm, get_sole]
    rfl

theorem published_sole {d : Draft} (hbuild : d.build = .ok s)
    (hbundles : ∀ b ∈ bundles, b.members ≠ [] ∧ b.members.length ≤ maxMembers ∧
      ∀ m ∈ b.members, m.strategy = s.id) : (sole s bundles).Published :=
  Published.foldl_withBundle (.single (.register empty hbuild)) (get_sole s []) hbundles

end Sole

end Autopilot.Library
