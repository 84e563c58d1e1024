/-
  Sessions with a library: strategies are registered and bundles created, in any order.

  A session is what was asked, how it was answered, and the library behind it. Bundles are
  numbered from zero in the order of the creations that succeeded, and the library keeps each
  as it was created. A creation succeeds exactly if there is at least one member, at most 255
  of them, and all are registered with one table (`createBundle_eq_ok_iff`); a request keeps
  what is registered and what is bundled (`Grows`), so a bundle and its table last. Its steps
  in place (`InPlace`) end as the request does, also when it fails (`Request.inPlace_eq`).
-/
import Autopilot.Proofs.Library.Registration

namespace Autopilot.Library

/-! ## Creating bundles -/

theorem createBundle_eq_ok_iff {lib next : Library} {name : String} {members : List BundleMember}
    {number : Nat} :
    lib.createBundle name members = .ok (number, next) ↔
      (members ≠ [] ∧ members.length ≤ maxMembers ∧ ∃ slots, lib.HasTable ⟨name, members⟩ slots) ∧
        number = lib.bundles.length ∧
          next = lib.withBundle ⟨name, members⟩ := by
  constructor
  · intro h
    obtain ⟨hnext, htable⟩ := hasTable_of_createBundle h
    unfold createBundle at h
    cases members with
    | nil => cases h
    | cons head rest =>
      dsimp only at h
      split at h
      · cases h
      · next hcount =>
        obtain ⟨first, -, h⟩ := bind_eq_ok.mp h
        obtain ⟨_, -, h⟩ := bind_eq_ok.mp h
        cases h
        exact ⟨⟨List.cons_ne_nil _ _, Nat.le_of_not_lt hcount, htable⟩, rfl, rfl⟩
  · intro h
    obtain ⟨⟨hsome, hcount, slots, htable⟩, rfl, rfl⟩ := h
    exact createBundle_of_hasTable hsome hcount htable

/-- Members have no common table exactly if one of them is not registered or two of them have
    different tables. -/
theorem no_table_iff {lib : Library} {b : Bundle} (hsome : b.members ≠ []) :
    (¬ ∃ slots, lib.HasTable b slots) ↔
      (∃ m ∈ b.members, ¬ ∃ s, lib.get m.strategy = .ok s) ∨
        ∃ m ∈ b.members, ∃ m' ∈ b.members, ∃ s s', lib.get m.strategy = .ok s ∧
          lib.get m'.strategy = .ok s' ∧ s.subSlots ≠ s'.subSlots := by
  constructor
  · intro hnone
    refine Classical.or_iff_not_imp_left.mpr fun hall => ?_
    have hget : ∀ m ∈ b.members, ∃ s, lib.get m.strategy = .ok s := fun m hm =>
      Classical.byContradiction fun hm' => hall ⟨m, hm, hm'⟩
    obtain ⟨head, hhead⟩ := List.exists_mem_of_ne_nil b.members hsome
    obtain ⟨first, hfirst⟩ := hget head hhead
    -- the table of one member is not that of all
    refine Classical.byContradiction fun hsame => hnone ⟨first.subSlots, fun m hm => ?_⟩
    obtain ⟨s, hs⟩ := hget m hm
    refine ⟨s, hs, Classical.byContradiction fun hne => hsame ?_⟩
    exact ⟨m, hm, head, hhead, s, first, hs, hfirst, hne⟩
  · intro hbad hslots
    obtain ⟨slots, htable⟩ := hslots
    rcases hbad with ⟨m, hm, hget⟩ | ⟨m, hm, m', hm', s, s', hs, hs', hne⟩
    · obtain ⟨s, hs, -⟩ := htable m hm
      exact hget ⟨s, hs⟩
    · obtain ⟨t, ht, rfl⟩ := htable m hm
      obtain ⟨t', ht', hslots⟩ := htable m' hm'
      rw [hs] at ht
      rw [hs'] at ht'
      cases ht
      cases ht'
      exact hne hslots.symm

/-! ## What lasts -/

/-- The later library has everything that is registered or bundled, under the same ids and
    numbers. -/
structure Grows (lib later : Library) : Prop where
  get : ∀ {id s}, lib.get id = .ok s → later.get id = .ok s
  bundle : ∀ {number b}, lib.bundle number = .ok b → later.bundle number = .ok b

theorem bundle_eq_ok_iff {lib : Library} {number : Nat} {b : Bundle} :
    lib.bundle number = .ok b ↔ lib.bundles[number]? = some b := by
  unfold bundle
  cases lib.bundles[number]? with
  | none => simp
  | some found => simp

theorem Grows.refl (lib : Library) : Grows lib lib :=
  ⟨id, id⟩

theorem Grows.trans {lib mid later : Library} (h : Grows lib mid) (h' : Grows mid later) :
    Grows lib later :=
  ⟨fun hget => h'.get (h.get hget), fun hbundle => h'.bundle (h.bundle hbundle)⟩

theorem grows_step {lib next : Library} (h : Step lib next) : Grows lib next := by
  cases h with
  | register s =>
    refine ⟨fun hget => get_register hget s, fun hbundle => ?_⟩
    rw [bundle_eq_ok_iff, bundles_register]
    exact bundle_eq_ok_iff.mp hbundle
  | createBundle hcreate =>
    obtain ⟨-, -, rfl⟩ := createBundle_eq_ok_iff.mp hcreate
    refine ⟨fun hget => hget, fun hbundle => ?_⟩
    have hplace := bundle_eq_ok_iff.mp hbundle
    have hlt := (List.getElem?_eq_some_iff.mp hplace).1
    rw [bundle_eq_ok_iff, bundles_withBundle, List.getElem?_append_left hlt]
    exact hplace

theorem members_step {lib next : Library} (h : ∀ b ∈ lib.bundles, b.members ≠ [])
    (hstep : Step lib next) : ∀ b ∈ next.bundles, b.members ≠ [] := by
  cases hstep with
  | register s =>
    rw [bundles_register]
    exact h
  | createBundle hcreate =>
    obtain ⟨⟨hsome, -⟩, -, rfl⟩ := createBundle_eq_ok_iff.mp hcreate
    exact List.forall_mem_append.mpr ⟨h, List.forall_mem_singleton.mpr hsome⟩

/-- In a reachable library every bundle has a member. -/
theorem members_ne_nil {lib : Library} (h : lib.Reachable) : ∀ b ∈ lib.bundles, b.members ≠ [] := by
  induction h with
  | refl =>
    intro b hb
    cases hb
  | tail _ hstep ih => exact members_step ih hstep

/-- In a reachable library the table of a bundle is there, and it is the table of each member. -/
theorem exists_bundleSubSlots {lib : Library} (h : lib.Reachable) {number : Nat} {b : Bundle}
    (hbundle : lib.bundle number = .ok b) (hsome : b.members ≠ []) :
    ∃ slots, lib.bundleSubSlots number = .ok slots ∧ lib.HasTable b slots := by
  obtain ⟨slots, htable⟩ := exists_table h b (mem_of_bundle hbundle)
  refine ⟨slots, ?_, htable⟩
  unfold bundleSubSlots
  rw [hbundle]
  cases hmembers : b.members with
  | nil => exact absurd hmembers hsome
  | cons head rest =>
    have hhead : head ∈ b.members := by simp [hmembers]
    obtain ⟨first, hfirst, hslots⟩ := htable head hhead
    refine bind_eq_ok.mpr ⟨b, rfl, ?_⟩
    rw [hmembers]
    exact bind_eq_ok.mpr ⟨first, hfirst, congrArg Except.ok hslots⟩

/-- The ids that are registered. -/
theorem exists_get_iff {lib : Library} {id : StrategyId} :
    (∃ s, lib.get id = .ok s) ↔ id ∈ lib.strategies.map (·.1) := by
  simp only [get_eq_ok_iff_mem]
  simp

theorem exists_get_register_iff {lib : Library} {s : Strategy} {id : StrategyId} :
    (∃ t, (lib.register s).2.get id = .ok t) ↔ (∃ t, lib.get id = .ok t) ∨ id = s.id := by
  rw [exists_get_iff, exists_get_iff]
  cases hplace : lib.place? s.id with
  | some index =>
    obtain ⟨found, hfound⟩ := place?_eq_some_iff.mp hplace
    have hmem : s.id ∈ lib.strategies.map (·.1) :=
      List.mem_map.mpr ⟨_, List.mem_of_getElem? hfound, rfl⟩
    rw [register_of_place? hplace]
    constructor
    · intro hid
      exact .inl hid
    · intro hid
      rcases hid with hid | hid
      · exact hid
      · rw [hid]
        exact hmem
  | none =>
    rw [strategies_register_of_new hplace]
    simp

/-! ## Requests -/

/-- What is asked of a library. -/
inductive Request where
  | register (s : Strategy)
  | createBundle (name : String) (members : List BundleMember)

/-- What a request is answered with. -/
inductive Answer where
  | registered (id : StrategyId)
  | created (number : Nat)

/-- Carries a request out. -/
def Request.perform (lib : Library) : Request → Except Fault (Answer × Library)
  | .register s => .ok (.registered (lib.register s).1, (lib.register s).2)
  | .createBundle name members =>
    (lib.createBundle name members).map fun (number, next) => (.created number, next)

/-! ## In place -/

/-- A computation on a library in place: what it has changed stays changed, also if it fails
    later on. -/
abbrev InPlace (α : Type) := ExceptT Fault (StateM Library) α

namespace InPlace

/-- Looks something up. -/
def look {α : Type} (f : Library → Except Fault α) : InPlace α :=
  fun lib => (f lib, lib)

/-- Changes the library. -/
def change (f : Library → Library) : InPlace Unit :=
  fun lib => (.ok (), f lib)

/-- Looks each of the members up and holds its table against that of the first. -/
def checkMembers (name : String) (first : Strategy) : List BundleMember → InPlace Unit
  | [] => pure ()
  | member :: rest => do
    let strategy ← look fun lib => lib.get member.strategy
    if strategy.subSlots = first.subSlots then checkMembers name first rest
    else throw (.incompatibleBundle name (.differentSlots strategy.name first.name))

/-- Puts a bundle behind the others, when all that can be wrong with it was looked at. -/
def createBundle (name : String) (members : List BundleMember) : InPlace Nat :=
  match members with
  | [] => throw (.incompatibleBundle name .noMember)
  | head :: rest => do
    if maxMembers < members.length then
      throw (.incompatibleBundle name (.tooManyMembers members.length maxMembers))
    let first ← look fun lib => lib.get head.strategy
    checkMembers name first rest
    let number ← look fun lib => .ok lib.bundles.length
    change fun lib => lib.withBundle ⟨name, members⟩
    pure number

theorem bind_eq {α β : Type} (x : InPlace α) (g : α → InPlace β) (lib : Library) :
    (x >>= g) lib =
      match x lib with
      | (.ok a, next) => g a next
      | (.error fault, next) => (.error fault, next) := by
  have hbind : (x >>= g) lib = ExceptT.bindCont g (x lib).1 (x lib).2 := rfl
  rw [hbind]
  obtain ⟨outcome, next⟩ := x lib
  cases outcome with
  | ok a => rfl
  | error fault => rfl

theorem look_bind {α β : Type} (f : Library → Except Fault α) (g : α → InPlace β)
    (lib : Library) : (look f >>= g) lib =
      match f lib with
      | .ok a => g a lib
      | .error fault => (.error fault, lib) := by
  rw [bind_eq]
  unfold look
  cases f lib with
  | ok a => rfl
  | error fault => rfl

/-- To check members is to look at the library. -/
theorem checkMembers_eq (name : String) (first : Strategy) (members : List BundleMember) :
    checkMembers name first members = look fun lib => lib.checkMembers name first members := by
  funext lib
  induction members with
  | nil => rfl
  | cons member rest ih =>
    have hstep : look (fun lib => lib.checkMembers name first (member :: rest)) lib =
        (lib.checkMembers name first (member :: rest), lib) := rfl
    rw [hstep]
    unfold checkMembers Library.checkMembers
    rw [look_bind]
    cases lib.get member.strategy with
    | error fault => rfl
    | ok strategy =>
      dsimp only
      split
      · exact ih
      · rfl

/-- In place, a bundle that cannot be created leaves the library as it was. -/
theorem createBundle_eq (name : String) (members : List BundleMember) (lib : Library) :
    createBundle name members lib = settle lib (lib.createBundle name members) := by
  unfold createBundle Library.createBundle
  cases members with
  | nil => rfl
  | cons head rest =>
    dsimp only
    split
    · rfl
    · rw [look_bind]
      cases lib.get head.strategy with
      | error fault => rfl
      | ok first =>
        dsimp only
        rw [checkMembers_eq, look_bind, ok_bind]
        cases lib.checkMembers name first rest with
        | error fault => rfl
        | ok _ => rfl

end InPlace

/-- The steps of a request. -/
def Request.inPlace : Request → InPlace Answer
  | .register s => do
    InPlace.change fun lib => (lib.register s).2
    pure (.registered s.id)
  | .createBundle name members => do
    let number ← InPlace.createBundle name members
    pure (.created number)

/-- Run in place, the steps of a request end as the request does, and a request that fails leaves
    the library as it was. -/
theorem Request.inPlace_eq (request : Request) (lib : Library) :
    request.inPlace lib = settle lib (request.perform lib) := by
  cases request with
  | register s =>
    dsimp only [perform]
    rw [register_fst]
    rfl
  | createBundle name members =>
    dsimp only [perform, inPlace]
    rw [InPlace.bind_eq, InPlace.createBundle_eq]
    cases lib.createBundle name members with
    | error fault => rfl
    | ok p => rfl

/-- A request and how it ended. -/
structure Event where
  request : Request
  outcome : Except Fault Answer

/-- The id that was returned for a strategy. -/
def Event.id? : Event → Option StrategyId
  | ⟨_, .ok (.registered id)⟩ => some id
  | _ => none

/-- The number that was returned for a bundle. -/
def Event.number? : Event → Option Nat
  | ⟨_, .ok (.created number)⟩ => some number
  | _ => none

/-- The bundle that was created. -/
def Event.bundle? : Event → Option Bundle
  | ⟨.createBundle name members, .ok _⟩ => some ⟨name, members⟩
  | _ => none

/-- The ids that were returned for strategies, in order. -/
def ids (events : List Event) : List StrategyId :=
  events.filterMap Event.id?

/-- The numbers that were returned for bundles, in order. -/
def numbers (events : List Event) : List Nat :=
  events.filterMap Event.number?

/-- The bundles that were created, in order. -/
def created (events : List Event) : List Bundle :=
  events.filterMap Event.bundle?

/-- The library holds what the events say. -/
structure Told (events : List Event) (lib : Library) : Prop where
  reachable : lib.Reachable
  bundles : lib.bundles = created events
  numbered : numbers events = List.range (created events).length
  sizes : ∀ b ∈ lib.bundles, b.members ≠ [] ∧ b.members.length ≤ maxMembers
  registered : ∀ id, (∃ s, lib.get id = .ok s) ↔ id ∈ ids events

theorem told_empty : Told [] empty := by
  refine ⟨.refl, rfl, rfl, ?_, ?_⟩
  · intro b hb
    cases hb
  · intro id
    rw [exists_get_iff]
    exact Iff.rfl

namespace Told

variable {events : List Event} {lib : Library}

theorem register (h : Told events lib) (s : Strategy) :
    Told (events ++ [⟨.register s, .ok (.registered s.id)⟩]) (lib.register s).2 := by
  have hcreated : created (events ++ [⟨.register s, .ok (.registered s.id)⟩]) =
      created events := by
    simp [created, Event.bundle?]
  refine ⟨h.reachable.tail (.register lib s), ?_, ?_, ?_, fun id => ?_⟩
  · rw [bundles_register, hcreated, h.bundles]
  · rw [hcreated, ← h.numbered]
    simp [numbers, Event.number?]
  · rw [bundles_register]
    exact h.sizes
  · rw [exists_get_register_iff, h.registered]
    simp [ids, Event.id?]

theorem createBundle (h : Told events lib) {name : String} {members : List BundleMember}
    {number : Nat} {next : Library}
    (hcreate : lib.createBundle name members = .ok (number, next)) :
    Told (events ++ [⟨.createBundle name members, .ok (.created number)⟩]) next := by
  have hreachable : next.Reachable := h.reachable.tail (.createBundle hcreate)
  obtain ⟨⟨hsome, hcount, -⟩, rfl, rfl⟩ := createBundle_eq_ok_iff.mp hcreate
  have hcreated : created (events ++
      [⟨.createBundle name members, .ok (.created lib.bundles.length)⟩]) =
      created events ++ [⟨name, members⟩] := by
    simp [created, Event.bundle?]
  refine ⟨hreachable, ?_, ?_, ?_, fun id => ?_⟩
  · rw [hcreated, bundles_withBundle, h.bundles]
  · have hnumbers : numbers (events ++
        [⟨.createBundle name members, .ok (.created lib.bundles.length)⟩]) =
        numbers events ++ [lib.bundles.length] := by
      simp [numbers, Event.number?]
    rw [hnumbers, hcreated, h.numbered, h.bundles, List.length_append, List.length_singleton,
      List.range_succ]
  · intro b hb
    rcases List.mem_append.mp hb with hb | hb
    · exact h.sizes b hb
    · rw [List.mem_singleton.mp hb]
      exact ⟨hsome, hcount⟩
  · have hids : ids (events ++
        [⟨.createBundle name members, .ok (.created lib.bundles.length)⟩]) = ids events := by
      simp [ids, Event.id?]
    rw [hids, ← h.registered]
    rfl

theorem refused (h : Told events lib) (request : Request) (fault : Fault) :
    Told (events ++ [⟨request, .error fault⟩]) lib := by
  have hcreated : created (events ++ [⟨request, .error fault⟩]) = created events := by
    simp [created, Event.bundle?]
  refine ⟨h.reachable, ?_, ?_, h.sizes, fun id => ?_⟩
  · rw [hcreated, h.bundles]
  · rw [hcreated, ← h.numbered]
    simp [numbers, Event.number?]
  · rw [h.registered]
    simp [ids, Event.id?]

end Told

/-! ## Sessions -/

/-- The requests that were made, with their outcomes, and the library behind them. -/
structure Session where
  events : List Event
  library : Library

namespace Session

/-- Nothing was asked. -/
def start : Session := ⟨[], empty⟩

/-- How a request ends. -/
def outcome (s : Session) (request : Request) : Except Fault Answer :=
  (request.perform s.library).map (·.1)

/-- The library behind a request, which stays as it is if the request fails. -/
def next (s : Session) (request : Request) : Library :=
  match request.perform s.library with
  | .ok (_, next) => next
  | .error _ => s.library

/-- A request is made. -/
def perform (s : Session) (request : Request) : Session :=
  ⟨s.events ++ [⟨request, s.outcome request⟩], s.next request⟩

/-- Requests are made one after the other. -/
def run (s : Session) (requests : List Request) : Session :=
  requests.foldl perform s

theorem outcome_and_next_of_ok {s : Session} {request : Request} {answer : Answer}
    {lib : Library} (h : request.perform s.library = .ok (answer, lib)) :
    s.outcome request = .ok answer ∧ s.next request = lib := by
  unfold outcome next
  rw [h]
  exact ⟨rfl, rfl⟩

theorem outcome_and_next_of_error {s : Session} {request : Request} {fault : Fault}
    (h : request.perform s.library = .error fault) :
    s.outcome request = .error fault ∧ s.next request = s.library := by
  unfold outcome next
  rw [h]
  exact ⟨rfl, rfl⟩

theorem outcome_eq_error_iff {s : Session} {request : Request} {fault : Fault} :
    s.outcome request = .error fault ↔ request.perform s.library = .error fault := by
  unfold outcome
  cases request.perform s.library with
  | ok p => simp [Except.map]
  | error other => simp [Except.map]

theorem settle_perform (s : Session) (request : Request) :
    settle s.library (request.perform s.library) = (s.outcome request, s.next request) := by
  unfold outcome next
  cases request.perform s.library with
  | ok p => rfl
  | error fault => rfl

theorem told_perform {s : Session} (h : Told s.events s.library) (request : Request) :
    Told (s.perform request).events (s.perform request).library := by
  unfold perform
  cases hperform : request.perform s.library with
  | error fault =>
    obtain ⟨houtcome, hnext⟩ := outcome_and_next_of_error hperform
    rw [houtcome, hnext]
    exact h.refused request fault
  | ok p =>
    obtain ⟨answer, lib⟩ := p
    obtain ⟨houtcome, hnext⟩ := outcome_and_next_of_ok hperform
    rw [houtcome, hnext]
    cases request with
    | register strategy =>
      cases hperform
      rw [register_fst]
      exact h.register strategy
    | createBundle name members =>
      obtain ⟨⟨number, lib'⟩, hcreate, hpair⟩ := map_eq_ok.mp hperform
      cases hpair
      exact h.createBundle hcreate

theorem told_run {s : Session} (h : Told s.events s.library) (requests : List Request) :
    Told (s.run requests).events (s.run requests).library := by
  induction requests generalizing s with
  | nil => exact h
  | cons request rest ih => exact ih (told_perform h request)

theorem grows_perform (s : Session) (request : Request) :
    Grows s.library (s.perform request).library := by
  show Grows s.library (s.next request)
  cases hperform : request.perform s.library with
  | error fault =>
    rw [(outcome_and_next_of_error hperform).2]
    exact Grows.refl s.library
  | ok p =>
    rw [(outcome_and_next_of_ok hperform).2]
    cases request with
    | register strategy =>
      cases hperform
      exact grows_step (.register s.library strategy)
    | createBundle name members =>
      obtain ⟨⟨number, lib⟩, hcreate, hpair⟩ := map_eq_ok.mp hperform
      cases hpair
      exact grows_step (.createBundle hcreate)

theorem grows_run (s : Session) (requests : List Request) :
    Grows s.library (s.run requests).library := by
  induction requests generalizing s with
  | nil => exact Grows.refl s.library
  | cons request rest ih => exact (s.grows_perform request).trans (ih (s.perform request))

end Session

/-! ## Bundles of a session -/

/-- What holds of bundles at any time. -/
structure BundlesKept (s : Session) : Prop where
  /-- The creations that succeeded have returned the numbers zero, one, two and so on. -/
  numbered : numbers s.events = List.range (created s.events).length
  /-- Under a number stands the bundle that was created with it. -/
  found : ∀ number b, s.library.bundle number = .ok b ↔ (created s.events)[number]? = some b
  size : ∀ number b, s.library.bundle number = .ok b →
    1 ≤ b.members.length ∧ b.members.length ≤ 255
  /-- All members are registered, and the table of the bundle is that of each of them. -/
  table : ∀ number b, s.library.bundle number = .ok b →
    ∃ slots, s.library.bundleSubSlots number = .ok slots ∧
      ∀ m ∈ b.members, ∃ strategy, s.library.get m.strategy = .ok strategy ∧
        strategy.subSlots = slots
  /-- The ids that are found are those that registrations have returned. -/
  registered : ∀ id, (∃ strategy, s.library.get id = .ok strategy) ↔ id ∈ ids s.events
  /-- Whatever is asked later, the bundle, its key and its table stay as they are. -/
  lasting : ∀ requests number b, s.library.bundle number = .ok b →
    (s.run requests).library.bundle number = .ok b ∧
      (s.run requests).library.bundleKey number = s.library.bundleKey number ∧
      (s.run requests).library.bundleSubSlots number = s.library.bundleSubSlots number
  /-- A creation fails exactly if there is no member, if there are too many, if one of them was
      not registered, or if two of them have different tables. -/
  refused : ∀ name members,
    (∃ fault, s.outcome (.createBundle name members) = .error fault) ↔
      members = [] ∨ 255 < members.length ∨ (∃ m ∈ members, m.strategy ∉ ids s.events) ∨
        ∃ m ∈ members, ∃ m' ∈ members, ∃ strategy strategy',
          s.library.get m.strategy = .ok strategy ∧ s.library.get m'.strategy = .ok strategy' ∧
            strategy.subSlots ≠ strategy'.subSlots
  /-- A request that fails has changed nothing. -/
  unchanged : ∀ request fault, s.outcome request = .error fault →
    (s.perform request).library = s.library
  /-- The steps of a request in place end with the request's outcome and library, so what a
      request that fails has worked on is as it was. -/
  inPlace : ∀ request, request.inPlace s.library = (s.outcome request, (s.perform request).library)
  undone : ∀ request fault, s.outcome request = .error fault →
    request.inPlace s.library = (.error fault, s.library)

/-- When a creation fails, said of its members. -/
theorem createBundle_eq_error_iff {lib : Library} {name : String} {members : List BundleMember} :
    (∃ fault, lib.createBundle name members = .error fault) ↔
      members = [] ∨ maxMembers < members.length ∨
        (∃ m ∈ members, ¬ ∃ s, lib.get m.strategy = .ok s) ∨
          ∃ m ∈ members, ∃ m' ∈ members, ∃ s s', lib.get m.strategy = .ok s ∧
            lib.get m'.strategy = .ok s' ∧ s.subSlots ≠ s'.subSlots := by
  have hok : (∃ p, lib.createBundle name members = .ok p) ↔
      members ≠ [] ∧ members.length ≤ maxMembers ∧ ∃ slots, lib.HasTable ⟨name, members⟩ slots := by
    constructor
    · intro h
      obtain ⟨⟨number, next⟩, h⟩ := h
      exact (createBundle_eq_ok_iff.mp h).1
    · intro h
      exact ⟨_, createBundle_eq_ok_iff.mpr ⟨h, rfl, rfl⟩⟩
  rw [exists_error_iff, hok]
  by_cases hsome : members = []
  · simp [hsome]
  · rw [← no_table_iff (b := ⟨name, members⟩) hsome, not_and_or, not_and_or, not_not, Nat.not_le]

/-- **Bundles.** Whatever was asked of an empty library: its bundles are numbered in the order of
    their creation, the members of each are registered and share one table, for ever, and a
    creation is refused exactly if its members could not be bundled so. -/
theorem bundlesKept (requests : List Request) : BundlesKept (Session.start.run requests) := by
  have htold : Told (Session.start.run requests).events (Session.start.run requests).library :=
    Session.told_run told_empty requests
  have hinPlace : ∀ request : Request, request.inPlace (Session.start.run requests).library =
      ((Session.start.run requests).outcome request,
        ((Session.start.run requests).perform request).library) := fun request =>
    (request.inPlace_eq _).trans ((Session.start.run requests).settle_perform request)
  refine ⟨htold.numbered, ?_, ?_, ?_, htold.registered, ?_, ?_, ?_, hinPlace, ?_⟩
  · intro number b
    rw [bundle_eq_ok_iff, htold.bundles]
  · intro number b hbundle
    obtain ⟨hsome, hcount⟩ := htold.sizes b (mem_of_bundle hbundle)
    exact ⟨List.length_pos_iff.mpr hsome, hcount⟩
  · intro number b hbundle
    exact exists_bundleSubSlots htold.reachable hbundle (htold.sizes b (mem_of_bundle hbundle)).1
  · intro more number b hbundle
    have hgrows := (Session.start.run requests).grows_run more
    have htold' := Session.told_run htold more
    have hbundle' := hgrows.bundle hbundle
    have hsome := (htold.sizes b (mem_of_bundle hbundle)).1
    obtain ⟨slots, hslots, htable⟩ := exists_bundleSubSlots htold.reachable hbundle hsome
    obtain ⟨slots', hslots', -⟩ := exists_bundleSubSlots htold'.reachable hbundle' hsome
    refine ⟨hbundle', ?_, ?_⟩
    · rw [bundleKey_of_bundle hbundle, bundleKey_of_bundle hbundle']
    · -- both tables are that of the first member
      obtain ⟨m, hm⟩ := List.exists_mem_of_ne_nil b.members hsome
      obtain ⟨strategy, hget, htable⟩ := htable m hm
      have hsame : slots' = strategy.subSlots :=
        bundleSubSlots_eq htold'.reachable hbundle' hm (hgrows.get hget) hslots'
      rw [hslots, hslots', hsame, htable]
  · intro name members
    have hperform : ∀ fault, (Session.start.run requests).outcome (.createBundle name members) =
        .error fault ↔
        (Session.start.run requests).library.createBundle name members = .error fault := by
      intro fault
      rw [Session.outcome_eq_error_iff]
      exact map_eq_error
    simp only [hperform, createBundle_eq_error_iff, htold.registered]
    rfl
  · intro request fault hfault
    exact (Session.outcome_and_next_of_error (Session.outcome_eq_error_iff.mp hfault)).2
  · intro request fault hfault
    rw [request.inPlace_eq, Session.outcome_eq_error_iff.mp hfault]
    rfl

end Autopilot.Library
