/-
  Subscribing takes exactly the declared values.

  The values of a table are taken slot by slot out of the given map. Since the slots of a built
  strategy have distinct names, what is taken for one slot is not missed at another one, so each
  slot is judged by the map as it was given, and what is left over in the end are the names that no
  slot has (`concludes_takeDeclared`). Hence a map is accepted exactly if it is the map of a table
  (`Exact`), and a refused one is refused for its first slot at fault, or else for its least name
  that is not declared (`Refusal`). The ledger comes after all of these checks
  (`subscribe_takes_declared`).
-/
import Autopilot.Proofs.Library.Bundling
import Autopilot.Proofs.NameMap
import Autopilot.Proofs.Subscription.Usable

namespace Autopilot

variable {values : NameMap AbiValue} {slot : SubSlot} {slots : List SubSlot} {target : Target}
  {fault : Fault}

/-! ## One slot -/

/-- The slot is given a value of its type. -/
def Supplied (values : NameMap AbiValue) (slot : SubSlot) : Prop :=
  ∃ value, values.find? slot.name = some value ∧ value.slotType = slot.type

/-- What is at fault with what a slot is given. -/
def slotFault? (values : NameMap AbiValue) (slot : SubSlot) : Option Fault :=
  match values.find? slot.name with
  | none => some (.missingSubSlotValue slot.name)
  | some value =>
    if value.slotType = slot.type then none
    else some (.typeMismatch slot.name slot.type value.slotType)

theorem slotFault?_eq_none_iff : slotFault? values slot = none ↔ Supplied values slot := by
  unfold slotFault? Supplied
  cases values.find? slot.name with
  | none => simp
  | some value => simp

instance : Decidable (Supplied values slot) :=
  decidable_of_iff _ (Option.isNone_iff_eq_none.trans slotFault?_eq_none_iff)

theorem slotFault?_eq_some_iff : slotFault? values slot = some fault ↔
    (values.find? slot.name = none ∧ fault = .missingSubSlotValue slot.name) ∨
      ∃ value, values.find? slot.name = some value ∧ value.slotType ≠ slot.type ∧
        fault = .typeMismatch slot.name slot.type value.slotType := by
  unfold slotFault?
  cases values.find? slot.name with
  | none => simp [eq_comm]
  | some value =>
    by_cases htype : value.slotType = slot.type
    · simp [htype]
    · simp only [htype, if_false, Option.some.injEq, reduceCtorEq, false_and, false_or]
      constructor
      · intro h
        exact ⟨value, rfl, htype, h.symm⟩
      · rintro ⟨found, rfl, -, rfl⟩
        rfl

/-! ## The slots of a table -/

/-- The values are those of the table: exactly the declared names, each with a value of its slot's
    type. -/
structure Exact (slots : List SubSlot) (values : NameMap AbiValue) : Prop where
  names : ∀ name, name ∈ values.keys ↔ name ∈ slots.map (·.name)
  types : ∀ slot ∈ slots, ∀ value, values.find? slot.name = some value →
    value.slotType = slot.type

/-- Why values are refused: the first slot that is not supplied has no value, or one of another
    type, or if all are supplied, a name is given that no slot has, and it is the least of them. -/
inductive Refusal (target : Target) (slots : List SubSlot) (values : NameMap AbiValue) :
    Fault → Prop where
  | missing {front : List SubSlot} {slot : SubSlot} {back : List SubSlot} :
    slots = front ++ slot :: back → (∀ earlier ∈ front, Supplied values earlier) →
      values.find? slot.name = none →
        Refusal target slots values (.missingSubSlotValue slot.name)
  | mistyped {front : List SubSlot} {slot : SubSlot} {back : List SubSlot} {value : AbiValue} :
    slots = front ++ slot :: back → (∀ earlier ∈ front, Supplied values earlier) →
      values.find? slot.name = some value → value.slotType ≠ slot.type →
        Refusal target slots values (.typeMismatch slot.name slot.type value.slotType)
  | undeclared {name : String} :
    (∀ slot ∈ slots, Supplied values slot) → name ∈ values.keys → name ∉ slots.map (·.name) →
      (∀ other ∈ values.keys, other < name → other ∈ slots.map (·.name)) →
        Refusal target slots values (.undeclaredSubSlot target.text name)

/-- The names that no slot has, in increasing order. -/
def extraNames (slots : List SubSlot) (values : NameMap AbiValue) : List String :=
  values.keys.filter fun name => name ∉ slots.map (·.name)

/-- What is at fault with values for a table. -/
def declaredFault? (target : Target) (slots : List SubSlot) (values : NameMap AbiValue) :
    Option Fault :=
  (slots.findSome? (slotFault? values)).or
    ((extraNames slots values).head?.map (.undeclaredSubSlot target.text))

theorem extraNames_erase (slot : SubSlot) (slots : List SubSlot) (values : NameMap AbiValue) :
    extraNames slots (values.erase slot.name) = extraNames (slot :: slots) values := by
  unfold extraNames
  rw [NameMap.keys_erase, List.filter_filter]
  refine List.filter_congr fun name _ => Bool.eq_iff_iff.mpr ?_
  simp [and_comm]

/-- Taking the values of slots with distinct names fails for the first of them that is at fault,
    and leaves the names that no slot has. The map may have lost names that were taken before. -/
theorem concludes_takeDeclared {given : NameMap AbiValue} (h : (slots.map (·.name)).Nodup)
    (hgiven : ∀ slot ∈ slots, values.find? slot.name = given.find? slot.name) :
    Concludes (takeDeclared values slots) (slots.findSome? (slotFault? given))
      (fun p => p.2.keys = extraNames slots values) := by
  induction slots generalizing values with
  | nil => exact ⟨([], values), rfl, by simp [extraNames]⟩
  | cons slot rest ih =>
    obtain ⟨hfresh, hrest⟩ := List.nodup_cons.mp h
    obtain ⟨hslot, hslots⟩ := List.forall_mem_cons.mp hgiven
    unfold takeDeclared
    rw [List.findSome?_cons, hslot]
    cases hfind : given.find? slot.name with
    | none =>
      rw [slotFault?_eq_some_iff.mpr (.inl ⟨hfind, rfl⟩)]
      rfl
    | some value =>
      dsimp only
      by_cases htype : value.slotType = slot.type
      · -- the name that is taken is none of the names that follow
        have hkept : ∀ other ∈ rest,
            (values.erase slot.name).find? other.name = given.find? other.name := by
          intro other hother
          have hname : other.name ≠ slot.name := fun heq =>
            hfresh (List.mem_map.mpr ⟨other, hother, heq⟩)
          rw [NameMap.find?_erase, if_neg hname, hslots other hother]
        have htail := ih hrest hkept
        rw [extraNames_erase] at htail
        rw [slotFault?_eq_none_iff.mpr ⟨value, hfind, htype⟩, if_pos htype]
        exact htail.map fun p hp => hp
      · rw [slotFault?_eq_some_iff.mpr (.inr ⟨value, hfind, htype, rfl⟩), if_neg htype]
        rfl

theorem concludes_declaredValues (h : (slots.map (·.name)).Nodup) (target : Target)
    (values : NameMap AbiValue) :
    Concludes (declaredValues target slots values) (declaredFault? target slots values)
      (List.Forall₂ (StoredFor values) slots) := by
  have htaken : Concludes (declaredValues target slots values)
      (declaredFault? target slots values) (fun _ => True) := by
    unfold declaredValues declaredFault?
    refine (concludes_takeDeclared h fun _ _ => rfl).bind fun p hp => ?_
    dsimp only
    rw [hp]
    cases extraNames slots values with
    | nil => exact ⟨p.1, rfl, trivial⟩
    | cons extra more => rfl
  cases hfault : declaredFault? target slots values with
  | some fault =>
    rw [hfault] at htaken
    exact htaken
  | none =>
    obtain ⟨stored, hstored⟩ := htaken.exists_ok_iff.mpr hfault
    exact ⟨stored, hstored, declaredValues_spec hstored⟩

/-! ## What is at fault -/

theorem mem_extraNames {name : String} :
    name ∈ extraNames slots values ↔ name ∈ values.keys ∧ name ∉ slots.map (·.name) := by
  unfold extraNames
  rw [List.mem_filter, decide_eq_true_eq]

theorem extraNames_eq_nil_iff :
    extraNames slots values = [] ↔ ∀ name ∈ values.keys, name ∈ slots.map (·.name) := by
  simp only [List.eq_nil_iff_forall_not_mem, mem_extraNames, not_and, not_not]

/-- In an increasing list the first item is the least. -/
theorem head?_eq_some_iff_of_pairwise {names : List String} (h : names.Pairwise (· < ·))
    {name : String} :
    names.head? = some name ↔ name ∈ names ∧ ∀ other ∈ names, ¬ other < name := by
  cases names with
  | nil => simp
  | cons first rest =>
    obtain ⟨hfirst, -⟩ := List.pairwise_cons.mp h
    rw [List.head?_cons, Option.some.injEq]
    constructor
    · rintro rfl
      refine ⟨List.mem_cons_self, fun other hother hlt => ?_⟩
      rcases List.mem_cons.mp hother with rfl | hother
      · exact String.lt_irrefl other hlt
      · exact String.lt_irrefl other (String.lt_trans hlt (hfirst other hother))
    · rintro ⟨hname, hleast⟩
      rcases List.mem_cons.mp hname with rfl | hname
      · rfl
      · exact absurd (hfirst name hname) (hleast first List.mem_cons_self)

theorem pairwise_extraNames : (extraNames slots values).Pairwise (· < ·) :=
  values.pairwise_keys.filter _

theorem head?_extraNames_eq_some_iff {name : String} :
    (extraNames slots values).head? = some name ↔ name ∈ values.keys ∧
      name ∉ slots.map (·.name) ∧
        ∀ other ∈ values.keys, other < name → other ∈ slots.map (·.name) := by
  rw [head?_eq_some_iff_of_pairwise pairwise_extraNames]
  simp only [mem_extraNames, and_assoc, and_imp]
  exact and_congr_right fun _ => and_congr_right fun _ => forall₂_congr fun _ _ => not_imp_not

theorem slotsFault?_eq_none_iff :
    slots.findSome? (slotFault? values) = none ↔ ∀ slot ∈ slots, Supplied values slot := by
  rw [List.findSome?_eq_none_iff]
  exact forall₂_congr fun slot _ => slotFault?_eq_none_iff

theorem slotsFault?_eq_some_iff :
    slots.findSome? (slotFault? values) = some fault ↔ ∃ front slot back,
      slots = front ++ slot :: back ∧ slotFault? values slot = some fault ∧
        ∀ earlier ∈ front, Supplied values earlier := by
  rw [List.findSome?_eq_some_iff]
  simp only [slotFault?_eq_none_iff]

theorem exact_iff : Exact slots values ↔
    (∀ slot ∈ slots, Supplied values slot) ∧ ∀ name ∈ values.keys, name ∈ slots.map (·.name) := by
  constructor
  · intro h
    refine ⟨fun slot hslot => ?_, fun name => (h.names name).mp⟩
    obtain ⟨value, hvalue⟩ := NameMap.mem_keys_iff.mp
      ((h.names slot.name).mpr (List.mem_map.mpr ⟨slot, hslot, rfl⟩))
    exact ⟨value, hvalue, h.types slot hslot value hvalue⟩
  · rintro ⟨hsupplied, hdeclared⟩
    refine ⟨fun name => ⟨hdeclared name, fun hname => ?_⟩, fun slot hslot value hvalue => ?_⟩
    · obtain ⟨slot, hslot, rfl⟩ := List.mem_map.mp hname
      obtain ⟨value, hvalue, -⟩ := hsupplied slot hslot
      exact NameMap.mem_keys_iff.mpr ⟨value, hvalue⟩
    · obtain ⟨found, hfound, htype⟩ := hsupplied slot hslot
      rw [hvalue] at hfound
      cases hfound
      exact htype

instance : Decidable (Exact slots values) :=
  decidable_of_iff _ exact_iff.symm

theorem declaredFault?_eq_none_iff (target : Target) :
    declaredFault? target slots values = none ↔ Exact slots values := by
  unfold declaredFault?
  rw [Option.or_eq_none_iff, Option.map_eq_none_iff, List.head?_eq_none_iff,
    slotsFault?_eq_none_iff, extraNames_eq_nil_iff, exact_iff]

/-- What is at fault is what the values are refused for. -/
theorem refusal_iff :
    Refusal target slots values fault ↔ declaredFault? target slots values = some fault := by
  unfold declaredFault?
  constructor
  · intro h
    cases h with
    | missing hsplit hfront hfind =>
      rw [slotsFault?_eq_some_iff.mpr
        ⟨_, _, _, hsplit, slotFault?_eq_some_iff.mpr (.inl ⟨hfind, rfl⟩), hfront⟩]
      rfl
    | mistyped hsplit hfront hfind htype =>
      rw [slotsFault?_eq_some_iff.mpr
        ⟨_, _, _, hsplit, slotFault?_eq_some_iff.mpr (.inr ⟨_, hfind, htype, rfl⟩), hfront⟩]
      rfl
    | undeclared hall hkey hname hleast =>
      rw [slotsFault?_eq_none_iff.mpr hall, Option.none_or,
        head?_extraNames_eq_some_iff.mpr ⟨hkey, hname, hleast⟩]
      rfl
  · intro h
    rcases Option.or_eq_some_iff.mp h with hslot | ⟨hnone, hextra⟩
    · obtain ⟨front, slot, back, hsplit, hfault, hfront⟩ := slotsFault?_eq_some_iff.mp hslot
      rcases slotFault?_eq_some_iff.mp hfault with ⟨hfind, rfl⟩ | ⟨value, hfind, htype, rfl⟩
      · exact .missing hsplit hfront hfind
      · exact .mistyped hsplit hfront hfind htype
    · obtain ⟨name, hhead, rfl⟩ := Option.map_eq_some_iff.mp hextra
      obtain ⟨hkey, hname, hleast⟩ := head?_extraNames_eq_some_iff.mp hhead
      exact .undeclared (slotsFault?_eq_none_iff.mp hnone) hkey hname hleast

/-! ## Offers -/

namespace Offer

/-- The strategy was built, or the bundle was created from strategies that were. -/
def Made : Offer → Prop
  | single s => ∃ d : Draft, d.build = .ok s
  | bundle lib number => lib.Published ∧ ∃ b, lib.bundle number = .ok b

/-- Subscribes to the offer, step by step. -/
def script (owner : Address) (values : NameMap AbiValue) (now : Timestamp) : Offer → Script Nat
  | single s => Script.subscribe s owner values now
  | bundle lib number => Script.subscribeBundle lib number owner values now

variable {σ : Type} [Ledger σ] {offer : Offer} {owner : Address} {now : Timestamp}

/-- What was made has a table, and its slots have distinct names. -/
theorem Made.exists_table (h : offer.Made) :
    ∃ target slots, offer.Declares target slots ∧ (slots.map (·.name)).Nodup := by
  cases offer with
  | single s =>
    obtain ⟨d, hbuild⟩ := h
    exact ⟨_, _, ⟨rfl, rfl⟩, Strategy.Built.slots_distinct (build_eq_ok_iff.mp hbuild).2⟩
  | bundle lib number =>
    obtain ⟨hpublished, b, hbundle⟩ := h
    have hsome := Library.members_ne_nil hpublished.reachable b (Library.mem_of_bundle hbundle)
    obtain ⟨slots, hslots, htable⟩ :=
      Library.exists_bundleSubSlots hpublished.reachable hbundle hsome
    -- the table is that of a member, and the members were built
    obtain ⟨m, hm⟩ := List.exists_mem_of_ne_nil b.members hsome
    obtain ⟨s, hget, rfl⟩ := htable m hm
    exact ⟨_, _, ⟨hslots, b, hbundle, rfl⟩, (hpublished.built_of_get hget).1.slots_distinct⟩

/-- Once the table is known, the values are held against it. -/
theorem subscribe_eq_create (h : offer.Declares target slots) (ledger : σ) :
    offer.subscribe owner values now ledger =
      Manager.create target slots owner values now ledger := by
  cases offer with
  | single s =>
    obtain ⟨rfl, rfl⟩ := h
    rfl
  | bundle lib number =>
    obtain ⟨hslots, b, hbundle, rfl⟩ := h
    show Manager.subscribeBundle lib number owner values now ledger = _
    unfold Manager.subscribeBundle
    rw [state_lift_bind, hslots, ok_bind, state_lift_bind, Library.bundleKey_of_bundle hbundle,
      ok_bind]

theorem follows_script (offer : Offer) (owner : Address) (values : NameMap AbiValue)
    (now : Timestamp) : (offer.script owner values now).Follows
      (offer.subscribe owner values now : OnLedger σ Nat) := by
  cases offer with
  | single s => exact Script.follows_create _ _ _ _ _
  | bundle lib number => exact Script.follows_subscribeBundle _ _ _ _ _

end Offer

/-! ## Subscribing -/

variable {offer : Offer} {owner : Address} {now : Timestamp}

/-- Behind the values, a subscription is an insertion. -/
theorem Manager.create_eq {σ : Type} [Ledger σ] (ledger : σ) :
    create target slots owner values now ledger =
      declaredValues target slots values >>= fun stored =>
        (Ledger.insert ledger ⟨target, owner, stored, now⟩).map fun p => (p.1.id, p.2) := by
  unfold create
  rw [state_lift_bind]
  exact bind_congr fun stored => state_bind_pure

/-- What a subscription with these values comes to, on one sort of ledger or the other. -/
structure TakesDeclared (offer : Offer) (owner : Address) (values : NameMap AbiValue)
    (now : Timestamp) (target : Target) (slots : List SubSlot) : Prop where
  /-- The values of the table are inserted, in declared order, for the target and the owner. -/
  inserted : Exact slots values → ∃ stored, List.Forall₂ (StoredFor values) slots stored ∧
    ∀ {σ : Type} [Ledger σ] (ledger : σ), offer.subscribe owner values now ledger =
      (Ledger.insert ledger ⟨target, owner, stored, now⟩).map fun p => (p.1.id, p.2)
  /-- In memory, as long as there are numbers left, a handle is returned exactly if the values are
      those of the table. -/
  handle_iff : ∀ m : MemoryLedger,
    (∃ id next, offer.subscribe owner values now m = .ok (id, next)) ↔
      Exact slots values ∧ m.HasRoom
  /-- The handle is the next number, and what is found under it is switched on. -/
  stored : ∀ (m : MemoryLedger) id next, Ledger.Reaches MemoryLedger.empty m →
    offer.subscribe owner values now m = .ok (id, next) → id = m.lastId.toNat + 1 ∧
      ∃ stored, List.Forall₂ (StoredFor values) slots stored ∧
        Manager.load id next = .ok (⟨id, target, owner, stored, true, now⟩, next)
  /-- A database has fewer numbers for its rows. -/
  tables_handle_iff : ∀ t : TableLedger,
    (∃ id next, offer.subscribe owner values now t = .ok (id, next)) ↔
      Exact slots values ∧ t.lastId < largestRow
  tables_stored : ∀ (t : TableLedger) id next,
    offer.subscribe owner values now t = .ok (id, next) → id = (t.lastId + 1).toNat ∧
      ∃ stored, List.Forall₂ (StoredFor values) slots stored ∧
        next = t.grown ⟨target, owner, stored, now⟩
  /-- Other values are refused for exactly one fault. -/
  refusal : ¬ Exact slots values ↔ ∃! fault, Refusal target slots values fault
  /-- No ledger is asked for anything when values are refused. -/
  refused : ∀ fault, Refusal target slots values fault → ∀ {σ : Type} [Ledger σ] (ledger : σ),
    offer.subscribe owner values now ledger = .error fault ∧
      (offer.script owner values now).run ledger = (.error fault, ledger)

theorem refusal_iff_not_exact (target : Target) :
    ¬ Exact slots values ↔ ∃! fault, Refusal target slots values fault := by
  simp only [refusal_iff]
  rw [← declaredFault?_eq_none_iff target]
  cases declaredFault? target slots values with
  | none => simp
  | some fault => simp [ExistsUnique]

theorem subscribe_of_exact (hdeclares : offer.Declares target slots)
    (hdistinct : (slots.map (·.name)).Nodup) (h : Exact slots values) :
    ∃ stored, List.Forall₂ (StoredFor values) slots stored ∧
      ∀ {σ : Type} [Ledger σ] (ledger : σ), offer.subscribe owner values now ledger =
        (Ledger.insert ledger ⟨target, owner, stored, now⟩).map fun p => (p.1.id, p.2) := by
  have hvalues := concludes_declaredValues hdistinct target values
  rw [(declaredFault?_eq_none_iff target).mpr h] at hvalues
  obtain ⟨stored, hstored, hslots⟩ := hvalues
  refine ⟨stored, hslots, fun {σ} _ ledger => ?_⟩
  rw [Offer.subscribe_eq_create hdeclares, Manager.create_eq, hstored, ok_bind]

theorem subscribe_of_refusal (hdeclares : offer.Declares target slots)
    (hdistinct : (slots.map (·.name)).Nodup) (h : Refusal target slots values fault) {σ : Type}
    [Ledger σ] (ledger : σ) :
    offer.subscribe owner values now ledger = .error fault ∧
      (offer.script owner values now).run ledger = (.error fault, ledger) := by
  have hvalues := concludes_declaredValues hdistinct target values
  rw [refusal_iff.mp h] at hvalues
  have hrefused : declaredValues target slots values = .error fault := hvalues
  have hcall : offer.subscribe owner values now ledger = .error fault := by
    rw [Offer.subscribe_eq_create hdeclares, Manager.create_eq, hrefused]
    rfl
  refine ⟨hcall, ?_⟩
  rw [offer.follows_script owner values now ledger, hcall]
  rfl

theorem exact_of_subscribe (hdeclares : offer.Declares target slots)
    (hdistinct : (slots.map (·.name)).Nodup) {σ : Type} [Ledger σ] {ledger next : σ} {id : Nat}
    (h : offer.subscribe owner values now ledger = .ok (id, next)) : Exact slots values := by
  by_contra hnot
  obtain ⟨fault, hrefusal, -⟩ := (refusal_iff_not_exact target).mp hnot
  rw [(subscribe_of_refusal hdeclares hdistinct hrefusal ledger).1] at h
  cases h

/-- Behind a handle stands an insertion of the values of the table. -/
theorem exists_insert_of_handle (hdeclares : offer.Declares target slots)
    (hdistinct : (slots.map (·.name)).Nodup) {σ : Type} [Ledger σ] {ledger next : σ} {id : Nat}
    (h : offer.subscribe owner values now ledger = .ok (id, next)) :
    ∃ stored s, List.Forall₂ (StoredFor values) slots stored ∧
      Ledger.insert ledger ⟨target, owner, stored, now⟩ = .ok (s, next) ∧ s.id = id := by
  obtain ⟨stored, hstored, hinsert⟩ :=
    subscribe_of_exact hdeclares hdistinct (exact_of_subscribe hdeclares hdistinct h)
  obtain ⟨⟨s, inserted⟩, hinserted, hpair⟩ := map_eq_ok.mp ((hinsert ledger).symm.trans h)
  cases hpair
  exact ⟨stored, s, hstored, hinserted, rfl⟩

/-- On a ledger that takes any content or none, a handle is returned exactly if it takes them and
    the values are those of the table. -/
theorem exists_handle_iff (hdeclares : offer.Declares target slots)
    (hdistinct : (slots.map (·.name)).Nodup) {σ : Type} [Ledger σ] {ledger : σ} {takes : Prop}
    (htakes : ∀ new, (∃ p, Ledger.insert ledger new = .ok p) ↔ takes) :
    (∃ id next, offer.subscribe owner values now ledger = .ok (id, next)) ↔
      Exact slots values ∧ takes := by
  constructor
  · rintro ⟨id, next, hcall⟩
    obtain ⟨stored, s, -, hinsert, -⟩ := exists_insert_of_handle hdeclares hdistinct hcall
    exact ⟨exact_of_subscribe hdeclares hdistinct hcall, (htakes _).mp ⟨_, hinsert⟩⟩
  · rintro ⟨hexact, hroom⟩
    obtain ⟨stored, -, hcall⟩ := subscribe_of_exact hdeclares hdistinct hexact
    obtain ⟨p, hp⟩ := (htakes ⟨target, owner, stored, now⟩).mpr hroom
    exact ⟨_, _, (hcall ledger).trans (map_eq_ok.mpr ⟨p, hp, rfl⟩)⟩

/-- What was just inserted is found. -/
theorem MemoryLedger.load_add {m : MemoryLedger} (h : m.Sound) (hroom : m.HasRoom)
    (new : NewSubscription) :
    Manager.load (m.add new).1.id (m.add new).2 = .ok ((m.add new).1, (m.add new).2) := by
  refine Manager.load_eq_ok_iff.mpr ⟨congrArg Except.ok ?_, rfl⟩
  rw [id_add hroom, find?_add hroom h.find?_next, if_pos rfl]

theorem MemoryLedger.exists_insert_iff {m : MemoryLedger} {new : NewSubscription} :
    (∃ p, m.insert new = .ok p) ↔ m.HasRoom :=
  ⟨fun ⟨_, hinsert⟩ => (insert_eq_ok_iff.mp hinsert).1,
    fun hroom => ⟨_, insert_of_hasRoom hroom new⟩⟩

theorem TableLedger.exists_insert_iff {t : TableLedger} {new : NewSubscription} :
    (∃ p, t.insert new = .ok p) ↔ t.lastId < largestRow :=
  ⟨fun ⟨_, hinsert⟩ => (insert_eq_ok_iff.mp hinsert).1,
    fun hroom => ⟨_, insert_eq_ok_iff.mpr ⟨hroom, rfl, rfl⟩⟩⟩

/-- **Exactly the declared values.** Whoever subscribes to a built strategy or a created bundle gets
    a handle exactly if the names given are the declared ones and every value has its slot's type,
    and then what is stored are the declared slots in order with these values. Otherwise the
    first slot at fault or else the least undeclared name is reported, and nothing has changed. -/
theorem subscribe_takes_declared {offer : Offer} (h : offer.Made) (owner : Address)
    (values : NameMap AbiValue) (now : Timestamp) :
    ∃ target slots, offer.Declares target slots ∧
      TakesDeclared offer owner values now target slots := by
  obtain ⟨target, slots, hdeclares, hdistinct⟩ := h.exists_table
  refine ⟨target, slots, hdeclares, subscribe_of_exact hdeclares hdistinct, fun m => ?_, ?_,
    fun t => ?_, ?_, refusal_iff_not_exact target,
    fun fault hrefusal {σ} _ ledger => subscribe_of_refusal hdeclares hdistinct hrefusal ledger⟩
  · exact exists_handle_iff hdeclares hdistinct fun _ => MemoryLedger.exists_insert_iff
  · intro m id next hreaches hcall
    obtain ⟨stored, s, hstored, hinsert, rfl⟩ :=
      exists_insert_of_handle hdeclares hdistinct hcall
    have hsound : m.Sound :=
      Ledger.exists_history MemoryLedger.records.step MemoryLedger.tells_empty hreaches
    obtain ⟨hroom, hadd⟩ := MemoryLedger.insert_eq_ok_iff.mp hinsert
    cases hadd
    exact ⟨MemoryLedger.id_add hroom _, stored, hstored, MemoryLedger.load_add hsound hroom _⟩
  · exact exists_handle_iff hdeclares hdistinct fun _ => TableLedger.exists_insert_iff
  · intro t id next hcall
    obtain ⟨stored, s, hstored, hinsert, rfl⟩ :=
      exists_insert_of_handle hdeclares hdistinct hcall
    obtain ⟨-, rfl, rfl⟩ := TableLedger.insert_eq_ok_iff.mp hinsert
    exact ⟨rfl, stored, hstored, rfl⟩

/-- The values of the vault, with a value for the owner's own name besides. -/
def withProxy : NameMap AbiValue :=
  drawValues.insert proxySlot (.address 5)

/-- The bundle takes its table from `draw`: with the value of the vault there is a handle, and
    with a value for the owner's name there is none. -/
theorem subscribe_takes_declared_draw :
    (∃ id next, (Offer.bundle drawLibrary 0).subscribe 5 drawValues .epoch MemoryLedger.empty =
      .ok (id, next)) ∧
    ∀ m : MemoryLedger, (Offer.bundle drawLibrary 0).subscribe 5 withProxy .epoch m =
      .error (.undeclaredSubSlot (Target.bundle drawBundle.key).text proxySlot) := by
  have hmade : (Offer.bundle drawLibrary 0).Made :=
    ⟨published_drawLibrary, drawBundle, bundle_drawLibrary⟩
  constructor
  · obtain ⟨target, slots, ⟨hslots, -⟩, htakes⟩ :=
      subscribe_takes_declared hmade 5 drawValues .epoch
    cases subSlots_drawLibrary.symm.trans hslots
    exact (htakes.handle_iff .empty).mpr (by decide)
  · obtain ⟨target, slots, ⟨hslots, b, hbundle, rfl⟩, htakes⟩ :=
      subscribe_takes_declared hmade 5 withProxy .epoch
    cases subSlots_drawLibrary.symm.trans hslots
    cases bundle_drawLibrary.symm.trans hbundle
    intro m
    exact (htakes.refused _ (.undeclared (by decide) (by decide) (by decide) (by decide)) m).1

end Autopilot
