/-
  What the calls of a manager come down to: one step of the ledger each, behind checks.

  Subscribing stores the values of the declared slots, in declared order and of the declared
  types (`declaredValues_spec`), with a single insertion (`create_eq_ok_iff`). Loading an
  active subscription is finding it switched on.
-/
import Autopilot.Proofs.Outcome
import Autopilot.Subscription.Manager

namespace Autopilot

/-! ## Values of a table -/

/-- The value is stored for the slot: under its name, of its type, and as it was given. -/
structure StoredFor (values : NameMap AbiValue) (slot : SubSlot) (stored : String × AbiValue) :
    Prop where
  name : stored.1 = slot.name
  type : stored.2.slotType = slot.type
  given : values.find? slot.name = some stored.2

/-- For one table, what was given is stored in one way. -/
theorem storedFor_unique {values : NameMap AbiValue} {slots : List SubSlot}
    {stored stored' : List (String × AbiValue)} (h : List.Forall₂ (StoredFor values) slots stored)
    (h' : List.Forall₂ (StoredFor values) slots stored') : stored = stored' := by
  induction h generalizing stored' with
  | nil =>
    cases h'
    rfl
  | cons hfirst _ ih =>
    cases h' with
    | cons hfirst' hrest' =>
      rw [ih hrest']
      refine congrArg (· :: _) (Prod.ext (hfirst.name.trans hfirst'.name.symm) ?_)
      exact Option.some.inj (hfirst.given.symm.trans hfirst'.given)

theorem takeDeclared_spec {values left : NameMap AbiValue} {slots : List SubSlot}
    {taken : List (String × AbiValue)} (h : takeDeclared values slots = .ok (taken, left)) :
    List.Forall₂ (StoredFor values) slots taken := by
  induction slots generalizing values taken with
  | nil =>
    unfold takeDeclared at h
    cases h
    exact .nil
  | cons slot rest ih =>
    unfold takeDeclared at h
    cases hfind : values.find? slot.name with
    | none =>
      rw [hfind] at h
      cases h
    | some value =>
      rw [hfind] at h
      dsimp only at h
      by_cases htype : value.slotType = slot.type
      · rw [if_pos htype] at h
        obtain ⟨⟨taken', left'⟩, htail, h⟩ := bind_eq_ok.mp h
        cases h
        refine .cons ⟨rfl, htype, hfind⟩ ((ih htail).imp ?_)
        -- what the shorter map holds was given, and not under the name that is taken
        intro other stored hstored
        refine ⟨hstored.name, hstored.type, ?_⟩
        have hgiven := hstored.given
        rw [NameMap.find?_erase] at hgiven
        split at hgiven
        · cases hgiven
        · exact hgiven
      · rw [if_neg htype] at h
        cases h

theorem declaredValues_spec {target : Target} {slots : List SubSlot} {values : NameMap AbiValue}
    {stored : List (String × AbiValue)} (h : declaredValues target slots values = .ok stored) :
    List.Forall₂ (StoredFor values) slots stored := by
  unfold declaredValues at h
  obtain ⟨⟨taken, left⟩, htaken, h⟩ := bind_eq_ok.mp h
  dsimp only at h
  cases hkeys : left.keys with
  | nil =>
    rw [hkeys] at h
    cases h
    exact takeDeclared_spec htaken
  | cons extra more =>
    rw [hkeys] at h
    cases h

namespace Manager

variable {σ : Type} [Ledger σ]

/-! ## Subscribing -/

theorem create_eq_ok_iff {target : Target} {slots : List SubSlot} {owner : Address}
    {values : NameMap AbiValue} {now : Timestamp} {ledger next : σ} {id : Nat} :
    create target slots owner values now ledger = .ok (id, next) ↔
      ∃ stored s, declaredValues target slots values = .ok stored ∧
        Ledger.insert ledger ⟨target, owner, stored, now⟩ = .ok (s, next) ∧ s.id = id := by
  unfold create
  rw [state_bind_eq_ok]
  constructor
  · rintro ⟨stored, mid, hlift, hinsert⟩
    obtain ⟨hstored, rfl⟩ := state_lift_eq_ok.mp hlift
    obtain ⟨s, mid', hinsert, hpure⟩ := state_bind_eq_ok.mp hinsert
    cases hpure
    exact ⟨stored, s, hstored, hinsert, rfl⟩
  · rintro ⟨stored, s, hstored, hinsert, rfl⟩
    refine ⟨stored, ledger, state_lift_eq_ok.mpr ⟨hstored, rfl⟩, ?_⟩
    exact state_bind_eq_ok.mpr ⟨s, next, hinsert, rfl⟩

theorem subscribeBundle_eq_ok_iff {lib : Library} {bundle : Nat} {owner : Address}
    {values : NameMap AbiValue} {now : Timestamp} {ledger next : σ} {id : Nat} :
    subscribeBundle lib bundle owner values now ledger = .ok (id, next) ↔
      ∃ slots key, lib.bundleSubSlots bundle = .ok slots ∧ lib.bundleKey bundle = .ok key ∧
        create (.bundle key) slots owner values now ledger = .ok (id, next) := by
  unfold subscribeBundle
  rw [state_bind_eq_ok]
  constructor
  · rintro ⟨slots, mid, hlift, hrest⟩
    obtain ⟨hslots, rfl⟩ := state_lift_eq_ok.mp hlift
    obtain ⟨key, mid, hlift', hcreate⟩ := state_bind_eq_ok.mp hrest
    obtain ⟨hkey, rfl⟩ := state_lift_eq_ok.mp hlift'
    exact ⟨slots, key, hslots, hkey, hcreate⟩
  · rintro ⟨slots, key, hslots, hkey, hcreate⟩
    refine ⟨slots, ledger, state_lift_eq_ok.mpr ⟨hslots, rfl⟩, ?_⟩
    exact state_bind_eq_ok.mpr ⟨key, ledger, state_lift_eq_ok.mpr ⟨hkey, rfl⟩, hcreate⟩

/-! ## Looking up -/

theorem load_eq_ok_iff {ledger next : σ} {id : Nat} {s : Subscription} :
    load id ledger = .ok (s, next) ↔ Ledger.fetch ledger id = .ok (some s) ∧ next = ledger := by
  unfold load
  rw [state_bind_eq_ok]
  constructor
  · rintro ⟨found, mid, hcall, hrest⟩
    obtain ⟨found', hfetch, hpair⟩ := map_eq_ok.mp hcall
    cases hpair
    cases found with
    | none => cases hrest
    | some s' =>
      cases hrest
      exact ⟨hfetch, rfl⟩
  · rintro ⟨hfetch, rfl⟩
    exact ⟨some s, next, map_eq_ok.mpr ⟨some s, hfetch, rfl⟩, rfl⟩

theorem loadActive_eq_ok_iff {ledger next : σ} {id : Nat} {s : Subscription} :
    loadActive id ledger = .ok (s, next) ↔
      Ledger.fetch ledger id = .ok (some s) ∧ s.enabled = true ∧ next = ledger := by
  unfold loadActive
  rw [state_bind_eq_ok]
  constructor
  · rintro ⟨found, mid, hload, hrest⟩
    obtain ⟨hfetch, rfl⟩ := load_eq_ok_iff.mp hload
    split at hrest
    · next henabled =>
      cases hrest
      exact ⟨hfetch, henabled, rfl⟩
    · cases hrest
  · rintro ⟨hfetch, henabled, rfl⟩
    refine ⟨s, next, load_eq_ok_iff.mpr ⟨hfetch, rfl⟩, ?_⟩
    rw [if_pos henabled]
    rfl

/-- What is not found fails with the ledger's own fault, or because it is unknown or off. -/
theorem loadActive_eq_error {ledger : σ} {id : Nat} {fault : Fault}
    (h : loadActive id ledger = .error fault) :
    Ledger.fetch ledger id = .error fault ∨ fault = .unknownSubscription id ∨
      fault = .inactiveSubscription id := by
  unfold loadActive at h
  rcases state_bind_eq_error.mp h with hload | ⟨s, mid, -, hrest⟩
  · unfold load at hload
    rcases state_bind_eq_error.mp hload with hfetch | ⟨found, mid, -, hrest⟩
    · exact .inl (map_eq_error.mp hfetch)
    · cases found with
      | none =>
        cases hrest
        exact .inr (.inl rfl)
      | some s => cases hrest
  · split at hrest
    · cases hrest
    · cases hrest
      exact .inr (.inr rfl)

/-! ## Changing -/

theorem checkOwner_eq_ok_iff {ledger next : σ} {id : Nat} {caller : Address} :
    checkOwner id caller ledger = .ok ((), next) ↔
      ∃ s, Ledger.fetch ledger id = .ok (some s) ∧ s.owner = caller ∧ next = ledger := by
  unfold checkOwner
  rw [state_bind_eq_ok]
  constructor
  · rintro ⟨s, mid, hload, hrest⟩
    obtain ⟨hfetch, rfl⟩ := load_eq_ok_iff.mp hload
    split at hrest
    · next howner =>
      cases hrest
      exact ⟨s, hfetch, howner, rfl⟩
    · cases hrest
  · rintro ⟨s, hfetch, howner, rfl⟩
    refine ⟨s, next, load_eq_ok_iff.mpr ⟨hfetch, rfl⟩, ?_⟩
    rw [if_pos howner]
    rfl

/-- The owner switches a subscription that is found, with a single step of the ledger. -/
theorem setEnabled_eq_ok_iff {ledger next : σ} {id : Nat} {caller : Address} {enabled : Bool} :
    setEnabled id caller enabled ledger = .ok ((), next) ↔
      ∃ s, Ledger.fetch ledger id = .ok (some s) ∧ s.owner = caller ∧
        Ledger.setEnabled ledger id enabled = .ok (true, next) := by
  unfold setEnabled
  rw [state_bind_eq_ok]
  constructor
  · rintro ⟨u, mid, hcheck, hrest⟩
    obtain ⟨s, hfetch, howner, rfl⟩ := checkOwner_eq_ok_iff.mp hcheck
    obtain ⟨changed, mid, hstep, hrest⟩ := state_bind_eq_ok.mp hrest
    cases changed with
    | true =>
      cases hrest
      exact ⟨s, hfetch, howner, hstep⟩
    | false => cases hrest
  · rintro ⟨s, hfetch, howner, hstep⟩
    refine ⟨(), ledger, checkOwner_eq_ok_iff.mpr ⟨s, hfetch, howner, rfl⟩, ?_⟩
    exact state_bind_eq_ok.mpr ⟨true, next, hstep, rfl⟩

/-- The owner removes a subscription that is found, with a single step of the ledger. -/
theorem revoke_eq_ok_iff {ledger next : σ} {id : Nat} {caller : Address} :
    revoke id caller ledger = .ok ((), next) ↔
      ∃ s, Ledger.fetch ledger id = .ok (some s) ∧ s.owner = caller ∧
        Ledger.remove ledger id = .ok (true, next) := by
  unfold revoke
  rw [state_bind_eq_ok]
  constructor
  · rintro ⟨u, mid, hcheck, hrest⟩
    obtain ⟨s, hfetch, howner, rfl⟩ := checkOwner_eq_ok_iff.mp hcheck
    obtain ⟨removed, mid, hstep, hrest⟩ := state_bind_eq_ok.mp hrest
    cases removed with
    | true =>
      cases hrest
      exact ⟨s, hfetch, howner, hstep⟩
    | false => cases hrest
  · rintro ⟨s, hfetch, howner, hstep⟩
    refine ⟨(), ledger, checkOwner_eq_ok_iff.mpr ⟨s, hfetch, howner, rfl⟩, ?_⟩
    exact state_bind_eq_ok.mpr ⟨true, next, hstep, rfl⟩

end Manager

end Autopilot
