/-
  Which subscriptions of a database stay usable.

  Subscribing asks for values of the declared types and stores their texts; every later call reads
  these texts back, and reading asks more: the type must be a legal one, the value must fit it, and
  the year of creation must have four digits. So a subscription of such a year whose values are
  legal and fit can be loaded with these values, and switched and revoked by its owner, until it is
  revoked (`usable_or_stuck`), whereas a value that was accepted without fitting its type leaves a
  subscription that cannot be read, and hence neither switched nor removed, by anybody
  (`subscribe_oversized`).
-/
import Autopilot.Proofs.Subscription.ContentHash
import Autopilot.Proofs.Subscription.Interleaving
import Autopilot.Proofs.Timestamp

namespace Autopilot

/-! ## Calls to a database -/

/-- The event is a revocation of the subscription with the number, and succeeded. Numbers that name
    the same row are the same. -/
def Event.Revokes (id : Nat) (e : Event) : Prop :=
  ∃ handle caller reply, e.call = .revoke handle caller ∧ rowNumber handle = rowNumber id ∧
    e.outcome = .ok reply

namespace TableLedger

/-- The subscription can be loaded with its content, and its owner can switch and revoke it. -/
structure Usable (t : TableLedger) (id : Nat) (target : Target) (owner : Address)
    (stored : List (String × AbiValue)) : Prop where
  load : ∃ s, Manager.load id t = .ok (s, t) ∧ s.target = target ∧ s.owner = owner ∧
    s.values = stored
  deactivate : ∃ next, Manager.deactivate id owner t = .ok ((), next)
  activate : ∃ next, Manager.activate id owner t = .ok ((), next)
  revoke : ∃ next, Manager.revoke id owner t = .ok ((), next)

/-- Nobody can load, switch or revoke the subscription. -/
structure Stuck (t : TableLedger) (id : Nat) : Prop where
  load : ∃ fault, Manager.load id t = .error fault
  deactivate : ∀ caller, ∃ fault, Manager.deactivate id caller t = .error fault
  activate : ∀ caller, ∃ fault, Manager.activate id caller t = .error fault
  revoke : ∀ caller, ∃ fault, Manager.revoke id caller t = .error fault

/-! ## From what is found -/

theorem usable_of_fetch {t : TableLedger} (hsound : t.Sound) {id : Nat} {s : Subscription}
    (hfetch : t.fetch id = .ok (some s)) : t.Usable id s.target s.owner s.values := by
  have hswitch : ∀ enabled, ∃ next, Manager.setEnabled id s.owner enabled t = .ok ((), next) := by
    intro enabled
    obtain ⟨next, hstep, -⟩ := lawful.setEnabled_found enabled hsound hfetch
    exact ⟨next, Manager.setEnabled_eq_ok_iff.mpr ⟨s, hfetch, rfl, hstep⟩⟩
  obtain ⟨next, hremove, -⟩ := lawful.remove_found hsound hfetch
  exact ⟨⟨s, Manager.load_eq_ok_iff.mpr ⟨hfetch, rfl⟩, rfl, rfl, rfl⟩, hswitch false, hswitch true,
    next, Manager.revoke_eq_ok_iff.mpr ⟨s, hfetch, rfl, hremove⟩⟩

theorem stuck_of_fetch {t : TableLedger} {id : Nat} {fault : Fault}
    (hfetch : t.fetch id = .error fault) : t.Stuck id := by
  have hnever : ∀ s, Ledger.fetch t id ≠ .ok (some s) := by
    intro s hs
    rw [show Ledger.fetch t id = .error fault from hfetch] at hs
    cases hs
  have hswitch : ∀ enabled caller, ∃ fault,
      Manager.setEnabled id caller enabled t = .error fault := by
    intro enabled caller
    rw [exists_error_iff]
    rintro ⟨⟨u, next⟩, hcall⟩
    obtain ⟨s, hs, -⟩ := Manager.setEnabled_eq_ok_iff.mp hcall
    exact hnever s hs
  refine ⟨?_, hswitch false, hswitch true, fun caller => ?_⟩
  · rw [exists_error_iff]
    rintro ⟨⟨s, next⟩, hcall⟩
    exact hnever s (Manager.load_eq_ok_iff.mp hcall).1
  · rw [exists_error_iff]
    rintro ⟨⟨u, next⟩, hcall⟩
    obtain ⟨s, hs, -⟩ := Manager.revoke_eq_ok_iff.mp hcall
    exact hnever s hs

/-! ## Insertions -/

/-- The tables with a new subscription under the next number. -/
def grown (t : TableLedger) (new : NewSubscription) : TableLedger :=
  ⟨t.lastId + 1, t.rows ++ [newRow (t.lastId + 1) new],
    t.valueRows ++ newValueRows (t.lastId + 1) new.values⟩

theorem insert_eq_ok_iff {t next : TableLedger} {new : NewSubscription}
    {s : Subscription} :
    t.insert new = .ok (s, next) ↔ t.lastId < largestRow ∧
      s = ⟨(t.lastId + 1).toNat, new.target, new.owner, new.values, true, new.createdAt⟩ ∧
        next = t.grown new := by
  unfold insert
  by_cases hroom : t.lastId < largestRow
  · simp [hroom, grown, eq_comm]
  · simp [hroom]

theorem row?_grown {given : List NewSubscription} {t : TableLedger} (h : Tells given t)
    (new : NewSubscription) :
    (t.grown new).row? (t.lastId + 1) = some (newRow (t.lastId + 1) new) := by
  have hlast := h.lastId
  have hnone : t.rows.find? (·.id = t.lastId + 1) = none := by
    refine List.find?_eq_none.mpr fun row hrow => ?_
    have hle := (h.rows row hrow).id_le
    rw [decide_eq_true_eq]
    omega
  show (t.rows ++ [newRow (t.lastId + 1) new]).find? _ = _
  rw [List.find?_append, hnone, Option.none_or]
  exact List.find?_cons_of_pos (decide_eq_true rfl)

/-- What was just inserted is found, if it can be read back. -/
theorem fetch_inserted {t next : TableLedger} (hsound : t.Sound) {new : NewSubscription}
    {s : Subscription} (hcall : t.insert new = .ok (s, next)) :
    (new.Readable → next.fetch s.id =
        .ok (some ⟨s.id, new.target, new.owner, new.values, true, new.createdAt.settled⟩)) ∧
      (¬ new.Readable → ∃ fault, next.fetch s.id = .error fault) := by
  obtain ⟨given, htells⟩ := hsound.tells
  obtain ⟨hid, hnext⟩ := tells_insert htells hcall
  have hnew : (given ++ [new])[given.length]? = some new := by simp
  have hrow : next.row? (rowNumber (given.length + 1)) = some (newRow (t.lastId + 1) new) := by
    obtain ⟨-, -, rfl⟩ := insert_eq_ok_iff.mp hcall
    rw [rowNumber_of_tells hnext hnew, ← htells.lastId]
    exact row?_grown htells new
  obtain ⟨hread, hnot⟩ := fetch_of_tells hnext hnew hrow rfl
  rw [hid]
  refine ⟨hread, fun hunreadable => ?_⟩
  obtain ⟨defect, herror⟩ := hnot hunreadable
  exact ⟨_, herror⟩

/-! ## Calls that come later -/

/-- A number under which something is found names its row. -/
theorem rowNumber_of_fetch {t : TableLedger} (hsound : t.Sound) {id : Nat} {s : Subscription}
    (hfetch : t.fetch id = .ok (some s)) : rowNumber id = s.id := by
  obtain ⟨given, htells⟩ := hsound.tells
  obtain ⟨row, enabled, hrow, -, hread⟩ := fetch_eq_some_iff.mp hfetch
  obtain ⟨target, owner, createdAt, values, -, -, -, -, rfl⟩ :=
    SubscriptionRow.read_eq_ok_iff.mp hread
  obtain ⟨i, -, hi, -⟩ := htells.rows row (List.mem_of_find?_eq_some hrow)
  have hid := id_of_row? hrow
  show rowNumber id = (row.id.toNat : Int)
  omega

theorem sound_of_serial {first last : TableLedger} {events : List Event} (hsound : first.Sound)
    (h : Serial first events last) : last.Sound := by
  induction events generalizing first with
  | nil =>
    obtain rfl : last = first := h
    exact hsound
  | cons event events ih =>
    exact ih ((event.call.effect_perform lawful hsound).sound_next lawful hsound) h.2

/-- What cannot be read stays as it is. -/
theorem fetch_error_of_serial {first last : TableLedger} {events : List Event}
    (hsound : first.Sound) (h : Serial first events last) {id : Nat} {fault : Fault}
    (hfetch : first.fetch id = .error fault) : last.fetch id = .error fault := by
  induction events generalizing first with
  | nil =>
    obtain rfl : last = first := h
    exact hfetch
  | cons event events ih =>
    have heffect := event.call.effect_perform lawful hsound
    refine ih (heffect.sound_next lawful hsound) h.2 ?_
    have hissued : first.Issued id := by
      refine lawful.issued_of_fetch hsound fun hnone => ?_
      cases hnone.symm.trans hfetch
    rcases heffect.fetch lawful hsound hissued with hsame | ⟨s, handle, -, -, -, hfound, -⟩
    · exact hsame.trans hfetch
    · cases hfound.symm.trans hfetch

/-- What is found stays, switched on or off, as long as it is not revoked. -/
theorem fetch_found_of_serial {first last : TableLedger} {events : List Event}
    (hsound : first.Sound) (h : Serial first events last) {id : Nat} {s : Subscription}
    (hfetch : first.fetch id = .ok (some s)) (hkept : ∀ e ∈ events, ¬ e.Revokes id) :
    ∃ enabled, last.fetch id = .ok (some { s with enabled }) := by
  induction events generalizing first s with
  | nil =>
    obtain rfl : last = first := h
    exact ⟨s.enabled, hfetch⟩
  | cons event events ih =>
    have heffect := event.call.effect_perform lawful hsound
    have hnext := heffect.sound_next lawful hsound
    have hrest : ∀ e ∈ events, ¬ e.Revokes id := fun e he => hkept e (List.mem_cons_of_mem _ he)
    have hissued : first.Issued id := by
      refine lawful.issued_of_fetch hsound fun hnone => ?_
      cases hnone.symm.trans hfetch
    rcases heffect.fetch lawful hsound hissued with
      hsame | ⟨s', handle, -, -, hhandle, hfound, hchanged⟩
    · exact ih hnext h.2 (hsame.trans hfetch) hrest
    · cases hfound.symm.trans hfetch
      rcases hchanged with ⟨hrevoke, hgone⟩ | ⟨enabled, hswitched⟩
      · -- the revocation names this row; one that fails would have left the subscription there
        have hrow : rowNumber handle = rowNumber id :=
          (rowNumber_of_fetch hsound hhandle).trans (rowNumber_of_fetch hsound hfetch).symm
        cases houtcome : event.outcome with
        | error fault =>
          rw [settle_of_error (h.1.trans houtcome)] at hgone
          cases hgone.symm.trans hfetch
        | ok reply =>
          exact absurd ⟨handle, s.owner, reply, hrevoke, hrow, houtcome⟩
            (hkept event List.mem_cons_self)
      · obtain ⟨last, hlast⟩ := ih hnext h.2 hswitched hrest
        exact ⟨last, hlast⟩

end TableLedger

/-- A database accepts a subscription, whatever was called before, and calls follow. If all values
    that it keeps are of legal types and fit, and the year is one of four digits, then until it is
    revoked it can be loaded with these values, and its owner can switch and revoke it. Otherwise
    nobody can ever load, switch or revoke it. -/
theorem usable_or_stuck {offer : Offer} {owner : Address} {values : NameMap AbiValue}
    {now : Timestamp} {before after : List Event} {ledger accepted later : TableLedger} {id : Nat}
    (hbefore : Serial TableLedger.empty before ledger)
    (haccepted : offer.subscribe owner values now ledger = .ok (id, accepted))
    (hafter : Serial accepted after later) :
    ∃ target slots stored, offer.Declares target slots ∧
      List.Forall₂ (StoredFor values) slots stored ∧
      ((∀ v ∈ stored, v.2.slotType.legal = true ∧ v.2.fits = true) ∧ now.FourDigitYear →
        (∀ e ∈ after, ¬ e.Revokes id) → later.Usable id target owner stored) ∧
      (¬ ((∀ v ∈ stored, v.2.slotType.legal = true ∧ v.2.fits = true) ∧ now.FourDigitYear) →
        later.Stuck id) := by
  obtain ⟨target, slots, hdeclares, hcreate⟩ := Offer.declares_of_subscribe haccepted
  obtain ⟨stored, s, hstored, hinsert, rfl⟩ := Manager.create_eq_ok_iff.mp hcreate
  have hsound := TableLedger.sound_of_serial TableLedger.sound_empty hbefore
  have hnext := TableLedger.sound_insert hsound hinsert
  refine ⟨target, slots, stored, hdeclares, declaredValues_spec hstored, fun hall hkept => ?_,
    fun hnot => ?_⟩
  · have hfetch := (TableLedger.fetch_inserted hsound hinsert).1 hall
    obtain ⟨enabled, hlater⟩ := TableLedger.fetch_found_of_serial hnext hafter hfetch hkept
    exact TableLedger.usable_of_fetch (TableLedger.sound_of_serial hnext hafter) hlater
  · obtain ⟨fault, hfetch⟩ := (TableLedger.fetch_inserted hsound hinsert).2 hnot
    exact TableLedger.stuck_of_fetch (TableLedger.fetch_error_of_serial hnext hafter hfetch)

/-- The database with the subscription to `draw`. -/
def vaultTables : TableLedger :=
  TableLedger.empty.grown ⟨.strategy draw.id, 5, [("vault", .uint 9 256)], .epoch⟩

theorem usable_or_stuck_draw :
    (Offer.single draw).subscribe 5 drawValues .epoch TableLedger.empty = .ok (1, vaultTables) ∧
      vaultTables.Usable 1 (.strategy draw.id) 5 [("vault", .uint 9 256)] := by
  have hbefore : Serial TableLedger.empty [] TableLedger.empty := rfl
  have haccepted : (Offer.single draw).subscribe 5 drawValues .epoch TableLedger.empty =
      .ok (1, vaultTables) :=
    Manager.create_eq_ok_iff.mpr ⟨_, _, rfl, rfl, rfl⟩
  have hafter : Serial vaultTables [⟨.revoke 2 5, .error (.unknownSubscription 2)⟩] vaultTables :=
    ⟨rfl, rfl⟩
  obtain ⟨target, slots, stored, ⟨rfl, rfl⟩, hstored, husable, -⟩ :=
    usable_or_stuck hbefore haccepted hafter
  obtain rfl : stored = [("vault", .uint 9 256)] := by
    obtain ⟨v, rest, hv, hrest, rfl⟩ := List.forall₂_cons_left_iff.mp hstored
    cases List.forall₂_nil_left_iff.mp hrest
    exact congrArg (fun v => [v]) (Prod.ext hv.name (Option.some.inj hv.given).symm)
  refine ⟨haccepted, husable ⟨by decide, by decide⟩ fun e he => ?_⟩
  obtain rfl := List.mem_singleton.mp he
  rintro ⟨handle, caller, reply, -, -, houtcome⟩
  cases houtcome

/-! ## A value that does not fit -/

/-- A value of the declared type that does not fit is accepted, and the subscription is stuck. -/
theorem subscribe_oversized :
    ratioDraft.build = .ok ratio ∧ ∃ accepted,
      (Offer.single ratio).subscribe 5 (NameMap.ofList [("state", oversized)]) .epoch
        TableLedger.empty = .ok (1, accepted) ∧ accepted.Stuck 1 := by
  have hinsert : TableLedger.empty.insert
      ⟨.strategy ratio.id, 5, [("state", oversized)], .epoch⟩ = .ok (_, _) := rfl
  obtain ⟨fault, hfetch⟩ :=
    (TableLedger.fetch_inserted TableLedger.sound_empty hinsert).2
      (not_readable_of_oversized List.mem_cons_self)
  refine ⟨rfl, _, ?_, TableLedger.stuck_of_fetch hfetch⟩
  exact Manager.create_eq_ok_iff.mpr ⟨_, _, rfl, rfl, rfl⟩

end Autopilot
