/-
  The laws that ledgers of both sorts obey.

  A number is issued once an insertion has given it out, and from then on what is found under it
  changes only by a step on that subscription: it can be switched or removed, and a step on a
  number that is not found changes nothing at all (`Ledger.Lawful`). Both the ledger of a process
  and the ledger of a database are lawful as long as they hold what was given to them, and no
  value is left behind by a subscription that is gone (`TableLedger.Sound`).
-/
import Autopilot.Proofs.Subscription.Memory
import Autopilot.Proofs.Subscription.Table

namespace Autopilot

/-- The laws of a sort of ledger, for ledgers in order and the numbers that they have issued. -/
structure Ledger.Lawful {σ : Type} [Ledger σ] (sound : σ → Prop) (issued : σ → Nat → Prop) :
    Prop where
  issued_of_fetch : ∀ {ledger : σ} {id : Nat}, sound ledger →
    Ledger.fetch ledger id ≠ .ok none → issued ledger id
  insert : ∀ {ledger next : σ} {new : NewSubscription} {s : Subscription}, sound ledger →
    Ledger.insert ledger new = .ok (s, next) → sound next ∧
      ∀ id, issued ledger id → issued next id ∧ Ledger.fetch next id = Ledger.fetch ledger id
  setEnabled_unknown : ∀ {ledger : σ} {id : Nat} (enabled : Bool), sound ledger →
    Ledger.fetch ledger id = .ok none → Ledger.setEnabled ledger id enabled = .ok (false, ledger)
  setEnabled_found : ∀ {ledger : σ} {id : Nat} {s : Subscription} (enabled : Bool), sound ledger →
    Ledger.fetch ledger id = .ok (some s) →
      ∃ next, Ledger.setEnabled ledger id enabled = .ok (true, next) ∧ sound next ∧
        ∀ other, (issued ledger other → issued next other) ∧
          (Ledger.fetch next other = Ledger.fetch ledger other ∨
            Ledger.fetch ledger other = .ok (some s) ∧
              Ledger.fetch next other = .ok (some { s with enabled }))
  remove_unknown : ∀ {ledger : σ} {id : Nat}, sound ledger →
    Ledger.fetch ledger id = .ok none → Ledger.remove ledger id = .ok (false, ledger)
  remove_found : ∀ {ledger : σ} {id : Nat} {s : Subscription}, sound ledger →
    Ledger.fetch ledger id = .ok (some s) →
      ∃ next, Ledger.remove ledger id = .ok (true, next) ∧ sound next ∧
        ∀ other, (issued ledger other → issued next other) ∧
          (Ledger.fetch next other = Ledger.fetch ledger other ∨
            Ledger.fetch ledger other = .ok (some s) ∧ Ledger.fetch next other = .ok none)

/-! ## The ledger of a process -/

namespace MemoryLedger

/-- The ledger holds subscriptions that were given to it. -/
def Sound (m : MemoryLedger) : Prop :=
  ∃ given, Tells given m

/-- The number is given out. -/
def Issued (m : MemoryLedger) (id : Nat) : Prop :=
  id ≤ m.lastId.toNat

theorem Sound.issued {m : MemoryLedger} (h : m.Sound) {id : Nat} (hfind : m.find? id ≠ none) :
    m.Issued id := by
  obtain ⟨given, htells⟩ := h
  obtain ⟨s, hs⟩ := Option.ne_none_iff_exists'.mp hfind
  obtain ⟨i, new, hi, hnew, -⟩ := htells.kept s (List.mem_of_find?_eq_some hs)
  have hid : s.id = id := by simpa using List.find?_some hs
  have hlt := (List.getElem?_eq_some_iff.mp hnew).1
  have hlast := htells.lastId
  unfold Issued
  omega

/-- Under the next number nothing is found yet. -/
theorem Sound.find?_next {m : MemoryLedger} (h : m.Sound) :
    m.find? (m.lastId.toNat + 1) = none := by
  by_contra hfound
  exact absurd (h.issued hfound) (Nat.not_succ_le_self _)

theorem sound_insert {m next : MemoryLedger} (h : m.Sound) {new : NewSubscription}
    {s : Subscription} (hcall : m.insert new = .ok (s, next)) : next.Sound := by
  obtain ⟨given, htells⟩ := h
  exact ⟨_, (tells_insert htells hcall).2⟩

/-- An insertion leaves alone what is found under the numbers that were given out before. -/
theorem find?_insert {m next : MemoryLedger} (h : m.Sound) {new : NewSubscription}
    {s : Subscription} (hcall : m.insert new = .ok (s, next)) {id : Nat} (hissued : m.Issued id) :
    next.Issued id ∧ next.find? id = m.find? id := by
  obtain ⟨hroom, hadd⟩ := insert_eq_ok_iff.mp hcall
  have hnext : (m.add new).2 = next := congrArg Prod.snd hadd
  have hlast := lastId_add hroom new
  have hfind := find?_add hroom h.find?_next new id
  unfold Issued at *
  rw [if_neg (by omega), hnext] at hfind
  rw [hnext] at hlast
  exact ⟨by omega, hfind⟩

theorem sound_setEnabled {m : MemoryLedger} (h : m.Sound) (id : Nat) (enabled : Bool) :
    (m.setEnabled id enabled).2.Sound := by
  obtain ⟨given, htells⟩ := h
  exact ⟨given, tells_setEnabled htells id enabled⟩

theorem setEnabled_of_unknown {m : MemoryLedger} {id : Nat} (hfind : m.find? id = none)
    (enabled : Bool) : m.setEnabled id enabled = (false, m) := by
  unfold setEnabled
  rw [hfind]

theorem sound_remove {m : MemoryLedger} (h : m.Sound) (id : Nat) : (m.remove id).2.Sound := by
  obtain ⟨given, htells⟩ := h
  exact ⟨given, tells_remove htells id⟩

theorem remove_of_unknown {m : MemoryLedger} {id : Nat} (hfind : m.find? id = none) :
    m.remove id = (false, m) := by
  unfold remove
  rw [hfind]

theorem lawful : Ledger.Lawful Sound Issued where
  issued_of_fetch := fun h hfetch => h.issued fun hnone => hfetch (congrArg Except.ok hnone)
  insert := fun h hcall => ⟨sound_insert h hcall, fun _ hissued =>
    ⟨(find?_insert h hcall hissued).1, congrArg Except.ok (find?_insert h hcall hissued).2⟩⟩
  setEnabled_unknown := fun enabled _ hfetch =>
    congrArg Except.ok (setEnabled_of_unknown (Except.ok.inj hfetch) enabled)
  setEnabled_found := by
    intro m id s enabled h hfetch
    have hfind : m.find? id = some s := Except.ok.inj hfetch
    have hknown := m.setEnabled_fst id enabled
    rw [hfind] at hknown
    have hlast := congrArg UInt64.toNat (lastId_setEnabled m id enabled)
    refine ⟨_, congrArg Except.ok (Prod.ext hknown rfl), sound_setEnabled h id enabled, ?_⟩
    refine fun other => ⟨fun hissued => hissued.trans_eq hlast.symm, ?_⟩
    show Except.ok _ = Except.ok _ ∨ Except.ok _ = _ ∧ Except.ok _ = _
    rw [find?_setEnabled]
    by_cases hother : other = id
    · refine .inr ⟨by rw [hother, hfind], ?_⟩
      rw [hother, hfind, Option.map_some, if_pos rfl]
    · refine .inl ?_
      simp [hother]
  remove_unknown := fun _ hfetch =>
    congrArg Except.ok (remove_of_unknown (Except.ok.inj hfetch))
  remove_found := by
    intro m id s h hfetch
    have hfind : m.find? id = some s := Except.ok.inj hfetch
    have hknown := m.remove_fst id
    rw [hfind] at hknown
    have hlast := congrArg UInt64.toNat (lastId_remove m id)
    refine ⟨_, congrArg Except.ok (Prod.ext hknown rfl), sound_remove h id, fun other => ?_⟩
    refine ⟨fun hissued => hissued.trans_eq hlast.symm, ?_⟩
    show Except.ok _ = Except.ok _ ∨ Except.ok _ = _ ∧ Except.ok _ = _
    rw [find?_remove]
    by_cases hother : other = id
    · exact .inr ⟨by rw [hother, hfind], by rw [if_pos hother]⟩
    · exact .inl (by rw [if_neg hother])

end MemoryLedger

/-! ## The ledger of a database -/

namespace TableLedger

/-- The tables hold subscriptions that were given to them, and every value belongs to one. -/
structure Sound (t : TableLedger) : Prop where
  tells : ∃ given, Tells given t
  owned : ∀ value ∈ t.valueRows, ∃ row ∈ t.rows, row.id = value.subscriptionId

/-- The number is given out. -/
def Issued (t : TableLedger) (id : Nat) : Prop :=
  rowNumber id ≤ t.lastId

theorem fetch_eq_none_iff {t : TableLedger} {id : Nat} :
    t.fetch id = .ok none ↔ t.row? (rowNumber id) = none := by
  unfold fetch
  cases hrow : t.row? (rowNumber id) with
  | none => simp
  | some row =>
    refine iff_of_false (fun h => ?_) (by simp)
    obtain ⟨enabled, -, h⟩ := bind_eq_ok.mp h
    obtain ⟨s, -, h⟩ := bind_eq_ok.mp h
    cases h

theorem isSome_row?_of_fetch {t : TableLedger} {id : Nat} {s : Subscription}
    (h : t.fetch id = .ok (some s)) : (t.row? (rowNumber id)).isSome = true := by
  obtain ⟨row, -, hrow, -⟩ := fetch_eq_some_iff.mp h
  rw [hrow]
  rfl

/-- What is found depends on the row with the number and on its values only. -/
theorem fetch_congr {t t' : TableLedger} {id : Nat}
    (hrow : t'.row? (rowNumber id) = t.row? (rowNumber id))
    (hvalues : t'.valueRows.filter (·.subscriptionId = rowNumber id) =
      t.valueRows.filter (·.subscriptionId = rowNumber id)) : t'.fetch id = t.fetch id := by
  unfold fetch
  rw [hrow]
  cases hfound : t.row? (rowNumber id) with
  | none => rfl
  | some row =>
    have hid := id_of_row? hfound
    have hsame : t'.valuesOf row.id = t.valuesOf row.id := by
      unfold valuesOf
      rw [hid, hvalues]
    dsimp only
    rw [hsame]

theorem fetch_eq_of_rowNumber_eq (t : TableLedger) {id other : Nat}
    (h : rowNumber other = rowNumber id) : t.fetch other = t.fetch id := by
  unfold fetch
  rw [h]

theorem Sound.issued {t : TableLedger} (h : t.Sound) {id : Nat}
    (hrow : t.row? (rowNumber id) ≠ none) : t.Issued id := by
  obtain ⟨given, htells⟩ := h.tells
  obtain ⟨row, hfound⟩ := Option.ne_none_iff_exists'.mp hrow
  have hid := id_of_row? hfound
  have hle := (htells.rows row (List.mem_of_find?_eq_some hfound)).id_le
  have hlast := htells.lastId
  unfold Issued
  omega

/-! ### Insertions -/

theorem sound_insert {t next : TableLedger} (h : t.Sound) {new : NewSubscription}
    {s : Subscription} (hcall : t.insert new = .ok (s, next)) : next.Sound := by
  obtain ⟨given, htells⟩ := h.tells
  refine ⟨⟨_, (tells_insert htells hcall).2⟩, ?_⟩
  unfold insert at hcall
  split at hcall
  · cases hcall
    intro value hvalue
    rcases List.mem_append.mp hvalue with hvalue | hvalue
    · obtain ⟨row, hrow, hid⟩ := h.owned value hvalue
      exact ⟨row, List.mem_append_left _ hrow, hid⟩
    · refine ⟨newRow (t.lastId + 1) new, List.mem_append_right _ List.mem_cons_self, ?_⟩
      exact (subscriptionId_newValueRows hvalue).symm
  · cases hcall

theorem fetch_insert {t next : TableLedger} {new : NewSubscription} {s : Subscription}
    (hcall : t.insert new = .ok (s, next)) {id : Nat} (hissued : t.Issued id) :
    next.Issued id ∧ next.fetch id = t.fetch id := by
  unfold Issued at hissued
  unfold insert at hcall
  split at hcall
  · cases hcall
    refine ⟨?_, fetch_congr ?_ ?_⟩
    · show rowNumber id ≤ t.lastId + 1
      omega
    · have hother : [newRow (t.lastId + 1) new].find? (·.id = rowNumber id) = none := by
        simp [newRow]
        omega
      show (t.rows ++ [newRow (t.lastId + 1) new]).find? _ = t.rows.find? _
      rw [List.find?_append, hother, Option.or_none]
    · show (t.valueRows ++ newValueRows (t.lastId + 1) new.values).filter _ = _
      rw [List.filter_append, filter_newValueRows_of_ne (by omega), List.append_nil]
  · cases hcall

/-! ### Switching -/

theorem sound_setEnabled {t : TableLedger} (h : t.Sound) (id : Nat) (enabled : Bool) :
    (t.setEnabled id enabled).2.Sound := by
  obtain ⟨given, htells⟩ := h.tells
  refine ⟨⟨given, tells_setEnabled htells id enabled⟩, fun value hvalue => ?_⟩
  obtain ⟨row, hrow, hid⟩ := h.owned value hvalue
  refine ⟨_, List.mem_map_of_mem hrow, ?_⟩
  split
  · exact hid
  · exact hid

theorem setEnabled_of_unknown {t : TableLedger} {id : Nat} (h : t.row? (rowNumber id) = none)
    (enabled : Bool) : t.setEnabled id enabled = (false, t) := by
  have hsame : (t.rows.map fun row => if row.id = rowNumber id then
      { row with enabled := .int (if enabled then 1 else 0) } else row) = t.rows := by
    refine (List.map_congr_left fun row hrow => if_neg ?_).trans (List.map_id' _)
    simpa using List.find?_eq_none.mp h row hrow
  unfold setEnabled
  dsimp only
  rw [hsame, h]
  rfl

theorem row?_setEnabled_of_ne (t : TableLedger) {id other : Nat}
    (h : rowNumber other ≠ rowNumber id) (enabled : Bool) :
    (t.setEnabled id enabled).2.row? (rowNumber other) = t.row? (rowNumber other) := by
  rw [row?_setEnabled]
  simp only [if_neg h]
  exact Option.map_id'

/-! ### Removals -/

theorem sound_remove {t : TableLedger} (h : t.Sound) (id : Nat) : (t.remove id).2.Sound := by
  obtain ⟨given, htells⟩ := h.tells
  refine ⟨⟨given, tells_remove htells id⟩, fun value hvalue => ?_⟩
  obtain ⟨hvalue, hne⟩ := List.mem_filter.mp hvalue
  obtain ⟨row, hrow, hid⟩ := h.owned value hvalue
  exact ⟨row, List.mem_filter.mpr ⟨hrow, by rw [hid]; exact hne⟩, hid⟩

theorem remove_of_unknown {t : TableLedger} (hsound : t.Sound) {id : Nat}
    (h : t.row? (rowNumber id) = none) : t.remove id = (false, t) := by
  have hnone := List.find?_eq_none.mp h
  have hrows : t.rows.filter (·.id ≠ rowNumber id) = t.rows :=
    List.filter_eq_self.mpr fun row hrow => by simpa using hnone row hrow
  have hvalues : t.valueRows.filter (·.subscriptionId ≠ rowNumber id) = t.valueRows := by
    refine List.filter_eq_self.mpr fun value hvalue => ?_
    obtain ⟨row, hrow, hid⟩ := hsound.owned value hvalue
    simpa [hid] using hnone row hrow
  unfold remove
  dsimp only
  rw [hrows, hvalues, h]
  rfl

theorem fetch_remove (t : TableLedger) (id other : Nat) :
    (t.remove id).2.fetch other =
      if rowNumber other = rowNumber id then .ok none else t.fetch other := by
  split
  · next hother =>
    refine fetch_eq_none_iff.mpr (List.find?_eq_none.mpr fun row hrow => ?_)
    have hne := (List.mem_filter.mp hrow).2
    simpa [hother] using hne
  · next hother =>
    refine fetch_congr ?_ ?_
    · show (t.rows.filter (·.id ≠ rowNumber id)).find? _ = t.rows.find? _
      rw [List.find?_filter]
      congr 1
      funext row
      by_cases hrow : row.id = rowNumber other
      · simp [hrow, hother]
      · simp [hrow]
    · show (t.valueRows.filter (·.subscriptionId ≠ rowNumber id)).filter _ = _
      rw [List.filter_filter]
      refine List.filter_congr fun value _ => ?_
      by_cases hvalue : value.subscriptionId = rowNumber other
      · simp [hvalue, hother]
      · simp [hvalue]

theorem lawful : Ledger.Lawful Sound Issued where
  issued_of_fetch := fun h hfetch => h.issued fun hrow => hfetch (fetch_eq_none_iff.mpr hrow)
  insert := fun h hcall => ⟨sound_insert h hcall, fun _ hissued => fetch_insert hcall hissued⟩
  setEnabled_unknown := fun enabled _ hfetch =>
    congrArg Except.ok (setEnabled_of_unknown (fetch_eq_none_iff.mp hfetch) enabled)
  setEnabled_found := by
    intro t id s enabled h hfetch
    have hrow := isSome_row?_of_fetch hfetch
    have hself := fetch_setEnabled hfetch enabled
    refine ⟨_, congrArg Except.ok (Prod.ext hrow rfl), sound_setEnabled h id enabled, ?_⟩
    refine fun other => ⟨fun hissued => hissued, ?_⟩
    by_cases hother : rowNumber other = rowNumber id
    · exact .inr ⟨(fetch_eq_of_rowNumber_eq t hother).trans hfetch,
        (fetch_eq_of_rowNumber_eq _ hother).trans hself⟩
    · exact .inl (fetch_congr (row?_setEnabled_of_ne t hother enabled) rfl)
  remove_unknown := fun h hfetch =>
    congrArg Except.ok (remove_of_unknown h (fetch_eq_none_iff.mp hfetch))
  remove_found := by
    intro t id s h hfetch
    have hrow := isSome_row?_of_fetch hfetch
    refine ⟨_, congrArg Except.ok (Prod.ext hrow rfl), sound_remove h id, fun other => ?_⟩
    refine ⟨fun hissued => hissued, ?_⟩
    show (t.remove id).2.fetch other = _ ∨ _ ∧ (t.remove id).2.fetch other = _
    rw [fetch_remove]
    by_cases hother : rowNumber other = rowNumber id
    · exact .inr ⟨(fetch_eq_of_rowNumber_eq t hother).trans hfetch, if_pos hother⟩
    · exact .inl (if_neg hother)

end TableLedger

end Autopilot
