/-
  The ledger of a single process: what its steps find and keep.

  Each step changes what is found under one number only (`find?_add`, `find?_setEnabled`,
  `find?_remove`), and what is found has the content that was inserted under its number
  (`keeps_of_fetch_inserted`). The next number is one more than the last as long as there is room
  for it (`toNat_lastId_add`), and an insertion without room is refused.
-/
import Autopilot.Proofs.Subscription.History
import Autopilot.Subscription.Memory

namespace Autopilot.MemoryLedger

/-! ## Steps and what they find -/

/-- There is a further number of 64 bits. -/
def HasRoom (m : MemoryLedger) : Prop :=
  m.lastId.toNat + 1 < bitBound 64

instance : DecidablePred HasRoom :=
  fun m => inferInstanceAs (Decidable (m.lastId.toNat + 1 < bitBound 64))

theorem insert_of_hasRoom {m : MemoryLedger} (h : m.HasRoom) (new : NewSubscription) :
    m.insert new = .ok (m.add new) :=
  if_pos h

theorem insert_of_not_hasRoom {m : MemoryLedger} (h : ¬ m.HasRoom) (new : NewSubscription) :
    m.insert new = .error (.queryFailed .overflow) :=
  if_neg h

theorem insert_eq_ok_iff {m next : MemoryLedger} {new : NewSubscription} {s : Subscription} :
    m.insert new = .ok (s, next) ↔ m.HasRoom ∧ m.add new = (s, next) := by
  by_cases h : m.HasRoom
  · rw [insert_of_hasRoom h, Except.ok.injEq]
    exact (and_iff_right h).symm
  · rw [insert_of_not_hasRoom h]
    exact iff_of_false (fun hcall => by cases hcall) fun hcall => h hcall.1

/-- With room for it, the next number is one more than the last. -/
theorem toNat_lastId_add {m : MemoryLedger} (h : m.HasRoom) :
    (m.lastId + 1).toNat = m.lastId.toNat + 1 := by
  rw [UInt64.toNat_add]
  exact Nat.mod_eq_of_lt h

theorem id_add {m : MemoryLedger} (h : m.HasRoom) (new : NewSubscription) :
    (m.add new).1.id = m.lastId.toNat + 1 :=
  toNat_lastId_add h

theorem lastId_add {m : MemoryLedger} (h : m.HasRoom) (new : NewSubscription) :
    (m.add new).2.lastId.toNat = m.lastId.toNat + 1 :=
  toNat_lastId_add h

theorem find?_add {m : MemoryLedger} (hroom : m.HasRoom) (h : m.find? (m.lastId.toNat + 1) = none)
    (new : NewSubscription) (id : Nat) :
    (m.add new).2.find? id =
      if id = m.lastId.toNat + 1 then some (m.add new).1 else m.find? id := by
  have happend : (m.add new).2.find? id =
      (m.find? id).or ([(m.add new).1].find? (·.id = id)) := List.find?_append
  have hself := id_add hroom new
  rw [happend]
  by_cases hid : id = m.lastId.toNat + 1
  · rw [if_pos hid, hid, h, Option.none_or]
    exact List.find?_cons_of_pos (decide_eq_true hself)
  · have hother : [(m.add new).1].find? (·.id = id) = none := by
      simpa [hself] using Ne.symm hid
    rw [if_neg hid, hother, Option.or_none]

theorem setEnabled_fst (m : MemoryLedger) (id : Nat) (enabled : Bool) :
    (m.setEnabled id enabled).1 = (m.find? id).isSome := by
  unfold setEnabled
  cases m.find? id with
  | none => rfl
  | some found => rfl

theorem lastId_setEnabled (m : MemoryLedger) (id : Nat) (enabled : Bool) :
    (m.setEnabled id enabled).2.lastId = m.lastId := by
  unfold setEnabled
  cases m.find? id with
  | none => rfl
  | some found => rfl

/-- Switching is the same for every subscription, and changes nothing if the number is unknown. -/
theorem subscriptions_setEnabled (m : MemoryLedger) (id : Nat) (enabled : Bool) :
    (m.setEnabled id enabled).2.subscriptions =
      m.subscriptions.map fun s => if s.id = id then { s with enabled } else s := by
  unfold setEnabled
  cases hfind : m.find? id with
  | none =>
    have hnone := List.find?_eq_none.mp hfind
    refine ((List.map_congr_left fun s hs => if_neg ?_).trans (List.map_id' _)).symm
    simpa using hnone s hs
  | some found => rfl

theorem find?_setEnabled (m : MemoryLedger) (id other : Nat) (enabled : Bool) :
    (m.setEnabled id enabled).2.find? other =
      (m.find? other).map fun s => if other = id then { s with enabled } else s := by
  have hid : ∀ s : Subscription, (if s.id = id then { s with enabled } else s).id = s.id := by
    intro s
    split
    · rfl
    · rfl
  unfold find?
  rw [subscriptions_setEnabled, List.find?_map]
  simp only [Function.comp_def, hid]
  cases hfind : m.subscriptions.find? (·.id = other) with
  | none => rfl
  | some found =>
    have hfound : found.id = other := by simpa using List.find?_some hfind
    rw [Option.map_some, Option.map_some, hfound]

theorem remove_fst (m : MemoryLedger) (id : Nat) : (m.remove id).1 = (m.find? id).isSome := by
  unfold remove
  cases m.find? id with
  | none => rfl
  | some found => rfl

theorem lastId_remove (m : MemoryLedger) (id : Nat) : (m.remove id).2.lastId = m.lastId := by
  unfold remove
  cases m.find? id with
  | none => rfl
  | some found => rfl

theorem subscriptions_remove (m : MemoryLedger) (id : Nat) :
    (m.remove id).2.subscriptions = m.subscriptions.filter (·.id ≠ id) := by
  unfold remove
  cases hfind : m.find? id with
  | none =>
    have hnone := List.find?_eq_none.mp hfind
    exact (List.filter_eq_self.mpr (by simpa using hnone)).symm
  | some found => rfl

theorem find?_remove (m : MemoryLedger) (id other : Nat) :
    (m.remove id).2.find? other = if other = id then none else m.find? other := by
  unfold find?
  rw [subscriptions_remove, List.find?_filter]
  by_cases hother : other = id
  · rw [if_pos hother]
    refine List.find?_eq_none.mpr fun s _ => ?_
    simp [hother]
  · rw [if_neg hother]
    congr 1
    funext s
    by_cases hs : s.id = other
    · simp [hs, hother]
    · simp [hs]

/-! ## Numbers and their contents -/

/-- As many numbers are given out as contents were inserted, and every subscription has the
    content of its number. -/
structure Tells (given : List NewSubscription) (m : MemoryLedger) : Prop where
  lastId : m.lastId.toNat = given.length
  kept : ∀ s ∈ m.subscriptions, ∃ i new, s.id = i + 1 ∧ given[i]? = some new ∧ s.Keeps new

theorem tells_empty : Tells [] empty := by
  refine ⟨rfl, ?_⟩
  intro s hs
  cases hs

theorem tells_add {given : List NewSubscription} {m : MemoryLedger} (h : Tells given m)
    (hroom : m.HasRoom) (new : NewSubscription) :
    (m.add new).1.id = given.length + 1 ∧ Tells (given ++ [new]) (m.add new).2 := by
  have hid : (m.add new).1.id = given.length + 1 := by rw [id_add hroom, h.lastId]
  refine ⟨hid, ?_, ?_⟩
  · rw [List.length_append]
    exact hid
  · intro s hs
    rcases List.mem_append.mp hs with hs | hs
    · obtain ⟨i, other, hi, hother, hkeeps⟩ := h.kept s hs
      have hlt : i < given.length := (List.getElem?_eq_some_iff.mp hother).1
      refine ⟨i, other, hi, ?_, hkeeps⟩
      rw [List.getElem?_append_left hlt]
      exact hother
    · rw [List.mem_singleton] at hs
      subst hs
      refine ⟨given.length, new, hid, ?_, ⟨rfl, rfl, rfl, rfl⟩⟩
      rw [List.getElem?_append_right (Nat.le_refl _), Nat.sub_self]
      rfl

theorem tells_insert {given : List NewSubscription} {m next : MemoryLedger} (h : Tells given m)
    {new : NewSubscription} {s : Subscription} (hcall : m.insert new = .ok (s, next)) :
    s.id = given.length + 1 ∧ Tells (given ++ [new]) next := by
  obtain ⟨hroom, hadd⟩ := insert_eq_ok_iff.mp hcall
  have htells := tells_add h hroom new
  rwa [hadd] at htells

theorem tells_setEnabled {given : List NewSubscription} {m : MemoryLedger} (h : Tells given m)
    (id : Nat) (enabled : Bool) : Tells given (m.setEnabled id enabled).2 := by
  refine ⟨(congrArg UInt64.toNat (lastId_setEnabled m id enabled)).trans h.lastId, ?_⟩
  intro s hs
  rw [subscriptions_setEnabled] at hs
  obtain ⟨s', hs', rfl⟩ := List.mem_map.mp hs
  obtain ⟨i, new, hi, hnew, hkeeps⟩ := h.kept s' hs'
  refine ⟨i, new, ?_, hnew, ?_⟩
  · split
    · exact hi
    · exact hi
  · split
    · exact ⟨hkeeps.target, hkeeps.owner, hkeeps.values, hkeeps.createdAt⟩
    · exact hkeeps

theorem tells_remove {given : List NewSubscription} {m : MemoryLedger} (h : Tells given m)
    (id : Nat) : Tells given (m.remove id).2 := by
  refine ⟨(congrArg UInt64.toNat (lastId_remove m id)).trans h.lastId, ?_⟩
  intro s hs
  rw [subscriptions_remove] at hs
  exact h.kept s (List.mem_of_mem_filter hs)

theorem keeps_of_find? {given : List NewSubscription} {m : MemoryLedger} (h : Tells given m)
    {i : Nat} {new : NewSubscription} (hnew : given[i]? = some new) {s : Subscription}
    (hfind : m.find? (i + 1) = some s) : s.Keeps new := by
  unfold find? at hfind
  have hid : s.id = i + 1 := by simpa using List.find?_some hfind
  obtain ⟨j, other, hj, hother, hkeeps⟩ := h.kept s (List.mem_of_find?_eq_some hfind)
  have hsame : j = i := by omega
  rw [hsame, hnew] at hother
  rw [Option.some.inj hother]
  exact hkeeps

theorem records : Ledger.Records Tells where
  insert := fun h hcall => tells_insert h hcall
  setEnabled := by
    intro given m id enabled changed next h hcall
    have hnext : next = (m.setEnabled id enabled).2 := congrArg Prod.snd (Except.ok.inj hcall).symm
    rw [hnext]
    exact tells_setEnabled h id enabled
  remove := by
    intro given m id removed next h hcall
    have hnext : next = (m.remove id).2 := congrArg Prod.snd (Except.ok.inj hcall).symm
    rw [hnext]
    exact tells_remove h id
  fetch := by
    intro given m i new s h hnew hcall
    exact keeps_of_find? h hnew (Except.ok.inj hcall)

/-- What is found later under the number of an insertion has the content that was inserted. -/
theorem keeps_of_fetch_inserted {ledger inserted later : MemoryLedger}
    (hledger : Ledger.Reaches empty ledger) {new : NewSubscription} {s found : Subscription}
    (hinsert : Ledger.insert ledger new = .ok (s, inserted))
    (hlater : Ledger.Reaches inserted later)
    (hfetch : Ledger.fetch later s.id = .ok (some found)) : found.Keeps new := by
  obtain ⟨given, hgiven⟩ := Ledger.exists_history records.step tells_empty hledger
  obtain ⟨more, hmore⟩ :=
    Ledger.exists_history records.step (records.insert hgiven hinsert).2 hlater
  exact records.keeps_of_fetch_inserted hgiven hinsert hmore hfetch

end Autopilot.MemoryLedger
