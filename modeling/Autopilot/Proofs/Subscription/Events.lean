/-
  What the calls of a process and their outcomes say of each handle.

  The events determine which content was granted under a handle, whether it was revoked and how
  it was switched last, and so the record that stands behind it (`record?`). The ledger holds
  these records: it does so when it is empty (`told_empty`), and every call keeps it so
  (`Told.perform`).
-/
import Autopilot.Proofs.Subscription.Answers

namespace Autopilot

/-! ## What the events say -/

/-- The state into which a change switches a handle. -/
def Change.switched? (id : Nat) : Change → Option Bool
  | .switch other enabled => if other = id then some enabled else none
  | _ => none

/-- Whether a change removes a handle. -/
def Change.removes (id : Nat) : Change → Bool
  | .removal other => other = id
  | _ => false

/-- The contents that were granted, in order. -/
def granted (events : List Event) : List NewSubscription :=
  events.filterMap fun e => e.change.granted?

/-- The answers to the subscriptions that succeeded, in order. -/
def grants (events : List Event) : List Reply :=
  events.filterMap Event.grant?

/-- The content that was granted under a handle; handles are counted from one. -/
def grantedAs? (events : List Event) : Nat → Option NewSubscription
  | 0 => none
  | n + 1 => (granted events)[n]?

/-- Whether a handle was revoked. -/
def isRevoked (events : List Event) (id : Nat) : Bool :=
  events.any fun e => e.change.removes id

/-- The state into which a handle was switched last, if it ever was. -/
def lastSwitch? (events : List Event) (id : Nat) : Option Bool :=
  (events.filterMap fun e => e.change.switched? id).getLast?

/-- The subscription that stands behind a handle. -/
def record? (events : List Event) (id : Nat) : Option Subscription :=
  if isRevoked events id then none
  else (grantedAs? events id).map fun new =>
    ⟨id, new.target, new.owner, new.values, (lastSwitch? events id).getD true, new.createdAt⟩

section Snoc

variable (events : List Event) (e : Event)

theorem granted_snoc : granted (events ++ [e]) = granted events ++ e.change.granted?.toList := by
  unfold granted
  rw [List.filterMap_append]
  cases h : e.change.granted? with
  | none => simp [h]
  | some new => simp [h]

theorem grants_snoc : grants (events ++ [e]) = grants events ++ e.grant?.toList := by
  unfold grants
  rw [List.filterMap_append]
  cases h : e.grant? with
  | none => simp [h]
  | some reply => simp [h]

theorem isRevoked_snoc (id : Nat) :
    isRevoked (events ++ [e]) id = (isRevoked events id || e.change.removes id) := by
  unfold isRevoked
  simp

theorem lastSwitch?_snoc (id : Nat) :
    lastSwitch? (events ++ [e]) id = (e.change.switched? id).or (lastSwitch? events id) := by
  unfold lastSwitch?
  rw [List.filterMap_append]
  cases h : e.change.switched? id with
  | none => simp [h]
  | some enabled => simp [h]

theorem grantedAs?_snoc {new : NewSubscription} (h : e.change = .grant new) (id : Nat) :
    grantedAs? (events ++ [e]) id =
      if id = (granted events).length + 1 then some new else grantedAs? events id := by
  cases id with
  | zero => rfl
  | succ n =>
    unfold grantedAs?
    rw [granted_snoc, h]
    show (granted events ++ [new])[n]? = if n + 1 = _ then some new else (granted events)[n]?
    by_cases hn : n = (granted events).length
    · rw [if_pos (by omega), hn]
      simp
    · rw [if_neg (by omega), List.getElem?_append]
      by_cases hlt : n < (granted events).length
      · rw [if_pos hlt]
      · have hpast : [new].length ≤ n - (granted events).length := by
          rw [List.length_singleton]
          omega
        rw [if_neg hlt, List.getElem?_eq_none hpast, List.getElem?_eq_none (by omega)]

/-- The events speak of no handle that is not given out. -/
def Untouched (id : Nat) : Prop :=
  isRevoked events id = false ∧ lastSwitch? events id = none

variable {events e}

theorem record?_grant {new : NewSubscription} (h : e.change = .grant new)
    (huntouched : Untouched events ((granted events).length + 1)) (id : Nat) :
    record? (events ++ [e]) id =
      if id = (granted events).length + 1 then
        some ⟨id, new.target, new.owner, new.values, true, new.createdAt⟩
      else record? events id := by
  unfold record?
  rw [isRevoked_snoc, lastSwitch?_snoc, grantedAs?_snoc _ _ h, h]
  by_cases hid : id = (granted events).length + 1
  · rw [if_pos hid, if_pos hid, hid, huntouched.1, huntouched.2]
    rfl
  · rw [if_neg hid, if_neg hid]
    simp [Change.removes, Change.switched?]

theorem record?_other (h : e.change.granted? = none) (id : Nat) :
    record? (events ++ [e]) id =
      if e.change.removes id then none
      else (record? events id).map fun s =>
        { s with enabled := (e.change.switched? id).getD s.enabled } := by
  have hgranted : grantedAs? (events ++ [e]) id = grantedAs? events id := by
    cases id with
    | zero => rfl
    | succ n =>
      unfold grantedAs?
      rw [granted_snoc, h]
      simp
  unfold record?
  rw [isRevoked_snoc, lastSwitch?_snoc, hgranted]
  cases e.change.removes id with
  | true => simp
  | false =>
    cases isRevoked events id with
    | true => simp
    | false =>
      cases e.change.switched? id with
      | none => simp [Function.comp_def]
      | some enabled => simp [Function.comp_def]

end Snoc

/-! ## What the ledger holds -/

/-- The ledger holds what the events say: handles are counted, each grant has got the next one, no
    event speaks of a handle that is not given out, and each handle stands for its record. -/
structure Told (events : List Event) (m : MemoryLedger) : Prop where
  lastId : m.lastId.toNat = (granted events).length
  handles : grants events = (List.range' 1 (granted events).length).map .handle
  untouched : ∀ id, m.lastId.toNat < id → Untouched events id
  found : ∀ id, m.find? id = record? events id

theorem told_empty : Told [] .empty where
  lastId := rfl
  handles := rfl
  untouched := fun _ _ => ⟨rfl, rfl⟩
  found := by
    intro id
    cases id with
    | zero => rfl
    | succ n => rfl

namespace Told

variable {events : List Event} {m : MemoryLedger} {e : Event}

theorem grant (h : Told events m) {new : NewSubscription} (hchange : e.change = .grant new)
    (hgrant : e.grant? = some (.handle (m.lastId.toNat + 1))) (hroom : m.HasRoom) :
    Told (events ++ [e]) (m.add new).2 := by
  have hlast := h.lastId
  have hnext := MemoryLedger.lastId_add hroom new
  have hlength : (granted (events ++ [e])).length = (granted events).length + 1 := by
    rw [granted_snoc, hchange]
    simp [Change.granted?]
  have hfresh : Untouched events (m.lastId.toNat + 1) := h.untouched _ (Nat.lt_succ_self _)
  have hnone : m.find? (m.lastId.toNat + 1) = none := by
    rw [h.found, hlast]
    unfold record? grantedAs?
    simp
  refine ⟨?_, ?_, ?_, ?_⟩
  · rw [hlength, ← hlast, hnext]
  · rw [hlength, grants_snoc, h.handles, hgrant, hlast, List.range'_concat]
    simp [Nat.add_comm]
  · intro id hid
    have huntouched := h.untouched id (by omega)
    refine ⟨?_, ?_⟩
    · rw [isRevoked_snoc, huntouched.1, hchange]
      rfl
    · rw [lastSwitch?_snoc, huntouched.2, hchange]
      rfl
  · intro id
    rw [hlast] at hfresh
    have hself : (m.add new).1.id = (granted events).length + 1 := by
      rw [MemoryLedger.id_add hroom, hlast]
    rw [MemoryLedger.find?_add hroom hnone, record?_grant hchange hfresh, h.found, hlast]
    by_cases hid : id = (granted events).length + 1
    · rw [if_pos hid, if_pos hid, hid, ← hself]
      rfl
    · rw [if_neg hid, if_neg hid]

/-- A change other than a grant is to a handle that is given out. -/
theorem other (h : Told events m) (hgrant : e.grant? = none)
    (hgranted : e.change.granted? = none) {next : MemoryLedger}
    (hlast : next.lastId = m.lastId)
    (huntouched : ∀ id, m.lastId.toNat < id →
      e.change.removes id = false ∧ e.change.switched? id = none)
    (hfound : ∀ id, next.find? id = if e.change.removes id then none
      else (m.find? id).map fun s => { s with enabled := (e.change.switched? id).getD s.enabled }) :
    Told (events ++ [e]) next := by
  have hgranted' : granted (events ++ [e]) = granted events := by
    rw [granted_snoc, hgranted]
    exact List.append_nil _
  refine ⟨?_, ?_, ?_, ?_⟩
  · rw [hgranted', hlast, h.lastId]
  · rw [hgranted', grants_snoc, hgrant, h.handles]
    exact List.append_nil _
  · intro id hid
    rw [hlast] at hid
    obtain ⟨hremoves, hswitched⟩ := huntouched id hid
    have hbefore := h.untouched id hid
    refine ⟨?_, ?_⟩
    · rw [isRevoked_snoc, hbefore.1, hremoves]
      rfl
    · rw [lastSwitch?_snoc, hbefore.2, hswitched]
      rfl
  · intro id
    rw [hfound, record?_other hgranted, h.found]

theorem le_of_find? (h : Told events m) {id : Nat} {s : Subscription}
    (hfind : m.find? id = some s) : id ≤ m.lastId.toNat := by
  rw [h.found] at hfind
  cases id with
  | zero => omega
  | succ n =>
    have hgranted : ∃ new, (granted events)[n]? = some new := by
      unfold record? grantedAs? at hfind
      split at hfind
      · cases hfind
      · obtain ⟨new, hnew, -⟩ := Option.map_eq_some_iff.mp hfind
        exact ⟨new, hnew⟩
    obtain ⟨new, hnew⟩ := hgranted
    have hlt := (List.getElem?_eq_some_iff.mp hnew).1
    rw [h.lastId]
    omega

theorem switch (h : Told events m) {id : Nat} {enabled : Bool} {s : Subscription}
    (hgrant : e.grant? = none) (hchange : e.change = .switch id enabled)
    (hfind : m.find? id = some s) : Told (events ++ [e]) (m.setEnabled id enabled).2 := by
  have hle := h.le_of_find? hfind
  refine h.other hgrant (by rw [hchange]; rfl) (m.lastId_setEnabled id enabled) ?_ ?_
  · intro other hother
    rw [hchange]
    exact ⟨rfl, if_neg (by omega)⟩
  · intro other
    rw [m.find?_setEnabled, hchange]
    simp only [Change.removes, Change.switched?, eq_comm (a := id)]
    by_cases hother : other = id
    · simp [hother]
    · simp [hother]

theorem removal (h : Told events m) {id : Nat} {s : Subscription}
    (hgrant : e.grant? = none) (hchange : e.change = .removal id) (hfind : m.find? id = some s) :
    Told (events ++ [e]) (m.remove id).2 := by
  have hle := h.le_of_find? hfind
  refine h.other hgrant (by rw [hchange]; rfl) (m.lastId_remove id) ?_ ?_
  · intro other hother
    rw [hchange]
    exact ⟨decide_eq_false (by omega), rfl⟩
  · intro other
    rw [m.find?_remove, hchange]
    simp only [Change.removes, Change.switched?, eq_comm (a := id)]
    by_cases hother : other = id
    · simp [hother]
    · simp [hother]

theorem nothing (h : Told events m) (hgrant : e.grant? = none) (hchange : e.change = .nothing) :
    Told (events ++ [e]) m := by
  refine h.other hgrant (by rw [hchange]; rfl) rfl ?_ ?_
  · intro id _
    rw [hchange]
    exact ⟨rfl, rfl⟩
  · intro id
    rw [hchange]
    simp [Change.removes, Change.switched?]

/-- What the ledger holds behind a call. -/
theorem perform (h : Told events m) (call : Call) :
    Told (events ++ [⟨call, call.answer m⟩]) (m.carry (Event.change ⟨call, call.answer m⟩)) := by
  have hgrant := grant?_answer m call
  have hfinds := finds_answer m call
  cases hchange : Event.change ⟨call, call.answer m⟩ with
  | nothing =>
    rw [hchange] at hgrant
    exact h.nothing hgrant hchange
  | grant new =>
    rw [hchange] at hgrant hfinds
    exact h.grant hchange hgrant hfinds
  | switch id enabled =>
    rw [hchange] at hgrant hfinds
    obtain ⟨s, hfind⟩ := hfinds
    exact h.switch hgrant hchange hfind
  | removal id =>
    rw [hchange] at hgrant hfinds
    obtain ⟨s, hfind⟩ := hfinds
    exact h.removal hgrant hchange hfind

end Told

end Autopilot
