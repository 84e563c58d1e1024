/-
  The ledger of a process and the ledger of a database, asked for the same steps.

  Both are asked from the beginning. While the database takes every insertion they hold the same
  subscriptions, one as they are and one as texts (`Mirrors`), so each step is answered alike and
  leaves them alike (`Mirrors.step`), with one exception: a subscription whose time of creation has
  no year of four digits has a text that is not read back, and the database answers with a fault
  where the process finds it (`readBack`). So apart from the time of creation the answers agree
  as long as all years have four digits (`answers_agree`), and not beyond (`answers_differ_far`).
  A database has also no number behind `largestRow`, and says so.
-/
import Autopilot.Proofs.Subscription.Memory
import Autopilot.Proofs.Subscription.Script
import Autopilot.Proofs.Subscription.Table
import Autopilot.Proofs.Timestamp

namespace Autopilot

/-! ## Steps and answers -/

/-- What may be asked of a ledger. Numbers have 64 bits. -/
inductive LedgerCall where
  | insert (new : NewSubscription)
  | fetch (id : UInt64)
  | setEnabled (id : UInt64) (enabled : Bool)
  | remove (id : UInt64)
  | count

/-- What a ledger answers. -/
inductive LedgerReply where
  | inserted (s : Subscription)
  | found (s? : Option Subscription)
  | known (isKnown : Bool)
  | number (n : Nat)
  deriving DecidableEq

namespace LedgerCall

/-- The step of a ledger. -/
def perform {σ : Type} [Ledger σ] : LedgerCall → OnLedger σ LedgerReply
  | insert new => .inserted <$> OnLedger.insert new
  | fetch id => .found <$> OnLedger.fetch id.toNat
  | setEnabled id enabled => .known <$> OnLedger.setEnabled id.toNat enabled
  | remove id => .known <$> OnLedger.remove id.toNat
  | count => .number <$> OnLedger.count

/-- Whether the step is an insertion. -/
def inserts : LedgerCall → Bool
  | insert _ => true
  | _ => false

/-- What is inserted has values of legal types that fit their widths. -/
def Legal : LedgerCall → Prop
  | insert new => ∀ v ∈ new.values, v.2.slotType.legal = true ∧ v.2.fits = true
  | _ => True

instance : DecidablePred Legal
  | insert new =>
    inferInstanceAs (Decidable (∀ v ∈ new.values, v.2.slotType.legal = true ∧ v.2.fits = true))
  | fetch _ => inferInstanceAs (Decidable True)
  | setEnabled _ _ => inferInstanceAs (Decidable True)
  | remove _ => inferInstanceAs (Decidable True)
  | count => inferInstanceAs (Decidable True)

end LedgerCall

/-- What is inserted was created in a year of four digits. -/
def LedgerCall.Dated : LedgerCall → Prop
  | .insert new => new.createdAt.FourDigitYear
  | _ => True

instance : DecidablePred LedgerCall.Dated
  | .insert new => inferInstanceAs (Decidable new.createdAt.FourDigitYear)
  | .fetch _ => inferInstanceAs (Decidable True)
  | .setEnabled _ _ => inferInstanceAs (Decidable True)
  | .remove _ => inferInstanceAs (Decidable True)
  | .count => inferInstanceAs (Decidable True)

/-- The subscription without the time of its creation. -/
def Subscription.timeless (s : Subscription) : Subscription :=
  { s with createdAt := .epoch }

/-- The reply without the time at which a subscription was created. -/
def LedgerReply.timeless : LedgerReply → LedgerReply
  | inserted s => inserted s.timeless
  | found s? => found (s?.map Subscription.timeless)
  | reply => reply

/-- What a database answers where a process answers with the reply: what is found is read back from
    its texts, which fails for a year that has not four digits. -/
def readBack : Except Fault LedgerReply → Except Fault LedgerReply
  | .ok (.found (some s)) =>
    if s.createdAt.FourDigitYear then
      .ok (.found (some { s with createdAt := s.createdAt.settled }))
    else .error (.corruptRow s.id (.createdAt .invalid))
  | answer => answer

/-- The answers of a ledger to steps that are asked for one after the other. -/
def answers {σ : Type} [Ledger σ] : List LedgerCall → σ → List (Except Fault LedgerReply)
  | [], _ => []
  | call :: calls, ledger =>
    (settle ledger (call.perform ledger)).1 :: answers calls (settle ledger (call.perform ledger)).2

/-! ## Numbers of rows -/

/-- Among the numbers of rows only one belongs to a number of 64 bits: itself. -/
theorem rowNumber_eq_iff (id : UInt64) {n : Nat} (hn : (n : Int) ≤ largestRow) :
    (n : Int) = rowNumber id.toNat ↔ n = id.toNat := by
  have hid := id.toNat_lt
  have hlargest : largestRow = 2 ^ 63 - 1 := rfl
  have hbound : bitBound 64 = 2 ^ 64 := rfl
  unfold rowNumber
  rw [hbound, Int.bmod_def]
  rw [hlargest] at hn
  split <;> omega

/-! ## Lists that agree -/

/-- In lists that agree item by item, searches for what agrees find nothing or what agrees. -/
theorem find?_cases {α β : Type} {r : α → β → Prop} {xs : List α} {ys : List β}
    (h : List.Forall₂ r xs ys) {p : α → Bool} {q : β → Bool} (hpq : ∀ x y, r x y → p x = q y) :
    (xs.find? p = none ∧ ys.find? q = none) ∨
      ∃ x y, xs.find? p = some x ∧ ys.find? q = some y ∧ r x y := by
  induction h with
  | nil => exact .inl ⟨rfl, rfl⟩
  | @cons x y xs ys hfirst _ ih =>
    rw [List.find?_cons, List.find?_cons, ← hpq x y hfirst]
    cases p x with
    | true => exact .inr ⟨x, y, rfl, rfl, hfirst⟩
    | false => exact ih

/-! ## Rows and subscriptions -/

/-- The row stands for the subscription: their numbers, states and times are the same. -/
structure StandsFor (row : SubscriptionRow) (s : Subscription) : Prop where
  id : row.id = s.id
  id_le : row.id ≤ largestRow
  enabled : row.enabled = .int (if s.enabled then 1 else 0)
  createdAt : row.createdAt = s.createdAt.text

theorem StandsFor.id_iff {row : SubscriptionRow} {s : Subscription} (h : StandsFor row s)
    (id : UInt64) : s.id = id.toNat ↔ row.id = rowNumber id.toNat := by
  have hle := h.id_le
  rw [h.id] at hle ⊢
  exact (rowNumber_eq_iff id hle).symm

/-- Both ledgers were given the same contents, and hold rows that stand for the subscriptions. -/
structure Mirrors (given : List NewSubscription) (m : MemoryLedger) (t : TableLedger) : Prop where
  memory : MemoryLedger.Tells given m
  tables : TableLedger.Tells given t
  legal : ∀ new ∈ given, (LedgerCall.insert new).Legal
  rows : List.Forall₂ StandsFor t.rows m.subscriptions

theorem mirrors_empty : Mirrors [] .empty .empty where
  memory := MemoryLedger.tells_empty
  tables := TableLedger.tells_empty
  legal := by
    intro new hnew
    cases hnew
  rows := .nil

namespace Mirrors

variable {given : List NewSubscription} {m : MemoryLedger} {t : TableLedger}

/-- A row that stands for a subscription is read as this subscription, if its year has four
    digits. -/
theorem read_row (h : Mirrors given m t) {row : SubscriptionRow} {s : Subscription}
    (hrow : row ∈ t.rows) (hs : s ∈ m.subscriptions) (hstands : StandsFor row s) :
    row.read s.enabled (t.valuesOf row.id) =
      if s.createdAt.FourDigitYear then .ok { s with createdAt := s.createdAt.settled }
      else .error (.createdAt .invalid) := by
  obtain ⟨i, new, hi, hnew, hkind, htarget, howner, -, hvalues⟩ := h.tables.rows row hrow
  obtain ⟨j, new', hj, hnew', hkeeps⟩ := h.memory.kept s hs
  have hid := hstands.id
  have hsame : j = i := by omega
  rw [hsame, hnew] at hnew'
  cases hnew'
  have hvalues' := TableLedger.read_newValueRows row.id (h.legal new (List.mem_of_getElem? hnew))
  unfold SubscriptionRow.read
  rw [TableLedger.valuesOf_of_filter hvalues, hkind, htarget, howner, Target.read_text,
    readAddress_addressText, hstands.createdAt, hvalues', hid, ← hkeeps.target, ← hkeeps.owner,
    ← hkeeps.values]
  by_cases hyear : s.createdAt.FourDigitYear
  · rw [if_pos hyear, Timestamp.read_text hyear]
    rfl
  · rw [if_neg hyear, Timestamp.read_text_of_not hyear]
    rfl

theorem row?_cases (h : Mirrors given m t) (id : UInt64) :
    (t.row? (rowNumber id.toNat) = none ∧ m.find? id.toNat = none) ∨
      ∃ row s, t.row? (rowNumber id.toNat) = some row ∧ m.find? id.toNat = some s ∧
        StandsFor row s := by
  refine find?_cases h.rows fun row s hstands => ?_
  rw [decide_eq_decide]
  exact (hstands.id_iff id).symm

theorem fetch (h : Mirrors given m t) (id : UInt64) :
    (t.fetch id.toNat).map LedgerReply.found = readBack (.ok (.found (m.find? id.toNat))) := by
  unfold TableLedger.fetch
  rcases h.row?_cases id with ⟨hrow, hfind⟩ | ⟨row, s, hrow, hfind, hstands⟩
  · rw [hrow, hfind]
    rfl
  · have hread := h.read_row (List.mem_of_find?_eq_some hrow) (List.mem_of_find?_eq_some hfind)
      hstands
    have hon : row.enabled.isOn = .ok s.enabled := by
      rw [hstands.enabled]
      cases s.enabled with
      | true => rfl
      | false => rfl
    rw [hrow, hfind]
    dsimp only
    rw [hon]
    show ((row.read s.enabled (t.valuesOf row.id)).mapError _ >>= fun s => pure (some s)).map _ = _
    unfold readBack
    dsimp only
    rw [hread, ← hstands.id]
    by_cases hyear : s.createdAt.FourDigitYear
    · rw [if_pos hyear, if_pos hyear]
      rfl
    · rw [if_neg hyear, if_neg hyear]
      rfl

theorem isSome_row? (h : Mirrors given m t) (id : UInt64) :
    (t.row? (rowNumber id.toNat)).isSome = (m.find? id.toNat).isSome := by
  rcases h.row?_cases id with ⟨hrow, hfind⟩ | ⟨row, s, hrow, hfind, -⟩
  · rw [hrow, hfind]
    rfl
  · rw [hrow, hfind]
    rfl

/-- There are more numbers of 64 bits than numbers of rows. -/
theorem hasRoom (h : Mirrors given m t) (hroom : t.lastId < largestRow) : m.HasRoom := by
  have hlast : t.lastId = m.lastId.toNat := by rw [h.tables.lastId, h.memory.lastId]
  have hlargest : largestRow = 2 ^ 63 - 1 := rfl
  have hbound : bitBound 64 = 2 ^ 64 := rfl
  unfold MemoryLedger.HasRoom
  rw [hlast, hlargest] at hroom
  omega

theorem insert (h : Mirrors given m t) {new : NewSubscription}
    (hlegal : (LedgerCall.insert new).Legal) (hroom : t.lastId < largestRow) :
    ∃ next, t.insert new = .ok ((m.add new).1, next) ∧
      Mirrors (given ++ [new]) (m.add new).2 next := by
  have hlast : t.lastId = m.lastId.toNat := by rw [h.tables.lastId, h.memory.lastId]
  have hmemory := h.hasRoom hroom
  have hid : (t.lastId + 1).toNat = (m.lastId + 1).toNat := by
    rw [MemoryLedger.toNat_lastId_add hmemory]
    omega
  have hinsert : t.insert new = .ok ((m.add new).1, ⟨t.lastId + 1,
      t.rows ++ [TableLedger.newRow (t.lastId + 1) new],
      t.valueRows ++ TableLedger.newValueRows (t.lastId + 1) new.values⟩) := by
    unfold TableLedger.insert MemoryLedger.add
    rw [if_pos hroom]
    dsimp only
    rw [hid]
  refine ⟨_, hinsert, (MemoryLedger.tells_add h.memory hmemory new).2,
    (TableLedger.tells_insert h.tables hinsert).2, ?_, ?_⟩
  · intro other hother
    rcases List.mem_append.mp hother with hother | hother
    · exact h.legal other hother
    · rw [List.mem_singleton.mp hother]
      exact hlegal
  · have hnew : StandsFor (TableLedger.newRow (t.lastId + 1) new) (m.add new).1 := by
      refine ⟨?_, ?_, rfl, rfl⟩
      · show t.lastId + 1 = ((m.add new).1.id : Int)
        rw [MemoryLedger.id_add hmemory, hlast]
        rfl
      · show t.lastId + 1 ≤ largestRow
        omega
    exact List.rel_append h.rows (.cons hnew .nil)

theorem setEnabled (h : Mirrors given m t) (id : UInt64) (enabled : Bool) :
    Mirrors given (m.setEnabled id.toNat enabled).2 (t.setEnabled id.toNat enabled).2 := by
  refine ⟨MemoryLedger.tells_setEnabled h.memory _ _, TableLedger.tells_setEnabled h.tables _ _,
    h.legal, ?_⟩
  rw [m.subscriptions_setEnabled]
  refine List.rel_map ?_ h.rows
  intro row s hstands
  have hiff := hstands.id_iff id
  dsimp only
  by_cases hid : s.id = id.toNat
  · rw [if_pos hid, if_pos (hiff.mp hid)]
    exact ⟨hstands.id, hstands.id_le, rfl, hstands.createdAt⟩
  · rw [if_neg hid, if_neg (mt hiff.mpr hid)]
    exact hstands

theorem remove (h : Mirrors given m t) (id : UInt64) :
    Mirrors given (m.remove id.toNat).2 (t.remove id.toNat).2 := by
  refine ⟨MemoryLedger.tells_remove h.memory _, TableLedger.tells_remove h.tables _, h.legal, ?_⟩
  rw [m.subscriptions_remove]
  refine List.rel_filter ?_ h.rows
  intro row s hstands
  dsimp only
  rw [decide_eq_true_iff, decide_eq_true_iff]
  exact not_congr (hstands.id_iff id).symm

/-! ## Runs -/

/-- A step that is not refused for want of a number is answered alike, but for what is read back,
    and leaves the ledgers alike. -/
theorem step (h : Mirrors given m t) {call : LedgerCall} (hlegal : call.Legal)
    (hroom : call.inserts = true → t.lastId < largestRow) :
    ∃ reply m' t' more, call.perform m = .ok (reply, m') ∧
      settle t (call.perform t) = (readBack (.ok reply), t') ∧
      Mirrors (given ++ more) m' t' ∧ more.length = (if call.inserts then 1 else 0) := by
  have hsame : Mirrors (given ++ []) m t := by
    rw [List.append_nil]
    exact h
  cases call with
  | insert new =>
    obtain ⟨next, hinsert, hnext⟩ := h.insert hlegal (hroom rfl)
    refine ⟨.inserted (m.add new).1, (m.add new).2, next, [new], ?_, ?_, hnext, rfl⟩
    · show ((m.insert new).map fun p => (LedgerReply.inserted p.1, p.2)) = _
      rw [MemoryLedger.insert_of_hasRoom (h.hasRoom (hroom rfl))]
      rfl
    · show settle t ((t.insert new).map fun p => (LedgerReply.inserted p.1, p.2)) = _
      rw [hinsert]
      rfl
  | fetch id =>
    refine ⟨_, _, t, [], rfl, ?_, hsame, rfl⟩
    rw [← h.fetch]
    show settle t (((t.fetch id.toNat).map fun found => (found, t)).map fun p =>
      (LedgerReply.found p.1, p.2)) = _
    cases t.fetch id.toNat with
    | ok found => rfl
    | error fault => rfl
  | setEnabled id enabled =>
    have hknown : (m.setEnabled id.toNat enabled).1 = (t.setEnabled id.toNat enabled).1 := by
      rw [m.setEnabled_fst]
      exact (h.isSome_row? id).symm
    have hnext := h.setEnabled id enabled
    rw [← List.append_nil given] at hnext
    have hmemory : (LedgerCall.setEnabled id enabled).perform m =
        .ok (.known (m.setEnabled id.toNat enabled).1, (m.setEnabled id.toNat enabled).2) := rfl
    have htables : settle t ((LedgerCall.setEnabled id enabled).perform t) =
        (.ok (.known (t.setEnabled id.toNat enabled).1), (t.setEnabled id.toNat enabled).2) := rfl
    rw [← hknown] at htables
    exact ⟨_, _, _, [], hmemory, htables, hnext, rfl⟩
  | remove id =>
    have hknown : (m.remove id.toNat).1 = (t.remove id.toNat).1 := by
      rw [m.remove_fst]
      exact (h.isSome_row? id).symm
    have hnext := h.remove id
    rw [← List.append_nil given] at hnext
    have hmemory : (LedgerCall.remove id).perform m =
        .ok (.known (m.remove id.toNat).1, (m.remove id.toNat).2) := rfl
    have htables : settle t ((LedgerCall.remove id).perform t) =
        (.ok (.known (t.remove id.toNat).1), (t.remove id.toNat).2) := rfl
    rw [← hknown] at htables
    exact ⟨_, _, _, [], hmemory, htables, hnext, rfl⟩
  | count =>
    refine ⟨_, _, t, [], rfl, ?_, hsame, rfl⟩
    show (Except.ok (LedgerReply.number t.rows.length), t) = _
    rw [h.rows.length_eq]
    rfl

/-- Without a number that is left, an insertion is refused. -/
theorem perform_insert_full {call : LedgerCall} (hinserts : call.inserts = true)
    (hfull : ¬ t.lastId < largestRow) : call.perform t = .error (.queryFailed .full) := by
  cases call with
  | insert new =>
    have hrefused : t.insert new = .error (.queryFailed .full) := if_neg hfull
    show ((t.insert new).map fun p => (LedgerReply.inserted p.1, p.2)) = _
    rw [hrefused]
    rfl
  | fetch id => cases hinserts
  | setEnabled id enabled => cases hinserts
  | remove id => cases hinserts
  | count => cases hinserts

end Mirrors

/-- No insertion is refused for want of a number. -/
def NeverFull (calls : List LedgerCall) (t : TableLedger) : Prop :=
  .error (.queryFailed .full) ∉ answers calls t

theorem Mirrors.answers_eq {given : List NewSubscription} {m : MemoryLedger} {t : TableLedger}
    (h : Mirrors given m t) {calls : List LedgerCall} (hlegal : ∀ call ∈ calls, call.Legal)
    (hfull : NeverFull calls t) : answers calls t = (answers calls m).map readBack := by
  induction calls generalizing given m t with
  | nil => rfl
  | cons call calls ih =>
    unfold NeverFull answers at hfull
    rw [List.mem_cons, not_or] at hfull
    have hroom : call.inserts = true → t.lastId < largestRow := by
      intro hinserts
      refine Classical.byContradiction fun hlast => hfull.1 ?_
      rw [Mirrors.perform_insert_full hinserts hlast]
      rfl
    obtain ⟨reply, m', t', more, hm, ht, hnext, -⟩ :=
      h.step (hlegal call List.mem_cons_self) hroom
    have hrest := hfull.2
    unfold answers
    rw [ht] at hrest
    rw [hm, ht, List.map_cons]
    exact congrArg (readBack (.ok reply) :: ·)
      (ih hnext (fun call hcall => hlegal call (List.mem_cons_of_mem _ hcall)) hrest)

theorem readBack_ne_full (reply : LedgerReply) :
    readBack (.ok reply) ≠ .error (.queryFailed .full) := by
  unfold readBack
  intro hsame
  split at hsame
  · split at hsame
    · cases hsame
    · cases hsame
  · cases hsame

theorem Mirrors.neverFull {given : List NewSubscription} {m : MemoryLedger} {t : TableLedger}
    (h : Mirrors given m t) {calls : List LedgerCall} (hlegal : ∀ call ∈ calls, call.Legal)
    (hroom : t.lastId + (calls.countP LedgerCall.inserts : Nat) ≤ largestRow) :
    NeverFull calls t := by
  induction calls generalizing given m t with
  | nil =>
    intro hmem
    cases hmem
  | cons call calls ih =>
    rw [List.countP_cons] at hroom
    have hfirst : call.inserts = true → t.lastId < largestRow := by
      intro hinserts
      rw [if_pos hinserts] at hroom
      omega
    obtain ⟨reply, m', t', more, hm, ht, hnext, hlength⟩ :=
      h.step (hlegal call List.mem_cons_self) hfirst
    have hlast : t'.lastId + (calls.countP LedgerCall.inserts : Nat) ≤ largestRow := by
      have hbefore := h.tables.lastId
      have hbehind := hnext.tables.lastId
      rw [List.length_append, hlength] at hbehind
      omega
    have hrest := ih hnext (fun call hcall => hlegal call (List.mem_cons_of_mem _ hcall)) hlast
    unfold NeverFull answers
    rw [ht, List.mem_cons, not_or]
    exact ⟨(readBack_ne_full reply).symm, hrest⟩

/-! ## Times of creation -/

/-- A step of a process keeps the years in four digits, and finds no other. -/
theorem MemoryLedger.dated_step {m : MemoryLedger} {call : LedgerCall} (hcall : call.Dated)
    (h : ∀ s ∈ m.subscriptions, s.createdAt.FourDigitYear) :
    (∀ s ∈ (settle m (call.perform m)).2.subscriptions, s.createdAt.FourDigitYear) ∧
      ∀ s, (settle m (call.perform m)).1 = .ok (.found (some s)) →
        s.createdAt.FourDigitYear := by
  cases call with
  | insert new =>
    have hperform : (LedgerCall.insert new).perform m =
        (m.insert new).map fun p => (LedgerReply.inserted p.1, p.2) := rfl
    rw [hperform]
    by_cases hroom : m.HasRoom
    · rw [insert_of_hasRoom hroom]
      refine ⟨fun s hs => ?_, fun s hs => by cases hs⟩
      rcases List.mem_append.mp hs with hs | hs
      · exact h s hs
      · rw [List.mem_singleton.mp hs]
        exact hcall
    · rw [insert_of_not_hasRoom hroom]
      exact ⟨h, fun s hs => by cases hs⟩
  | fetch id =>
    refine ⟨h, fun s hs => ?_⟩
    have hfind : m.find? id.toNat = some s := LedgerReply.found.inj (Except.ok.inj hs)
    exact h s (List.mem_of_find?_eq_some hfind)
  | setEnabled id enabled =>
    refine ⟨fun s hs => ?_, fun s hs => by cases hs⟩
    have hkept : s ∈ (m.setEnabled id.toNat enabled).2.subscriptions := hs
    rw [subscriptions_setEnabled] at hkept
    obtain ⟨s', hs', rfl⟩ := List.mem_map.mp hkept
    split
    · exact h s' hs'
    · exact h s' hs'
  | remove id =>
    refine ⟨fun s hs => ?_, fun s hs => by cases hs⟩
    have hkept : s ∈ (m.remove id.toNat).2.subscriptions := hs
    rw [subscriptions_remove] at hkept
    exact h s (List.mem_of_mem_filter hkept)
  | count => exact ⟨h, fun s hs => by cases hs⟩

theorem MemoryLedger.dated_answers {calls : List LedgerCall} {m : MemoryLedger}
    (hcalls : ∀ call ∈ calls, call.Dated) (h : ∀ s ∈ m.subscriptions, s.createdAt.FourDigitYear)
    {s : Subscription} (hs : .ok (.found (some s)) ∈ answers calls m) :
    s.createdAt.FourDigitYear := by
  induction calls generalizing m with
  | nil => cases hs
  | cons call calls ih =>
    have hstep := dated_step (hcalls call List.mem_cons_self) h
    rcases List.mem_cons.mp hs with hs | hs
    · exact hstep.2 s hs.symm
    · exact ih (fun call hcall => hcalls call (List.mem_cons_of_mem _ hcall)) hstep.1 hs

/-- Apart from the time of creation, an answer is read back as it is if the year of what is found
    has four digits. -/
theorem timeless_readBack {answer : Except Fault LedgerReply}
    (h : ∀ s, answer = .ok (.found (some s)) → s.createdAt.FourDigitYear) :
    (readBack answer).map LedgerReply.timeless = answer.map LedgerReply.timeless := by
  unfold readBack
  split
  · next s =>
    rw [if_pos (h s rfl)]
    rfl
  · rfl

/-- **Agreement.** On steps with legal values, for any numbers of 64 bits, a ledger of a database
    answers from the beginning as one of a process does, read back from texts. So apart from the
    time of creation they answer alike if what is inserted has years of four digits. The
    database must take all insertions, and it takes as many as there are numbers of rows. -/
theorem answers_agree (calls : List LedgerCall) (hlegal : ∀ call ∈ calls, call.Legal) :
    (NeverFull calls .empty →
      answers calls TableLedger.empty = (answers calls MemoryLedger.empty).map readBack ∧
      ((∀ call ∈ calls, call.Dated) →
        (answers calls MemoryLedger.empty).map (·.map LedgerReply.timeless) =
          (answers calls TableLedger.empty).map (·.map LedgerReply.timeless))) ∧
      ((calls.countP LedgerCall.inserts : Int) ≤ largestRow → NeverFull calls .empty) := by
  refine ⟨fun hfull => ?_, fun hroom => ?_⟩
  · have hanswers := mirrors_empty.answers_eq hlegal hfull
    refine ⟨hanswers, fun hdated => ?_⟩
    have hnone : ∀ s ∈ MemoryLedger.empty.subscriptions, s.createdAt.FourDigitYear :=
      fun _ hs => nomatch hs
    rw [hanswers, List.map_map]
    refine List.map_congr_left fun answer hanswer => ?_
    refine (timeless_readBack fun s hs => ?_).symm
    rw [hs] at hanswer
    exact MemoryLedger.dated_answers hdated hnone hanswer
  · refine mirrors_empty.neverFull hlegal ?_
    show 0 + _ ≤ largestRow
    omega

/-- A subscription that is switched off and removed, a number without a row, and the next
    subscription. -/
def sampleCalls : List LedgerCall :=
  [.insert ⟨.bundle ⟨7⟩, 5, [("vault", .uint 9 256), ("isOpen", .bool true)], .epoch⟩, .fetch 1,
    .fetch 0x8000000000000001, .setEnabled 1 false, .fetch 1, .remove 1, .remove 1,
    .insert ⟨.strategy ⟨11⟩, 6, [], .epoch⟩, .count]

theorem answers_agree_sampleCalls :
    (answers sampleCalls MemoryLedger.empty).map (·.map LedgerReply.timeless) =
      (answers sampleCalls TableLedger.empty).map (·.map LedgerReply.timeless) :=
  ((answers_agree sampleCalls (by decide)).1
    ((answers_agree sampleCalls (by decide)).2 (by decide))).2 (by decide)

example : (answers sampleCalls MemoryLedger.empty)[7]? =
    some (.ok (.inserted ⟨2, .strategy ⟨11⟩, 6, [], true, .epoch⟩)) := rfl

/-! ## A year of five digits -/

/-- A subscription of the year 10000. -/
def farContent : NewSubscription :=
  ⟨.strategy ⟨11⟩, 6, [], ⟨⟨10000, 1, 1, rfl⟩, ⟨0, 0, 0, 0, rfl⟩⟩⟩

/-- It is inserted and looked up. -/
def farCalls : List LedgerCall :=
  [.insert farContent, .fetch 1]

/-- A process finds the subscription of the year 10000, and a database cannot read it back. -/
theorem answers_differ_far :
    (∀ call ∈ farCalls, call.Legal) ∧ NeverFull farCalls .empty ∧
      (answers farCalls MemoryLedger.empty)[1]? =
        some (.ok (.found (some ⟨1, .strategy ⟨11⟩, 6, [], true, farContent.createdAt⟩))) ∧
      (answers farCalls TableLedger.empty)[1]? =
        some (.error (.corruptRow 1 (.createdAt .invalid))) ∧
      (answers farCalls MemoryLedger.empty).map (·.map LedgerReply.timeless) ≠
        (answers farCalls TableLedger.empty).map (·.map LedgerReply.timeless) := by
  have hlegal : ∀ call ∈ farCalls, call.Legal := by decide
  have hfull : NeverFull farCalls .empty := mirrors_empty.neverFull hlegal (by decide)
  have hanswers := mirrors_empty.answers_eq hlegal hfull
  refine ⟨hlegal, hfull, rfl, ?_, ?_⟩
  · rw [hanswers]
    rfl
  · rw [hanswers]
    decide

end Autopilot
