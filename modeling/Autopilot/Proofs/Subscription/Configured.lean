/-
  The ledger that a configuration asks for keeps what it is given.

  A process starts with one of the empty ledgers, and another process may later open the
  same tables, for reading only or not. Through any number of calls and openings the
  content of a number stays what was inserted (`keeps_of_fetch_inserted`).
-/
import Autopilot.Proofs.Subscription.Memory
import Autopilot.Proofs.Subscription.Table
import Autopilot.Subscription.Configured

namespace Autopilot.ConfiguredLedger

/-- A call that succeeds, or another opening of the same tables. -/
inductive Step : ConfiguredLedger → ConfiguredLedger → Prop where
  | call {ledger next : ConfiguredLedger} : Ledger.Step ledger next → Step ledger next
  | openForReading (ledger : TableLedger) : Step (.tables ledger) (.readOnly ledger)
  | openForWriting (ledger : TableLedger) : Step (.readOnly ledger) (.tables ledger)

/-- Any number of steps. -/
abbrev Reaches : ConfiguredLedger → ConfiguredLedger → Prop :=
  Relation.ReflTransGen Step

/-- The ledger came about from an empty one. -/
def Reachable (ledger : ConfiguredLedger) : Prop :=
  Reaches (.memory .empty) ledger ∨ Reaches (.tables .empty) ledger

/-- What the ledger inside tells. -/
def Tells (given : List NewSubscription) : ConfiguredLedger → Prop
  | .memory ledger => MemoryLedger.Tells given ledger
  | .tables ledger => TableLedger.Tells given ledger
  | .readOnly ledger => TableLedger.Tells given ledger

theorem records : Ledger.Records Tells where
  insert := by
    intro given ledger new s next h hcall
    cases ledger with
    | memory ledger =>
      obtain ⟨⟨s', next'⟩, hinsert, hpair⟩ := map_eq_ok.mp hcall
      cases hpair
      exact MemoryLedger.records.insert h hinsert
    | tables ledger =>
      obtain ⟨⟨s', next'⟩, hinsert, hpair⟩ := map_eq_ok.mp hcall
      cases hpair
      exact TableLedger.records.insert h hinsert
    | readOnly ledger => cases hcall
  setEnabled := by
    intro given ledger id enabled changed next h hcall
    cases ledger with
    | memory ledger =>
      cases hcall
      exact MemoryLedger.records.setEnabled h rfl
    | tables ledger =>
      cases hcall
      exact TableLedger.records.setEnabled h rfl
    | readOnly ledger => cases hcall
  remove := by
    intro given ledger id removed next h hcall
    cases ledger with
    | memory ledger =>
      cases hcall
      exact MemoryLedger.records.remove h rfl
    | tables ledger =>
      cases hcall
      exact TableLedger.records.remove h rfl
    | readOnly ledger => cases hcall
  fetch := by
    intro given ledger i new s h hnew hcall
    cases ledger with
    | memory ledger => exact MemoryLedger.records.fetch h hnew hcall
    | tables ledger => exact TableLedger.records.fetch h hnew hcall
    | readOnly ledger => exact TableLedger.records.fetch h hnew hcall

theorem tells_step {given : List NewSubscription} {ledger next : ConfiguredLedger}
    (h : Tells given ledger) (hstep : Step ledger next) : ∃ more, Tells (given ++ more) next := by
  cases hstep with
  | call hcall => exact records.step h hcall
  | openForReading ledger =>
    refine ⟨[], ?_⟩
    rw [List.append_nil]
    exact h
  | openForWriting ledger =>
    refine ⟨[], ?_⟩
    rw [List.append_nil]
    exact h

theorem tells_reaches {given : List NewSubscription} {ledger later : ConfiguredLedger}
    (h : Tells given ledger) (hreaches : Reaches ledger later) :
    ∃ more, Tells (given ++ more) later :=
  Ledger.exists_history tells_step h hreaches

theorem exists_history {ledger : ConfiguredLedger} (h : Reachable ledger) :
    ∃ given, Tells given ledger := by
  have hmemory : Tells [] (.memory .empty) := MemoryLedger.tells_empty
  have htables : Tells [] (.tables .empty) := TableLedger.tells_empty
  rcases h with h | h
  · obtain ⟨given, hgiven⟩ := tells_reaches hmemory h
    exact ⟨_, hgiven⟩
  · obtain ⟨given, hgiven⟩ := tells_reaches htables h
    exact ⟨_, hgiven⟩

/-- What is found later under the number of an insertion has the content that was inserted. -/
theorem keeps_of_fetch_inserted {ledger inserted later : ConfiguredLedger}
    (hreachable : Reachable ledger) {new : NewSubscription} {s found : Subscription}
    (hinsert : Ledger.insert ledger new = .ok (s, inserted)) (hlater : Reaches inserted later)
    (hfetch : Ledger.fetch later s.id = .ok (some found)) : found.Keeps new := by
  obtain ⟨given, hgiven⟩ := exists_history hreachable
  obtain ⟨more, hmore⟩ := tells_reaches (records.insert hgiven hinsert).2 hlater
  exact records.keeps_of_fetch_inserted hgiven hinsert hmore hfetch

/-- The ledger has a subscription under the number, and it is on. Of the texts in a table only the
    cell for this is asked. -/
def IsOn : ConfiguredLedger → Nat → Prop
  | .memory ledger, id => ∃ s, ledger.find? id = some s ∧ s.enabled = true
  | .tables ledger, id => ∃ row, ledger.row? (rowNumber id) = some row ∧
    row.enabled.isOn = .ok true
  | .readOnly ledger, id => ∃ row, ledger.row? (rowNumber id) = some row ∧
    row.enabled.isOn = .ok true

/-- The ledger can give a content back: any at all from the memory of a process, and from tables
    what can be read in them. -/
def GivesBack : ConfiguredLedger → NewSubscription → Prop
  | .memory _, _ => True
  | .tables _, new => new.Readable
  | .readOnly _, new => new.Readable

/-- In tables, the row of an insertion decides what is found under its number later. -/
theorem fetch_tables_of_isOn {given more : List NewSubscription} {new : NewSubscription}
    {later : TableLedger} (htells : TableLedger.Tells (given ++ [new] ++ more) later)
    (hon : ∃ row, later.row? (rowNumber (given.length + 1)) = some row ∧
      row.enabled.isOn = .ok true) :
    (new.Readable → ∃ found, later.fetch (given.length + 1) = .ok (some found) ∧
        found.enabled = true ∧ found.Keeps new) ∧
      (¬ new.Readable → ∃ row defect,
        later.fetch (given.length + 1) = .error (.corruptRow row defect)) := by
  obtain ⟨row, hrow, hon⟩ := hon
  have hnew : (given ++ [new] ++ more)[given.length]? = some new := by simp
  obtain ⟨hread, hnot⟩ := TableLedger.fetch_of_tells htells hnew hrow hon
  refine ⟨fun hreadable => ⟨_, hread hreadable, rfl, rfl, rfl, rfl, ?_⟩, fun hunreadable => ?_⟩
  · exact Timestamp.settled_settled _
  · obtain ⟨defect, herror⟩ := hnot hunreadable
    exact ⟨_, defect, herror⟩

/-- A subscription that is on is found with the content that was inserted, if the ledger can give
    it back; otherwise nobody finds it. -/
theorem fetch_of_isOn {ledger inserted later : ConfiguredLedger} (hreachable : Reachable ledger)
    {new : NewSubscription} {s : Subscription}
    (hinsert : Ledger.insert ledger new = .ok (s, inserted)) (hlater : Reaches inserted later)
    (hon : later.IsOn s.id) :
    (later.GivesBack new → ∃ found, Ledger.fetch later s.id = .ok (some found) ∧
        found.enabled = true ∧ found.Keeps new) ∧
      (¬ later.GivesBack new → ∃ row defect,
        Ledger.fetch later s.id = .error (.corruptRow row defect)) := by
  obtain ⟨given, hgiven⟩ := exists_history hreachable
  obtain ⟨hid, hinserted⟩ := records.insert hgiven hinsert
  obtain ⟨more, htells⟩ := tells_reaches hinserted hlater
  cases later with
  | memory later =>
    obtain ⟨found, hfind, henabled⟩ := hon
    have hfetch : Ledger.fetch (ConfiguredLedger.memory later) s.id = .ok (some found) :=
      congrArg Except.ok hfind
    exact ⟨fun _ => ⟨found, hfetch, henabled,
      keeps_of_fetch_inserted hreachable hinsert hlater hfetch⟩, fun hnot => absurd trivial hnot⟩
  | tables later =>
    rw [hid] at hon ⊢
    exact fetch_tables_of_isOn htells hon
  | readOnly later =>
    rw [hid] at hon ⊢
    exact fetch_tables_of_isOn htells hon

/-- What is found is found again when it is switched, in its new state. -/
theorem fetch_of_setEnabled {ledger next : ConfiguredLedger} {id : Nat} {s : Subscription}
    (hfetch : Ledger.fetch ledger id = .ok (some s)) {enabled changed : Bool}
    (hcall : Ledger.setEnabled ledger id enabled = .ok (changed, next)) :
    Ledger.fetch next id = .ok (some { s with enabled }) := by
  cases ledger with
  | memory ledger =>
    cases hcall
    have hfind : ledger.find? id = some s := Except.ok.inj hfetch
    show Except.ok ((ledger.setEnabled id enabled).2.find? id) = _
    rw [MemoryLedger.find?_setEnabled, hfind, Option.map_some, if_pos rfl]
  | tables ledger =>
    cases hcall
    exact TableLedger.fetch_setEnabled hfetch enabled
  | readOnly ledger => cases hcall

end Autopilot.ConfiguredLedger
