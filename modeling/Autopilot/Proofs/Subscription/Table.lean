/-
  The ledger of a database keeps what it is given.

  Every row has the texts of the content of its number, and its values are the rows that
  were written for it: numbers only grow, so no later value is filed under an earlier
  number, and a removal takes the values along. A text that can be read at all is read as
  what was written, so what is found has the content that was inserted.
-/
import Autopilot.Proofs.Subscription.History
import Autopilot.Proofs.Value
import Autopilot.Subscription.Table

namespace Autopilot

/-! ## Reading rows back -/

theorem StrategyId.read?_text (id : StrategyId) : StrategyId.read? id.text = some id := by
  unfold StrategyId.read? StrategyId.text
  rw [trim_wordText, readWord_wordText]
  rfl

theorem BundleKey.read?_text (key : BundleKey) : BundleKey.read? key.text = some key := by
  unfold BundleKey.read? BundleKey.text
  rw [trim_wordText, readWord_wordText]
  rfl

theorem Target.read_text (target : Target) :
    Target.read target.kindText target.idText = .ok target := by
  unfold Target.read
  cases target with
  | strategy id =>
    unfold Target.kindText Target.idText
    dsimp only
    rw [if_pos rfl, StrategyId.read?_text]
  | bundle key =>
    unfold Target.kindText Target.idText
    dsimp only
    rw [if_neg (by decide), if_pos rfl, BundleKey.read?_text]

/-- The row of a value is read back if its type is legal and it fits. -/
theorem ValueRow.read_eq_ok_iff {id : Int} {position : Nat} {name : String} {v : AbiValue}
    {p : String × AbiValue} :
    ValueRow.read ⟨id, position, name, v.slotType.text, v.text⟩ = .ok p ↔
      p = (name, v) ∧ v.slotType.legal = true ∧ v.fits = true := by
  unfold ValueRow.read
  dsimp only
  obtain ⟨typeCause, htype⟩ := SlotType.read_text v.slotType
  obtain ⟨valueCause, hvalue⟩ := AbiValue.read_text v
  rw [htype]
  by_cases hlegal : v.slotType.legal = true
  · rw [if_pos hlegal]
    dsimp only
    rw [hvalue]
    by_cases hfits : v.fits = true
    · rw [if_pos hfits]
      simp [hlegal, hfits, eq_comm]
    · rw [if_neg hfits]
      simp [hfits]
  · rw [if_neg hlegal]
    simp [hlegal]

/-- A database can read the content back: its values are of legal types and fit, and the year of
    its creation has four digits. -/
def NewSubscription.Readable (new : NewSubscription) : Prop :=
  (∀ v ∈ new.values, v.2.slotType.legal = true ∧ v.2.fits = true) ∧ new.createdAt.FourDigitYear

/-- What a row is read as, part by part. -/
theorem SubscriptionRow.read_eq_ok_iff {row : SubscriptionRow} {enabled : Bool}
    {valueRows : List ValueRow} {s : Subscription} :
    row.read enabled valueRows = .ok s ↔ ∃ target owner createdAt values,
      Target.read row.targetKind row.target = .ok target ∧ readAddress row.owner = .ok owner ∧
        Timestamp.read row.createdAt = .ok createdAt ∧ valueRows.mapM ValueRow.read = .ok values ∧
          s = ⟨row.id.toNat, target, owner, values, enabled, createdAt⟩ := by
  unfold SubscriptionRow.read
  constructor
  · intro h
    obtain ⟨target, htarget, h⟩ := bind_eq_ok.mp h
    obtain ⟨owner, howner, h⟩ := bind_eq_ok.mp h
    obtain ⟨createdAt, hcreated, h⟩ := bind_eq_ok.mp h
    obtain ⟨values, hvalues, h⟩ := bind_eq_ok.mp h
    cases h
    exact ⟨target, owner, createdAt, values, htarget, mapError_eq_ok.mp howner,
      mapError_eq_ok.mp hcreated, hvalues, rfl⟩
  · rintro ⟨target, owner, createdAt, values, htarget, howner, hcreated, hvalues, rfl⟩
    rw [htarget, howner, hcreated, hvalues]
    rfl

namespace TableLedger

/-! ## The rows of values -/

/-- Rows that are written for values one by one, and read back one by one. -/
theorem eq_of_read_zipIdx {write : (String × AbiValue) × Nat → ValueRow}
    (hwrite : ∀ p p', ValueRow.read (write p) = .ok p' → p' = p.1)
    {values values' : List (String × AbiValue)} {start : Nat}
    (h : List.Forall₂ (fun row p => ValueRow.read row = .ok p)
      ((values.zipIdx start).map write) values') : values' = values := by
  induction values generalizing values' start with
  | nil =>
    cases h
    rfl
  | cons p values ih =>
    cases h with
    | cons hfirst hrest => rw [ih hrest, hwrite _ _ hfirst]

/-- The values that are read from the rows written for them are these values. -/
theorem eq_of_read_newValueRows {id : Int} {values values' : List (String × AbiValue)}
    (h : (newValueRows id values).mapM ValueRow.read = .ok values') : values' = values := by
  refine eq_of_read_zipIdx ?_ (mapM_eq_ok.mp h)
  intro p p' hread
  exact (ValueRow.read_eq_ok_iff.mp hread).1

/-- Values of legal types that fit their widths are read back. -/
theorem read_newValueRows (id : Int) {values : List (String × AbiValue)}
    (h : ∀ v ∈ values, v.2.slotType.legal = true ∧ v.2.fits = true) :
    (newValueRows id values).mapM ValueRow.read = .ok values := by
  have hrows : ∀ start, List.Forall₂ (fun row p => ValueRow.read row = .ok p)
      ((values.zipIdx start).map fun p => ⟨id, p.2, p.1.1, p.1.2.slotType.text, p.1.2.text⟩)
      values := by
    induction values with
    | nil => exact fun _ => .nil
    | cons v values ih =>
      intro start
      have hv := h v List.mem_cons_self
      have hrest := ih fun v' hv' => h v' (List.mem_cons_of_mem _ hv')
      exact .cons (ValueRow.read_eq_ok_iff.mpr ⟨rfl, hv⟩) (hrest (start + 1))
  exact mapM_eq_ok.mpr (hrows 0)

/-- The rows of values are read back only if all of the values are of legal types and fit. -/
theorem exists_read_newValueRows_iff (id : Int) (values : List (String × AbiValue)) :
    (∃ read, (newValueRows id values).mapM ValueRow.read = .ok read) ↔
      ∀ v ∈ values, v.2.slotType.legal = true ∧ v.2.fits = true := by
  constructor
  · rintro ⟨read, hread⟩ v hv
    obtain ⟨position, hposition⟩ := List.mem_iff_getElem?.mp hv
    have hrow : (⟨id, position, v.1, v.2.slotType.text, v.2.text⟩ : ValueRow) ∈
        newValueRows id values :=
      List.mem_map.mpr ⟨(v, position), List.mem_zipIdx_iff_getElem?.mpr hposition, rfl⟩
    obtain ⟨p, -, hp⟩ := exists_of_mem_right (mapM_eq_ok.mp hread).flip hrow
    exact (ValueRow.read_eq_ok_iff.mp hp).2
  · exact fun h => ⟨values, read_newValueRows id h⟩

theorem pairwise_zipIdx {write : (String × AbiValue) × Nat → ValueRow}
    (hwrite : ∀ p, (write p).position = p.2) (values : List (String × AbiValue)) (start : Nat) :
    ((values.zipIdx start).map write).Pairwise fun a b => a.position ≤ b.position := by
  rw [List.pairwise_map]
  induction values generalizing start with
  | nil => exact List.Pairwise.nil
  | cons p values ih =>
    rw [List.zipIdx_cons, List.pairwise_cons]
    refine ⟨?_, ih (start + 1)⟩
    rintro ⟨q, position⟩ hq
    have hle := (List.mem_zipIdx hq).1
    rw [hwrite, hwrite]
    show start ≤ position
    omega

theorem pairwise_newValueRows (id : Int) (values : List (String × AbiValue)) :
    (newValueRows id values).Pairwise fun a b => a.position ≤ b.position :=
  pairwise_zipIdx (fun _ => rfl) values 0

/-- The rows that were written for a subscription are in order already. -/
theorem valuesOf_of_filter {t : TableLedger} {id : Int} {values : List (String × AbiValue)}
    (h : t.valueRows.filter (·.subscriptionId = id) = newValueRows id values) :
    t.valuesOf id = newValueRows id values := by
  unfold valuesOf
  rw [h]
  exact List.mergeSort_of_pairwise (by simpa using pairwise_newValueRows id values)

theorem subscriptionId_newValueRows {id : Int} {values : List (String × AbiValue)} {row : ValueRow}
    (h : row ∈ newValueRows id values) : row.subscriptionId = id := by
  obtain ⟨p, -, rfl⟩ := List.mem_map.mp h
  rfl

/-- Behind rows of earlier numbers, the rows of a number are those written for it. -/
theorem filter_append_newValueRows {id : Int} {rows : List ValueRow}
    (h : ∀ row ∈ rows, row.subscriptionId < id) (values : List (String × AbiValue)) :
    (rows ++ newValueRows id values).filter (·.subscriptionId = id) = newValueRows id values := by
  have hnone : rows.filter (·.subscriptionId = id) = [] := by
    refine List.filter_eq_nil_iff.mpr fun row hrow => ?_
    rw [decide_eq_true_eq]
    exact Int.ne_of_lt (h row hrow)
  have hall : (newValueRows id values).filter (·.subscriptionId = id) = newValueRows id values :=
    List.filter_eq_self.mpr fun _ hrow => decide_eq_true (subscriptionId_newValueRows hrow)
  rw [List.filter_append, hnone, List.nil_append, hall]

theorem filter_newValueRows_of_ne {id other : Int} (h : other ≠ id)
    (values : List (String × AbiValue)) :
    (newValueRows id values).filter (·.subscriptionId = other) = [] := by
  refine List.filter_eq_nil_iff.mpr fun row hrow => ?_
  rw [subscriptionId_newValueRows hrow, decide_eq_true_eq]
  exact h.symm

/-! ## What the tables tell -/

/-- The row and its values were written for the content of its number. -/
def TellsRow (given : List NewSubscription) (t : TableLedger) (row : SubscriptionRow) : Prop :=
  ∃ (i : Nat) (new : NewSubscription), row.id = (i : Int) + 1 ∧ given[i]? = some new ∧
    row.targetKind = new.target.kindText ∧ row.target = new.target.idText ∧
    row.owner = addressText new.owner ∧ row.createdAt = new.createdAt.text ∧
    t.valueRows.filter (·.subscriptionId = row.id) = newValueRows row.id new.values

/-- As many numbers are given out as contents were inserted, no value is filed under a number
    that is not given out, and every row tells the content of its number. -/
structure Tells (given : List NewSubscription) (t : TableLedger) : Prop where
  lastId : t.lastId = given.length
  lastId_le : t.lastId ≤ largestRow
  values_le : ∀ row ∈ t.valueRows, row.subscriptionId ≤ t.lastId
  rows : ∀ row ∈ t.rows, TellsRow given t row

theorem tells_empty : Tells [] empty := by
  refine ⟨rfl, by decide, ?_, ?_⟩
  · intro row hrow
    cases hrow
  · intro row hrow
    cases hrow

theorem TellsRow.id_le {given : List NewSubscription} {t : TableLedger} {row : SubscriptionRow}
    (h : TellsRow given t row) : row.id ≤ given.length := by
  obtain ⟨i, new, hid, hnew, -⟩ := h
  have hlt := (List.getElem?_eq_some_iff.mp hnew).1
  omega

/-- An earlier row: none of the new values has its number. -/
theorem TellsRow.append {given : List NewSubscription} {t : TableLedger} {row : SubscriptionRow}
    (h : TellsRow given t row) {id : Int} (hid : row.id < id) (new : NewSubscription)
    {rows : List SubscriptionRow} :
    TellsRow (given ++ [new]) ⟨id, rows, t.valueRows ++ newValueRows id new.values⟩ row := by
  obtain ⟨i, other, hi, hother, hkind, htarget, howner, hcreated, hvalues⟩ := h
  have hlt : i < given.length := (List.getElem?_eq_some_iff.mp hother).1
  refine ⟨i, other, hi, ?_, hkind, htarget, howner, hcreated, ?_⟩
  · rw [List.getElem?_append_left hlt]
    exact hother
  · show (t.valueRows ++ newValueRows id new.values).filter _ = _
    rw [List.filter_append, filter_newValueRows_of_ne (Int.ne_of_lt hid), List.append_nil]
    exact hvalues

/-- The new row: none of the earlier values has its number. -/
theorem tellsRow_newRow {given : List NewSubscription} {t : TableLedger} {id : Int}
    (hid : id = given.length + 1) (hvalues : ∀ value ∈ t.valueRows, value.subscriptionId < id)
    (new : NewSubscription) {rows : List SubscriptionRow} :
    TellsRow (given ++ [new]) ⟨id, rows, t.valueRows ++ newValueRows id new.values⟩
      (newRow id new) := by
  refine ⟨given.length, new, hid, ?_, rfl, rfl, rfl, rfl, ?_⟩
  · rw [List.getElem?_append_right (Nat.le_refl _), Nat.sub_self]
    rfl
  · exact filter_append_newValueRows hvalues new.values

theorem tells_insert {given : List NewSubscription} {t next : TableLedger} (h : Tells given t)
    {new : NewSubscription} {s : Subscription} (hcall : t.insert new = .ok (s, next)) :
    s.id = given.length + 1 ∧ Tells (given ++ [new]) next := by
  have hlast := h.lastId
  unfold insert at hcall
  by_cases hroom : t.lastId < largestRow
  · rw [if_pos hroom] at hcall
    cases hcall
    have hid : (t.lastId + 1).toNat = given.length + 1 := by omega
    refine ⟨hid, ?_, ?_, ?_, ?_⟩
    · show t.lastId + 1 = _
      rw [List.length_append, List.length_singleton]
      omega
    · show t.lastId + 1 ≤ largestRow
      omega
    · intro row hrow
      show row.subscriptionId ≤ t.lastId + 1
      rcases List.mem_append.mp hrow with hrow | hrow
      · have hle := h.values_le row hrow
        omega
      · rw [subscriptionId_newValueRows hrow]
    · intro row hrow
      rcases List.mem_append.mp hrow with hrow | hrow
      · have htells := h.rows row hrow
        have hle := htells.id_le
        exact htells.append (by omega) new
      · rw [List.mem_singleton] at hrow
        rw [hrow]
        refine tellsRow_newRow (by omega) ?_ new
        intro value hvalue
        have hle := h.values_le value hvalue
        omega
  · rw [if_neg hroom] at hcall
    cases hcall

theorem tells_setEnabled {given : List NewSubscription} {t : TableLedger} (h : Tells given t)
    (id : Nat) (enabled : Bool) : Tells given (t.setEnabled id enabled).2 := by
  refine ⟨h.lastId, h.lastId_le, h.values_le, ?_⟩
  intro row hrow
  obtain ⟨row', hrow', rfl⟩ := List.mem_map.mp hrow
  have htells := h.rows row' hrow'
  split
  · exact htells
  · exact htells

theorem tells_remove {given : List NewSubscription} {t : TableLedger} (h : Tells given t)
    (id : Nat) : Tells given (t.remove id).2 := by
  refine ⟨h.lastId, h.lastId_le, ?_, ?_⟩
  · intro row hrow
    exact h.values_le row (List.mem_of_mem_filter hrow)
  · intro row hrow
    obtain ⟨hrow, hne⟩ := List.mem_filter.mp hrow
    obtain ⟨i, new, hi, hnew, hkind, htarget, howner, hcreated, hvalues⟩ := h.rows row hrow
    refine ⟨i, new, hi, hnew, hkind, htarget, howner, hcreated, ?_⟩
    have hother : row.id ≠ rowNumber id := of_decide_eq_true hne
    show (t.valueRows.filter (·.subscriptionId ≠ rowNumber id)).filter
      (·.subscriptionId = row.id) = _
    rw [List.filter_filter, ← hvalues]
    refine List.filter_congr fun value _ => ?_
    by_cases hvalue : value.subscriptionId = row.id
    · rw [hvalue]
      simp [hother]
    · simp [hvalue]

/-! ## Finding -/

theorem id_of_row? {t : TableLedger} {id : Int} {row : SubscriptionRow}
    (h : t.row? id = some row) : row.id = id := by
  simpa using List.find?_some h

theorem fetch_eq_some_iff {t : TableLedger} {id : Nat} {s : Subscription} :
    t.fetch id = .ok (some s) ↔ ∃ row enabled, t.row? (rowNumber id) = some row ∧
      row.enabled.isOn = .ok enabled ∧ row.read enabled (t.valuesOf row.id) = .ok s := by
  unfold fetch
  cases hrow : t.row? (rowNumber id) with
  | none => simp
  | some row =>
    constructor
    · intro h
      obtain ⟨enabled, hon, h⟩ := bind_eq_ok.mp h
      obtain ⟨s', hread, hs⟩ := bind_eq_ok.mp h
      cases hs
      exact ⟨row, enabled, rfl, hon, mapError_eq_ok.mp hread⟩
    · rintro ⟨row', enabled, hrow', hon, hread⟩
      cases hrow'
      exact bind_eq_ok.mpr ⟨enabled, hon, bind_eq_ok.mpr ⟨s, mapError_eq_ok.mpr hread, rfl⟩⟩

/-- A number that is given out is the number of its row. -/
theorem rowNumber_eq {id : Nat} (h : (id : Int) ≤ largestRow) : rowNumber id = id := by
  have hlargest : largestRow = 2 ^ 63 - 1 := rfl
  have hbound : bitBound 64 = 2 ^ 64 := rfl
  unfold rowNumber
  rw [hbound]
  rw [hlargest] at h
  exact Int.bmod_eq_of_le (by omega) (by omega)

/-- A row with the texts of a content, and its values, are read exactly if the values can be read
    and the time of creation has a year of four digits. -/
theorem read_eq_ok_iff_readable {row : SubscriptionRow} {enabled : Bool} {new : NewSubscription}
    (hkind : row.targetKind = new.target.kindText) (htarget : row.target = new.target.idText)
    (howner : row.owner = addressText new.owner) (hcreated : row.createdAt = new.createdAt.text)
    {s : Subscription} : row.read enabled (newValueRows row.id new.values) = .ok s ↔
      new.Readable ∧
        s = ⟨row.id.toNat, new.target, new.owner, new.values, enabled, new.createdAt.settled⟩ := by
  rw [SubscriptionRow.read_eq_ok_iff, hkind, htarget, howner, hcreated, Target.read_text,
    readAddress_addressText]
  constructor
  · rintro ⟨target, owner, createdAt, values, htarget', howner', hcreated', hvalues, rfl⟩
    cases htarget'
    cases howner'
    obtain ⟨hyear, rfl⟩ := Timestamp.eq_settled_of_read_text hcreated'
    obtain rfl := eq_of_read_newValueRows hvalues
    exact ⟨⟨(exists_read_newValueRows_iff row.id new.values).mp ⟨_, hvalues⟩, hyear⟩, rfl⟩
  · rintro ⟨⟨hvalues, hyear⟩, rfl⟩
    exact ⟨_, _, _, _, rfl, rfl, Timestamp.read_text hyear, read_newValueRows row.id hvalues, rfl⟩

/-- The row of a number, and its values, are read as the content that was inserted under it. -/
theorem read_of_tells {given : List NewSubscription} {t : TableLedger} (h : Tells given t)
    {i : Nat} {new : NewSubscription} (hnew : given[i]? = some new) {row : SubscriptionRow}
    (hrow : row ∈ t.rows) (hid : row.id = (i : Int) + 1) (enabled : Bool) (s : Subscription) :
    row.read enabled (t.valuesOf row.id) = .ok s ↔ new.Readable ∧
      s = ⟨i + 1, new.target, new.owner, new.values, enabled, new.createdAt.settled⟩ := by
  obtain ⟨j, other, hj, hother, hkind, htarget, howner, hcreated, hvalues⟩ := h.rows row hrow
  have hsame : j = i := by omega
  have htoNat : row.id.toNat = i + 1 := by omega
  rw [hsame, hnew] at hother
  cases hother
  rw [valuesOf_of_filter hvalues, read_eq_ok_iff_readable hkind htarget howner hcreated, htoNat]

/-- The number of a content that was inserted names its own row. -/
theorem rowNumber_of_tells {given : List NewSubscription} {t : TableLedger} (h : Tells given t)
    {i : Nat} {new : NewSubscription} (hnew : given[i]? = some new) :
    rowNumber (i + 1) = (i : Int) + 1 := by
  have hlt : i < given.length := (List.getElem?_eq_some_iff.mp hnew).1
  have hlast := h.lastId
  have hle := h.lastId_le
  exact rowNumber_eq (by omega)

/-- What is found under a number whose content was inserted, by its row. -/
theorem fetch_of_tells {given : List NewSubscription} {t : TableLedger} (h : Tells given t)
    {i : Nat} {new : NewSubscription} (hnew : given[i]? = some new) {row : SubscriptionRow}
    (hrow : t.row? (rowNumber (i + 1)) = some row) {enabled : Bool}
    (hon : row.enabled.isOn = .ok enabled) :
    (new.Readable → t.fetch (i + 1) =
        .ok (some ⟨i + 1, new.target, new.owner, new.values, enabled, new.createdAt.settled⟩)) ∧
      (¬ new.Readable → ∃ defect, t.fetch (i + 1) = .error (.corruptRow (i + 1) defect)) := by
  have hid : row.id = (i : Int) + 1 := (id_of_row? hrow).trans (rowNumber_of_tells h hnew)
  have hread := read_of_tells h hnew (List.mem_of_find?_eq_some hrow) hid enabled
  have hfetch : t.fetch (i + 1) =
      ((row.read enabled (t.valuesOf row.id)).mapError (.corruptRow row.id)).map some := by
    unfold fetch
    rw [hrow]
    dsimp only
    rw [hon, ok_bind]
    rfl
  refine ⟨fun hreadable => ?_, fun hnot => ?_⟩
  · rw [hfetch, (hread _).mpr ⟨hreadable, rfl⟩]
    rfl
  · cases hcell : row.read enabled (t.valuesOf row.id) with
    | ok s => exact absurd ((hread s).mp hcell).1 hnot
    | error defect =>
      refine ⟨defect, ?_⟩
      rw [hfetch, hcell, ← hid]
      rfl

theorem keeps_of_fetch {given : List NewSubscription} {t : TableLedger} (h : Tells given t)
    {i : Nat} {new : NewSubscription} (hnew : given[i]? = some new) {s : Subscription}
    (hfetch : t.fetch (i + 1) = .ok (some s)) : s.Keeps new := by
  obtain ⟨row, enabled, hrow, hon, -⟩ := fetch_eq_some_iff.mp hfetch
  obtain ⟨hread, hnot⟩ := fetch_of_tells h hnew hrow hon
  by_cases hreadable : new.Readable
  · rw [hread hreadable] at hfetch
    cases hfetch
    exact ⟨rfl, rfl, rfl, Timestamp.settled_settled _⟩
  · obtain ⟨defect, herror⟩ := hnot hreadable
    rw [herror] at hfetch
    cases hfetch

theorem row?_setEnabled (t : TableLedger) (id : Nat) (enabled : Bool) (number : Int) :
    (t.setEnabled id enabled).2.row? number = (t.row? number).map fun row =>
      if number = rowNumber id then { row with enabled := .int (if enabled then 1 else 0) }
      else row := by
  have hid : ∀ row : SubscriptionRow, (if row.id = rowNumber id then
      { row with enabled := .int (if enabled then 1 else 0) } else row).id = row.id := by
    intro row
    split
    · rfl
    · rfl
  show (t.rows.map _).find? _ = (t.rows.find? _).map _
  rw [List.find?_map]
  simp only [Function.comp_def, hid]
  cases hfind : t.rows.find? (·.id = number) with
  | none => rfl
  | some row =>
    have hrow : row.id = number := id_of_row? hfind
    rw [Option.map_some, Option.map_some, hrow]

/-- What is found is found again when it is switched, in its new state. -/
theorem fetch_setEnabled {t : TableLedger} {id : Nat} {s : Subscription}
    (h : t.fetch id = .ok (some s)) (enabled : Bool) :
    (t.setEnabled id enabled).2.fetch id = .ok (some { s with enabled }) := by
  obtain ⟨row, old, hrow, -, hread⟩ := fetch_eq_some_iff.mp h
  obtain ⟨target, owner, createdAt, values, htarget, howner, hcreated, hvalues, rfl⟩ :=
    SubscriptionRow.read_eq_ok_iff.mp hread
  have hon : NumberCell.isOn (.int (if enabled then 1 else 0)) = .ok enabled := by
    cases enabled with
    | true => rfl
    | false => rfl
  have hswitched : (t.setEnabled id enabled).2.row? (rowNumber id) =
      some { row with enabled := .int (if enabled then 1 else 0) } := by
    rw [row?_setEnabled, hrow, Option.map_some, if_pos rfl]
  exact fetch_eq_some_iff.mpr ⟨_, enabled, hswitched, hon, SubscriptionRow.read_eq_ok_iff.mpr
    ⟨target, owner, createdAt, values, htarget, howner, hcreated, hvalues, rfl⟩⟩

theorem records : Ledger.Records Tells where
  insert := fun h hcall => tells_insert h hcall
  setEnabled := by
    intro given t id enabled changed next h hcall
    have hnext : next = (t.setEnabled id enabled).2 := congrArg Prod.snd (Except.ok.inj hcall).symm
    rw [hnext]
    exact tells_setEnabled h id enabled
  remove := by
    intro given t id removed next h hcall
    have hnext : next = (t.remove id).2 := congrArg Prod.snd (Except.ok.inj hcall).symm
    rw [hnext]
    exact tells_remove h id
  fetch := fun h hnew hcall => keeps_of_fetch h hnew hcall

end TableLedger

end Autopilot
