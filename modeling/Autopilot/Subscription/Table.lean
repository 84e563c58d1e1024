/-
  The ledger of a database: two tables whose cells are texts.

  A subscription is a row with its target, owner, state and time of creation, and its
  values are rows of a second table, each with its place, name, type and text. Finding
  a subscription reads all of these texts back, and a text that cannot be read is a
  fault. Rows are numbered by signed integers of 64 bits, so a number from 2^63 on
  stands for a negative one and names no row; a number is never given twice, and behind
  the largest one no row can be added.
-/
import Autopilot.Subscription.Ledger
import Autopilot.Subscription.NumberCell

namespace Autopilot

/-! ## Rows -/

/-- A row of the first table. -/
structure SubscriptionRow where
  id : Int
  targetKind : String
  target : String
  owner : String
  enabled : NumberCell
  createdAt : String
  deriving DecidableEq

/-- A row of the second table. -/
structure ValueRow where
  subscriptionId : Int
  position : Nat
  name : String
  valueType : String
  value : String
  deriving DecidableEq

/-- Both tables, and the last number that was given out. -/
structure TableLedger where
  lastId : Int
  rows : List SubscriptionRow
  valueRows : List ValueRow
  deriving DecidableEq

/-- The largest number of a row. -/
def largestRow : Int := bitBound 63 - 1

/-- The signed integer of 64 bits with the same bits as a number. -/
def rowNumber (id : Nat) : Int :=
  Int.bmod id (bitBound 64)

/-! ## Reading rows back -/

/-- The kind of a target as it is stored. -/
def Target.kindText : Target → String
  | .strategy _ => "strategy"
  | .bundle _ => "bundle"

/-- The content address of a target as it is stored. -/
def Target.idText : Target → String
  | .strategy id => id.text
  | .bundle key => key.text

/-- Reads a target. -/
def Target.read (kind text : String) : Except RowDefect Target :=
  if kind = "strategy" then
    match StrategyId.read? text with
    | some id => .ok (.strategy id)
    | none => .error (.strategyId text)
  else if kind = "bundle" then
    match BundleKey.read? text with
    | some key => .ok (.bundle key)
    | none => .error (.bundleKey text)
  else .error (.targetKind kind)

/-- Reads a value with its name. -/
def ValueRow.read (row : ValueRow) : Except RowDefect (String × AbiValue) :=
  match SlotType.read row.valueType with
  | .error cause => .error (.type cause)
  | .ok type =>
    match AbiValue.read type row.value with
    | .error cause => .error (.value cause)
    | .ok value => .ok (row.name, value)

/-- Whether a subscription is on: any number but zero says so. -/
def NumberCell.isOn : NumberCell → Except Fault Bool
  | .int value => .ok (value ≠ 0)
  | .fraction _ => .error (.queryFailed (.fractionColumn 4 "enabled"))
  | .text _ => .error (.queryFailed (.textColumn 4 "enabled"))

/-- Reads the texts of a row and its values, in the order of the columns. -/
def SubscriptionRow.read (row : SubscriptionRow) (enabled : Bool) (values : List ValueRow) :
    Except RowDefect Subscription := do
  let target ← Target.read row.targetKind row.target
  let owner ← (readAddress row.owner).mapError RowDefect.owner
  let createdAt ← (Timestamp.read row.createdAt).mapError RowDefect.createdAt
  let values ← values.mapM ValueRow.read
  pure ⟨row.id.toNat, target, owner, values, enabled, createdAt⟩

namespace TableLedger

/-- Tables without rows. -/
def empty : TableLedger := ⟨0, [], []⟩

/-- The row with a number. -/
def row? (t : TableLedger) (id : Int) : Option SubscriptionRow :=
  t.rows.find? (·.id = id)

/-- The values of a subscription, by their places. -/
def valuesOf (t : TableLedger) (id : Int) : List ValueRow :=
  (t.valueRows.filter (·.subscriptionId = id)).mergeSort fun a b => a.position ≤ b.position

/-! ## Steps -/

/-- The rows of a new subscription's values. -/
def newValueRows (id : Int) (values : List (String × AbiValue)) : List ValueRow :=
  values.zipIdx.map fun ((name, value), position) =>
    ⟨id, position, name, value.slotType.text, value.text⟩

/-- The row of a new subscription. -/
def newRow (id : Int) (new : NewSubscription) : SubscriptionRow :=
  ⟨id, new.target.kindText, new.target.idText, addressText new.owner, .int 1, new.createdAt.text⟩

/-- Keeps a new subscription under the next number, if there is one. -/
def insert (t : TableLedger) (new : NewSubscription) : Except Fault (Subscription × TableLedger) :=
  if t.lastId < largestRow then
    let id := t.lastId + 1
    .ok (⟨id.toNat, new.target, new.owner, new.values, true, new.createdAt⟩,
      ⟨id, t.rows ++ [newRow id new], t.valueRows ++ newValueRows id new.values⟩)
  else .error (.queryFailed .full)

/-- Finds the subscription with a number. -/
def fetch (t : TableLedger) (id : Nat) : Except Fault (Option Subscription) :=
  match t.row? (rowNumber id) with
  | none => .ok none
  | some row => do
    let enabled ← row.enabled.isOn
    let subscription ← (row.read enabled (t.valuesOf row.id)).mapError (.corruptRow row.id)
    pure (some subscription)

/-- Switches the subscription with a number on or off. -/
def setEnabled (t : TableLedger) (id : Nat) (enabled : Bool) : Bool × TableLedger :=
  let number := rowNumber id
  let switched := t.rows.map fun row =>
    if row.id = number then { row with enabled := .int (if enabled then 1 else 0) } else row
  ((t.row? number).isSome, { t with rows := switched })

/-- Removes the subscription with a number, and its values. -/
def remove (t : TableLedger) (id : Nat) : Bool × TableLedger :=
  let number := rowNumber id
  ((t.row? number).isSome,
    ⟨t.lastId, t.rows.filter (·.id ≠ number), t.valueRows.filter (·.subscriptionId ≠ number)⟩)

instance : Ledger TableLedger where
  insert t new := t.insert new
  fetch t id := t.fetch id
  setEnabled t id enabled := .ok (t.setEnabled id enabled)
  remove t id := .ok (t.remove id)
  count t := .ok t.rows.length

/-! ## Overwriting a cell -/

/-- The columns of the first table that can be overwritten. -/
inductive Column where
  | targetKind
  | target
  | owner
  | createdAt
  | enabled
  deriving DecidableEq

/-- The columns of the second table that can be overwritten. -/
inductive ValueColumn where
  | name
  | valueType
  | value
  deriving DecidableEq

/-- The row with the text in the column. -/
def SubscriptionRow.write (row : SubscriptionRow) (column : Column) (text : String) :
    SubscriptionRow :=
  match column with
  | .targetKind => { row with targetKind := text }
  | .target => { row with target := text }
  | .owner => { row with owner := text }
  | .createdAt => { row with createdAt := text }
  | .enabled => { row with enabled := NumberCell.ofText text }

/-- The row with the text in the column. -/
def ValueRow.write (row : ValueRow) (column : ValueColumn) (text : String) : ValueRow :=
  match column with
  | .name => { row with name := text }
  | .valueType => { row with valueType := text }
  | .value => { row with value := text }

/-- Overwrites a cell of a subscription, and counts the rows that changed. -/
def overwrite (t : TableLedger) (id : Nat) (column : Column) (text : String) :
    Nat × TableLedger :=
  let number := rowNumber id
  let written := t.rows.map fun row =>
    if row.id = number then SubscriptionRow.write row column text else row
  (t.rows.countP (·.id = number), { t with rows := written })

/-- Overwrites a cell of one of a subscription's values, and counts the rows that changed. -/
def overwriteValue (t : TableLedger) (id : Nat) (position : Nat) (column : ValueColumn)
    (text : String) : Nat × TableLedger :=
  let number := rowNumber id
  let isMeant := fun row : ValueRow => row.subscriptionId = number && row.position = position
  let written := t.valueRows.map fun row =>
    if isMeant row then ValueRow.write row column text else row
  (t.valueRows.countP isMeant, { t with valueRows := written })

end TableLedger

end Autopilot
