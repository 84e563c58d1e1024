/-
  The tables of a ledger as a text that outlives the process.

  The first line holds the last number that was given out. Every further line is a row:
  its kind and its cells, separated by single blanks, texts as hexadecimal digits so
  that they hold neither blanks nor line ends.
-/
import Autopilot.Subscription.Table

namespace Autopilot.Archive

/-- A cell that holds a text. -/
def textCell (s : String) : String :=
  Text.hex (utf8 s)

/-- A cell of a column for whole numbers; what is no whole number stands behind a star. -/
def numberCell : NumberCell → String
  | .int value => toString value
  | .fraction literal => "*" ++ textCell literal
  | .text value => "*" ++ textCell value

/-- The line of a subscription. -/
def subscriptionLine (row : SubscriptionRow) : String :=
  " ".intercalate ["subscription", toString row.id, textCell row.targetKind, textCell row.target,
    textCell row.owner, numberCell row.enabled, textCell row.createdAt]

/-- The line of a value. -/
def valueLine (row : ValueRow) : String :=
  " ".intercalate ["value", toString row.subscriptionId, toString row.position, textCell row.name,
    textCell row.valueType, textCell row.value]

/-- Tables as a text. -/
def render (t : TableLedger) : String :=
  "\n".intercalate
    (("last " ++ toString t.lastId) :: t.rows.map subscriptionLine ++ t.valueRows.map valueLine)

/-! ## Reading -/

/-- The text of a cell. -/
def readText? (cell : String) : Option String :=
  (Text.readHexPairs 0 (utf8 cell)).toOption.bind ofUtf8?

/-- The number or text of a cell. -/
def readNumber? (cell : String) : Option NumberCell :=
  match cell.toList with
  | '*' :: digits => (readText? (String.ofList digits)).map NumberCell.ofText
  | _ => (Text.signed64? cell).map .int

/-- Takes in one line. -/
def addLine (t : TableLedger) (line : String) : Option TableLedger :=
  match (line.toList.splitOn ' ').map String.ofList with
  | ["last", id] => (Text.signed64? id).map fun id => { t with lastId := id }
  | ["subscription", id, kind, target, owner, enabled, createdAt] => do
    let row : SubscriptionRow :=
      ⟨← Text.signed64? id, ← readText? kind, ← readText? target, ← readText? owner,
        ← readNumber? enabled, ← readText? createdAt⟩
    pure { t with rows := t.rows ++ [row] }
  | ["value", id, position, name, type, value] => do
    let row : ValueRow :=
      ⟨← Text.signed64? id, ← Text.unsigned? (bitBound 64) position, ← readText? name,
        ← readText? type, ← readText? value⟩
    pure { t with valueRows := t.valueRows ++ [row] }
  | _ => none

/-- Reads a text of tables; the empty text stands for tables without rows. -/
def read? (s : String) : Option TableLedger :=
  if s = "" then some TableLedger.empty
  else ((s.toList.splitOn '\n').map String.ofList).foldlM addLine TableLedger.empty

end Autopilot.Archive
