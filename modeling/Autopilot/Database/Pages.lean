/-
  The file that holds the tables of a ledger.

  A database file consists of pages of one size. Rows of a table lie in the leaves of a
  tree in the order of their numbers, and a new row goes into the last leaf or, if that
  is full, into a new one. The index over the places of values is a tree as well; when
  its last leaf is full, the last three leaves are evened out. From the sizes of the
  rows this gives the number of pages, and so the length of the file. Rows are only ever
  added here, and the root of a tree has room for all its leaves.
-/
import Autopilot.Subscription.Table

namespace Autopilot.Pages

/-- The size of a page in bytes. -/
def pageSize : Nat := 4096

/-- The bytes of a leaf that entries can use. -/
def leafRoom : Nat := pageSize - 8

/-! ## Sizes of records -/

/-- The bytes that a number takes, seven bits to a byte. -/
def compactSize (n : Nat) : Nat :=
  if h : n < 128 then 1 else 1 + compactSize (n / 128)
termination_by n
decreasing_by omega

/-- The size of a field: of the entry that tells its type, and of its data. -/
structure FieldSize where
  type : Nat
  data : Nat

/-- A field that repeats the number of its row is left out. -/
def rowNumberField : FieldSize := ⟨1, 0⟩

/-- A whole number; zero and one are told by their type. -/
def intField (v : Int) : FieldSize :=
  let n := if v < 0 then (-v - 1).toNat else v.toNat
  ⟨1,
    if v = 0 ∨ v = 1 then 0
    else if n < bitBound 7 then 1
    else if n < bitBound 15 then 2
    else if n < bitBound 23 then 3
    else if n < bitBound 31 then 4
    else if n < bitBound 47 then 6
    else 8⟩

/-- A text; its type tells its length. -/
def textField (s : String) : FieldSize :=
  ⟨compactSize (13 + 2 * s.utf8ByteSize), s.utf8ByteSize⟩

/-- A cell of a column for whole numbers. -/
def numberField : NumberCell → FieldSize
  | .int v => intField v
  | .fraction _ => ⟨1, 8⟩
  | .text s => textField s

/-- The size of a record: the length of its head, the types and the data. -/
def recordSize (fields : List FieldSize) : Nat :=
  fields.foldl (fun total field => total + (field.type + field.data)) 1

/-- The record of a subscription. -/
def subscriptionSize (row : SubscriptionRow) : Nat :=
  recordSize [rowNumberField, textField row.targetKind, textField row.target, textField row.owner,
    numberField row.enabled, textField row.createdAt]

/-- The record of a value. -/
def valueSize (row : ValueRow) : Nat :=
  recordSize [intField row.subscriptionId, intField row.position, textField row.name,
    textField row.valueType, textField row.value]

/-- The record of a value in the index, which ends with the number of the value's row. -/
def indexSize (row : ValueRow) (number : Nat) : Nat :=
  recordSize [intField row.subscriptionId, intField row.position, intField number]

/-! ## The tree of a table -/

/-- The most bytes of a record that stay in its leaf, and the least if some do not. -/
def mostLocal : Nat := pageSize - 35

/-- The least bytes of a record that stay in its leaf. -/
def leastLocal : Nat := (pageSize - 12) * 32 / 255 - 23

/-- The bytes of a record that a page of its own can take. -/
def overflowRoom : Nat := pageSize - 4

/-- The bytes of a long record that stay in its leaf: as many as leave full pages, if they fit. -/
def localSize (size : Nat) : Nat :=
  let rest := leastLocal + (size - leastLocal) % overflowRoom
  if rest ≤ mostLocal then rest else leastLocal

/-- The tree of a table, by what its size depends on. -/
structure TableTree where
  leaves : Nat
  /-- The bytes that are taken in the last leaf. -/
  used : Nat
  /-- The pages for the ends of long records. -/
  overflow : Nat

namespace TableTree

/-- A table without rows is one empty leaf. -/
def empty : TableTree := ⟨1, 0, 0⟩

/-- Puts an entry behind all others. -/
def addEntry (t : TableTree) (size overflow : Nat) : TableTree :=
  if t.used + (size + 2) ≤ leafRoom then ⟨t.leaves, t.used + (size + 2), t.overflow + overflow⟩
  else ⟨t.leaves + 1, size + 2, t.overflow + overflow⟩

/-- Puts a record behind all others. -/
def add (t : TableTree) (number size : Nat) : TableTree :=
  let head := compactSize size + compactSize number
  if size ≤ mostLocal then t.addEntry (head + size) 0
  else
    let inLeaf := localSize size
    t.addEntry (head + inLeaf + 4) ((size - inLeaf + overflowRoom - 1) / overflowRoom)

/-- The pages of a table; several leaves have a root above them. -/
def pages (t : TableTree) : Nat :=
  (if t.leaves = 1 then 1 else t.leaves + 1) + t.overflow

end TableTree

/-! ## The tree of an index -/

/-- A row of leaves, given by the sizes of their entries, with one entry between two leaves. -/
structure Leaves where
  first : List Nat
  /-- Each further leaf, behind the entry in front of it. -/
  further : List (Nat × List Nat)

namespace Leaves

/-- All entries in their order. -/
def entries (l : Leaves) : List Nat :=
  l.first ++ l.further.flatMap fun (between, leaf) => between :: leaf

/-- The bytes that the entries of a leaf take. -/
def taken (leaf : List Nat) : Nat :=
  leaf.foldl (fun total size => total + (size + 2)) 0

/-- Fills leaves from the left, after a leaf with the given entries, the last one first. -/
def fill (leaf : List Nat) (used : Nat) : List Nat → Leaves
  | [] => ⟨leaf.reverse, []⟩
  | size :: rest =>
    if used + (size + 2) ≤ leafRoom then fill (size :: leaf) (used + (size + 2)) rest
    else
      let behind := fill [] 0 rest
      ⟨leaf.reverse, (size, behind.first) :: behind.further⟩

/-- Moves entries to a leaf from the one to its left, whose entries come with the last one first,
    until the left one would become the smaller of the two. -/
def even (isLast : Bool) (left : List Nat) (leftTaken : Nat) (between : Nat) (right : List Nat)
    (rightTaken : Nat) : List Nat × Nat × List Nat :=
  match left with
  | [] => ([], between, right)
  | size :: outer =>
    let kept := leftTaken - (size + if isLast then 0 else 2)
    if rightTaken ≠ 0 && kept < rightTaken + (between + 2) then (left, between, right)
    else even isLast outer (leftTaken - (size + 2)) size (between :: right)
      (rightTaken + (between + 2))

/-- Evens out the leaves behind a leaf and that leaf itself, from the right. -/
def evenFrom (first : List Nat) : List (Nat × List Nat) → Leaves
  | [] => ⟨first, []⟩
  | (between, leaf) :: rest =>
    let behind := evenFrom leaf rest
    let (left, between, right) :=
      even rest.isEmpty first.reverse (taken first) between behind.first (taken behind.first)
    ⟨left.reverse, (between, right) :: behind.further⟩

/-- Spreads entries over as few leaves as can hold them. -/
def spread (entries : List Nat) : Leaves :=
  let filled := fill [] 0 entries
  evenFrom filled.first filled.further

end Leaves

/-- The tree of an index: its last leaves, which are three at most, and the number of the others. -/
structure IndexTree where
  settled : Nat
  last : Leaves

namespace IndexTree

/-- An index without entries is one empty leaf. -/
def empty : IndexTree := ⟨0, ⟨[], []⟩⟩

/-- Counts all leaves but the last three as settled. -/
def settle (settled : Nat) (first : List Nat) : List (Nat × List Nat) → IndexTree
  | [] => ⟨settled, first, []⟩
  | (between, leaf) :: rest =>
    if rest.length < 2 then ⟨settled, first, (between, leaf) :: rest⟩
    else settle (settled + 1) leaf rest

/-- Puts an entry into the last leaf, whatever its size. -/
def append (l : Leaves) (size : Nat) : Leaves :=
  match l.further.reverse with
  | [] => ⟨l.first ++ [size], []⟩
  | (between, leaf) :: front => ⟨l.first, ((between, leaf ++ [size]) :: front).reverse⟩

/-- The last leaf. -/
def lastLeaf (l : Leaves) : List Nat :=
  ((l.further.getLast?).map (·.2)).getD l.first

/-- Puts a record behind all others. -/
def add (t : IndexTree) (size : Nat) : IndexTree :=
  let extended := append t.last (compactSize size + size)
  if Leaves.taken (lastLeaf extended) ≤ leafRoom then ⟨t.settled, extended⟩
  else
    let leaves := Leaves.spread extended.entries
    settle t.settled leaves.first leaves.further

/-- The pages of an index; several leaves have a root above them. -/
def pages (t : IndexTree) : Nat :=
  let leaves := t.settled + 1 + t.last.further.length
  if leaves = 1 then 1 else leaves + 1

end IndexTree

/-! ## The file -/

/-- The tree of the subscriptions. -/
def subscriptionTree (t : TableLedger) : TableTree :=
  t.rows.foldl (fun tree row => tree.add row.id.toNat (subscriptionSize row)) TableTree.empty

/-- The tree of the values, whose rows are numbered as they come. -/
def valueTree (t : TableLedger) : TableTree :=
  t.valueRows.zipIdx.foldl (fun tree (row, n) => tree.add (n + 1) (valueSize row)) TableTree.empty

/-- The index over the places of the values. -/
def placeIndex (t : TableLedger) : IndexTree :=
  t.valueRows.zipIdx.foldl (fun tree (row, n) => tree.add (indexSize row (n + 1))) IndexTree.empty

/-- The pages of a database: one lists the tables, one holds the last number given out, and the
    others belong to the tables and the index. -/
def count (t : TableLedger) : Nat :=
  2 + (subscriptionTree t).pages + (valueTree t).pages + (placeIndex t).pages

/-- The text that a database file begins with. -/
def magic : List UInt8 := utf8 "SQLite format 3" ++ [0]

/-- The file of a database. Its beginning and its length are those of the real one; the rest is a
    filling that is no UTF-8, as the pages of a real one are none. -/
def image (t : TableLedger) : List UInt8 :=
  magic ++ List.replicate (count t * pageSize - magic.length) 255

end Autopilot.Pages
