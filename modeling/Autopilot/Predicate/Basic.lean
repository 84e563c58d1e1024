/-
  Preconditions: predicates over a snapshot of observed state.

  A snapshot gives values to keys. A comparison holds when both of its sides can be
  read and stand in order; a key that is absent, or whose value is no amount, makes it
  false. The text of a predicate is the one that the precondition language reads back.
-/
import Autopilot.NameMap
import Autopilot.Value

namespace Autopilot

/-- Observed state by key. -/
abbrev Snapshot := NameMap AbiValue

/-- One side of a comparison. -/
inductive Operand where
  /-- The amount observed under a key. -/
  | key (name : String)
  | literal (value : Word)
  deriving DecidableEq

namespace Operand

/-- The amount of an operand in a snapshot. -/
def resolve? (snapshot : Snapshot) : Operand → Option Word
  | .literal value => some value
  | .key name => (snapshot.find? name).bind AbiValue.asUint?

/-- The operand as it is written. -/
def text : Operand → String
  | .key name => "@" ++ name
  | .literal value => toString value.toNat

end Operand

/-- A precondition. -/
inductive Predicate where
  | always
  | atLeast (left right : Operand)
  | atMost (left right : Operand)
  | all (parts : List Predicate)
  | any (parts : List Predicate)
  | not (part : Predicate)

namespace Predicate

instance : Inhabited Predicate := ⟨always⟩

/-- Compares two operands; an operand that cannot be read makes the comparison false. -/
def compare (snapshot : Snapshot) (left right : Operand) (holds : Word → Word → Bool) : Bool :=
  match left.resolve? snapshot, right.resolve? snapshot with
  | some l, some r => holds l r
  | _, _ => false

/-! ## Meaning -/

mutual

/-- Whether a predicate holds in a snapshot. -/
def holds (snapshot : Snapshot) : Predicate → Bool
  | .always => true
  | .atLeast left right => compare snapshot left right fun l r => r.toNat ≤ l.toNat
  | .atMost left right => compare snapshot left right fun l r => l.toNat ≤ r.toNat
  | .all parts => allHold snapshot parts
  | .any parts => anyHolds snapshot parts
  | .not part => !holds snapshot part

/-- Whether every predicate of a list holds. -/
def allHold (snapshot : Snapshot) : List Predicate → Bool
  | [] => true
  | part :: rest => holds snapshot part && allHold snapshot rest

/-- Whether some predicate of a list holds. -/
def anyHolds (snapshot : Snapshot) : List Predicate → Bool
  | [] => false
  | part :: rest => holds snapshot part || anyHolds snapshot rest

end

/-! ## Text -/

mutual

/-- The predicate as it is written in the precondition language. -/
def text : Predicate → String
  | .always => "ALWAYS"
  | .atLeast left right => "AT_LEAST(" ++ left.text ++ ", " ++ right.text ++ ")"
  | .atMost left right => "AT_MOST(" ++ left.text ++ ", " ++ right.text ++ ")"
  | .all parts => "AND(" ++ ", ".intercalate (texts parts) ++ ")"
  | .any parts => "OR(" ++ ", ".intercalate (texts parts) ++ ")"
  | .not part => "NOT(" ++ text part ++ ")"

/-- The texts of a list of predicates. -/
def texts : List Predicate → List String
  | [] => []
  | part :: rest => text part :: texts rest

end

/-! ## Equality -/

mutual

/-- Whether two predicates are the same tree. -/
def same : Predicate → Predicate → Bool
  | .always, .always => true
  | .atLeast l r, .atLeast l' r' => l = l' && r = r'
  | .atMost l r, .atMost l' r' => l = l' && r = r'
  | .all ps, .all qs => sameList ps qs
  | .any ps, .any qs => sameList ps qs
  | .not p, .not q => same p q
  | _, _ => false

/-- Whether two lists hold the same trees in the same order. -/
def sameList : List Predicate → List Predicate → Bool
  | [], [] => true
  | p :: ps, q :: qs => same p q && sameList ps qs
  | _, _ => false

end

end Predicate

end Autopilot
