/-
  Reading the precondition language.

    predicate = ALWAYS
              | AT_LEAST(operand, operand) | AT_MOST(operand, operand)
              | AND(predicate, predicate, …) | OR(predicate, predicate, …)
              | NOT(predicate)
    operand   = @key | amount

  Blanks may stand between tokens. A keyword ends where a name would end, so `ANDx` is
  no keyword. Predicates nest at most `maxNesting` levels deep, the outermost being
  the first level; that bound is what the recursion runs on.
-/
import Autopilot.Predicate.Basic
import Autopilot.ReadError
import Autopilot.Text.Cursor

namespace Autopilot.Predicate

open Text (Cursor isNameChar)

/-- The deepest nesting that is read. -/
def maxNesting : Nat := 32

/-! ## Tokens -/

/-- Moves past the given character, after blanks. -/
def expect (expected : Char) (c : Cursor) : Except ReadError Cursor :=
  let c := c.skipBlanks
  match c.rest with
  | found :: _ =>
    if found = expected then .ok (c.skip 1)
    else .error ⟨.charExpected expected (some found), c.pos⟩
  | [] => .error ⟨.charExpected expected none, c.pos⟩

/-- Whether the next token is the given keyword. -/
def atKeyword (keyword : String) (c : Cursor) : Bool :=
  match List.isPrefixOf? keyword.toList c.rest with
  | some (next :: _) => !isNameChar next
  | some [] => true
  | none => false

/-- Moves past a keyword that is known to stand next. -/
def passKeyword (keyword : String) (c : Cursor) : Cursor :=
  c.skip keyword.length

/-- What stands next, as errors show it: a name, a single character or the end. -/
def nextWord (c : Cursor) : String :=
  match c.rest.takeWhile isNameChar, c.rest with
  | [], [] => "end of input"
  | [], found :: _ => String.singleton found
  | word, _ => String.ofList word

/-! ## Operands -/

/-- Reads the key behind an at sign. -/
def readKey (c : Cursor) : Except ReadError (Operand × Cursor) :=
  match c.takeWhile isNameChar with
  | ([], _) => .error ⟨.keyExpected, c.pos⟩
  | (name, next) => .ok (.key (String.ofList name), next)

/-- Reads an amount. -/
def readAmount (c : Cursor) : Except ReadError (Operand × Cursor) :=
  let (run, next) := c.takeWhile Char.isAlphanum
  let literal := String.ofList run
  match Text.amount? literal with
  | some value => .ok (.literal value, next)
  | none => .error ⟨.badInteger literal, c.pos⟩

/-- Reads one side of a comparison, after blanks. -/
def readOperand (c : Cursor) : Except ReadError (Operand × Cursor) :=
  let c := c.skipBlanks
  match c.rest with
  | '@' :: _ => readKey (c.skip 1)
  | found :: _ =>
    if found.isDigit then readAmount c else .error ⟨.operandExpected (nextWord c), c.pos⟩
  | [] => .error ⟨.operandExpected (nextWord c), c.pos⟩

/-- Reads two operands in brackets. -/
def readOperands (c : Cursor) : Except ReadError ((Operand × Operand) × Cursor) := do
  let c ← expect '(' c
  let (left, c) ← readOperand c
  let c ← expect ',' c
  let (right, c) ← readOperand c
  let c ← expect ')' c
  pure ((left, right), c)

/-! ## Predicates -/

/-- Reads at most `bound` predicates up to the closing bracket, with the given reader for one. -/
def readItems (readOne : Cursor → Except ReadError (Predicate × Cursor)) :
    (bound : Nat) → Cursor → Except ReadError (List Predicate × Cursor)
  | 0, c => .error ⟨.charExpected ')' none, c.pos⟩
  | bound + 1, c => do
    let (item, afterItem) ← readOne c
    let next := afterItem.skipBlanks
    match next.rest with
    | ')' :: _ => pure ([item], next.skip 1)
    | _ =>
      let afterComma ← expect ',' next
      let (items, last) ← readItems readOne bound afterComma
      pure (item :: items, last)

/-- Reads two predicates or more in brackets, and at most `bound` of them. -/
def readParts (bound : Nat) (readOne : Cursor → Except ReadError (Predicate × Cursor))
    (keyword : String) (c : Cursor) : Except ReadError (List Predicate × Cursor) := do
  let c ← expect '(' c
  let (items, last) ← readItems readOne bound c
  if items.length < 2 then throw ⟨.tooFew keyword, last.pos⟩
  pure (items, last)

/-- Reads the predicate whose keyword stands next. -/
def readTerm (bound : Nat) (readOne : Cursor → Except ReadError (Predicate × Cursor))
    (c : Cursor) : Except ReadError (Predicate × Cursor) := do
  if atKeyword "ALWAYS" c then
    pure (.always, passKeyword "ALWAYS" c)
  else if atKeyword "AT_LEAST" c then
    let ((left, right), next) ← readOperands (passKeyword "AT_LEAST" c)
    pure (.atLeast left right, next)
  else if atKeyword "AT_MOST" c then
    let ((left, right), next) ← readOperands (passKeyword "AT_MOST" c)
    pure (.atMost left right, next)
  else if atKeyword "AND" c then
    let (parts, next) ← readParts bound readOne "AND" (passKeyword "AND" c)
    pure (.all parts, next)
  else if atKeyword "OR" c then
    let (parts, next) ← readParts bound readOne "OR" (passKeyword "OR" c)
    pure (.any parts, next)
  else if atKeyword "NOT" c then
    let inside ← expect '(' (passKeyword "NOT" c)
    let (part, afterPart) ← readOne inside
    let next ← expect ')' afterPart
    pure (.not part, next)
  else throw ⟨.predicateExpected (nextWord c), c.pos⟩

/-- Reads one predicate, after blanks, that nests at most as deep as the given number and has at
    most `bound` parts at any place. -/
def readNested (bound : Nat) : (levels : Nat) → Cursor → Except ReadError (Predicate × Cursor)
  | 0, c => .error ⟨.tooDeep maxNesting, c.skipBlanks.pos⟩
  | levels + 1, c => readTerm bound (readNested bound levels) c.skipBlanks

/-- Reads a text that is one predicate. Every part that can be read takes up a character, so no
    place has more parts than the text has characters, and the bound is one more than these. -/
def read (s : String) : Except ReadError Predicate := do
  let start := Cursor.start s
  let (p, c) ← readNested (start.rest.length + 1) maxNesting start
  let last := c.skipBlanks
  if last.atEnd then pure p
  else throw ⟨.leftOver (String.ofList last.rest), last.pos⟩

end Autopilot.Predicate
