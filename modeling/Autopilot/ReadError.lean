/-
  Errors of the two text readers, the one of parameter lists and the one of
  preconditions.

  An error has a cause and a position, which counts bytes from the start of the text.
  `withContext` shows the text, a caret under the position and the error; the caret
  stands behind as many blanks as the position counts bytes.
-/
import Autopilot.Value

namespace Autopilot

/-- Why a text cannot be read on. -/
inductive ReadCause where
  | nameExpected (sigil : Char)
  | indexExpected
  | indexTooLarge (digits : String)
  | bindingExpected
  | literal (cause : AbiValue.Defect)
  | separatorExpected (found : Char)
  | noneGiven (expected : Nat)
  | tooMany (expected : Nat)
  | wrongCount (expected found : Nat)
  | charExpected (expected : Char) (found : Option Char)
  | keyExpected
  | badInteger (text : String)
  | operandExpected (found : String)
  | predicateExpected (found : String)
  | tooFew (keyword : String)
  | tooDeep (levels : Nat)
  | leftOver (rest : String)
  deriving DecidableEq

/-- The cause in words. -/
def ReadCause.message : ReadCause → String
  | .nameExpected sigil => "expected a name after '" ++ String.singleton sigil ++ "'"
  | .indexExpected => "expected an action index after '$'"
  | .indexTooLarge digits => "invalid action index: " ++ digits
  | .bindingExpected => "expected a parameter binding"
  | .literal cause => cause.message
  | .separatorExpected found =>
    "expected ',' or end of input, found '" ++ String.singleton found ++ "'"
  | .noneGiven expected => "expected " ++ toString expected ++ " parameters, found none"
  | .tooMany expected => "too many parameters: expected " ++ toString expected
  | .wrongCount expected found =>
    "expected " ++ toString expected ++ " parameters, found " ++ toString found
  | .charExpected expected (some found) =>
    "expected '" ++ String.singleton expected ++ "', found '" ++ String.singleton found ++ "'"
  | .charExpected expected none =>
    "expected '" ++ String.singleton expected ++ "', found end of input"
  | .keyExpected => "expected snapshot key after '@'"
  | .badInteger text => "invalid integer: " ++ text
  | .operandExpected found => "expected '@key' or integer, found '" ++ found ++ "'"
  | .predicateExpected found => "expected predicate, found '" ++ found ++ "'"
  | .tooFew keyword => keyword ++ " requires at least 2 predicates"
  | .tooDeep levels => "predicates nest deeper than " ++ toString levels ++ " levels"
  | .leftOver rest => "unexpected input after predicate: '" ++ rest ++ "'"

/-- An error of a text reader. -/
structure ReadError where
  cause : ReadCause
  /-- Bytes of the text before the place of the error. -/
  position : Nat
  deriving DecidableEq

namespace ReadError

/-- The error with its position. -/
def message (e : ReadError) : String :=
  "parse error at position " ++ toString e.position ++ ": " ++ e.cause.message

/-- The line with the caret. -/
def caretLine (e : ReadError) : String :=
  String.ofList (List.replicate e.position ' ') ++ "^"

/-- The text, the caret below the position and the error. -/
def withContext (e : ReadError) (source : String) : String :=
  source ++ "\n" ++ e.caretLine ++ "\n" ++ e.message

end ReadError

end Autopilot
