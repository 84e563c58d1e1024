/-
  Numbered sections and required keys.

  Sections `stem.1`, `stem.2`, … list the parts of a file. A section with a further dot
  (`member.1.variables`) belongs to its parent and is no entry of the list. The numbers
  must run from one without a gap.
-/
import Autopilot.Ini

namespace Autopilot.Ini

/-- What stands behind the stem and the dot in a heading, if nothing more is dotted off. -/
def numberText? (stem heading : String) : Option String :=
  match List.isPrefixOf? (stem.toList ++ ['.']) heading.toList with
  | some rest => if rest.contains '.' then none else some (String.ofList rest)
  | none => none

/-- The numbers of the sections of a stem, in the order of the headings. -/
def sectionNumbers (stem : String) : List String → Except Fault (List Nat)
  | [] => .ok []
  | heading :: rest =>
    match numberText? stem heading with
    | none => sectionNumbers stem rest
    | some text =>
      match Text.unsigned? (bitBound 64) text with
      | none => .error (.configInvalid heading "section" (.sectionNumber stem))
      | some number => (sectionNumbers stem rest).map (number :: ·)

/-- Increasing numbers must run on from `expected`. -/
def checkRun (stem : String) (expected : Nat) : List Nat → Except Fault Unit
  | [] => .ok ()
  | found :: rest =>
    if found = expected then checkRun stem (expected + 1) rest
    else .error (.configInvalid (stem ++ "." ++ toString found) "section"
      (.sectionGap stem expected))

/-- How many numbered sections of a stem there are, if they run from one without a gap. -/
def countNumbered (ini : Ini) (stem : String) : Except Fault Nat := do
  let numbers ← sectionNumbers stem ini.headings
  let ordered := numbers.mergeSort (· ≤ ·)
  checkRun stem 1 ordered
  pure ordered.length

/-- The heading of a numbered section. -/
def numbered (stem : String) (number : Nat) : String :=
  stem ++ "." ++ toString number

/-- The headings of the numbered sections of a stem, in order. -/
def numberedHeadings (ini : Ini) (stem : String) : Except Fault (List String) := do
  let count ← ini.countNumbered stem
  pure ((List.range count).map fun n => numbered stem (n + 1))

/-- The key must have a value with something in it. -/
def require (ini : Ini) (heading key : String) : Except Fault String :=
  match ini.value? heading key with
  | some s => if Text.isBlankText s then .error (.configMissing heading key) else .ok s
  | none => .error (.configMissing heading key)

end Autopilot.Ini
