/-
  Reading the parameter list of an operation.

    &vaultId, %withdrawAmount, $2, 0x6B175474E89094C44Da98b954EedeAC495271d0F, 1

  Bindings are separated by commas, and there is one for each parameter. A dollar sign
  pipes the return value of an action, an ampersand names a sub-slot, a percent sign
  names a variable, and anything else up to the next comma is a literal of the type of
  the parameter that it fills. Blanks around a binding do not count.
-/
import Autopilot.Binding
import Autopilot.ReadError
import Autopilot.Text.Cursor

namespace Autopilot.Binding

open Text (Cursor isNameChar)

/-- Reads the name behind a sigil. -/
def readName (sigil : Char) (c : Cursor) : Except ReadError (String × Cursor) :=
  match c.takeWhile isNameChar with
  | ([], _) => .error ⟨.nameExpected sigil, c.pos⟩
  | (name, next) => .ok (String.ofList name, next)

/-- Reads the position of an action. -/
def readIndex (c : Cursor) : Except ReadError (Nat × Cursor) :=
  match c.takeWhile Char.isDigit with
  | ([], _) => .error ⟨.indexExpected, c.pos⟩
  | (digits, next) =>
    match Text.unsigned? (bitBound 64) (String.ofList digits) with
    | some index => .ok (index, next)
    | none => .error ⟨.indexTooLarge (String.ofList digits), c.pos⟩

/-- Reads a literal up to the next comma. -/
def readLiteral (type : SlotType) (c : Cursor) : Except ReadError (Binding × Cursor) :=
  let (run, next) := c.takeWhile (· != ',')
  match Text.trimChars run with
  | [] => .error ⟨.bindingExpected, c.pos⟩
  | text =>
    match AbiValue.read type (String.ofList text) with
    | .ok value => .ok (.const value, next)
    | .error cause => .error ⟨.literal cause, c.pos⟩

/-- Reads one binding for a parameter of the given type; no blank may stand before it. -/
def readOne (type : SlotType) (c : Cursor) : Except ReadError (Binding × Cursor) :=
  match c.rest with
  | '$' :: _ => (readIndex (c.skip 1)).map fun (index, next) => (.piped index, next)
  | '&' :: _ => (readName '&' (c.skip 1)).map fun (name, next) => (.subSlot name, next)
  | '%' :: _ => (readName '%' (c.skip 1)).map fun (name, next) => (.placeholder name, next)
  | _ => readLiteral type c

/-- Moves past the comma behind a binding, or to the end of the text. -/
def readSeparator (c : Cursor) : Except ReadError Cursor :=
  let c := c.skipBlanks
  match c.rest with
  | [] => .ok c
  | ',' :: _ => .ok (c.skip 1)
  | found :: _ => .error ⟨.separatorExpected found, c.pos⟩

/-- Reads bindings for the parameters whose types are left, out of `total`. -/
def readFrom (total : Nat) : List SlotType → Cursor → Except ReadError (List Binding)
  | [], c => .error ⟨.tooMany total, c.skipBlanks.pos⟩
  | type :: types, c => do
    let (b, afterBinding) ← readOne type c.skipBlanks
    let next ← readSeparator afterBinding
    if next.atEnd then
      if types.isEmpty then pure [b]
      else throw ⟨.wrongCount total (total - types.length), next.pos⟩
    else
      let rest ← readFrom total types next
      pure (b :: rest)

/-- Reads the bindings for parameters of the given types. -/
def readList (types : List SlotType) (s : String) : Except ReadError (List Binding) :=
  let c := (Cursor.start s).skipBlanks
  if c.atEnd then
    if types.isEmpty then .ok [] else .error ⟨.noneGiven types.length, c.pos⟩
  else readFrom types.length types c

end Autopilot.Binding
