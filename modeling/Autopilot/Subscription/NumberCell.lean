/-
  Cells of a column for whole numbers.

  Such a column keeps what it is given as a whole number if it can. A text that is a
  decimal literal, blanks around it aside, becomes the number that it denotes: exactly
  for an integer of 64 bits, else as the nearest binary number of double precision, and
  then it is whole or not. A number that is not whole, or too large, stays a fraction
  to the column; a text that is no literal stays a text.
-/
import Autopilot.Text.Numeral

namespace Autopilot

/-- A cell of a column for whole numbers. -/
inductive NumberCell where
  | int (value : Int)
  /-- A number that is not whole or not within 64 bits, as it was written. -/
  | fraction (literal : String)
  | text (value : String)
  deriving DecidableEq

namespace NumberCell

/-! ## Decimal literals -/

/-- A decimal literal: a sign, digits before and behind the point, and a power of ten. -/
structure Decimal where
  isNegative : Bool
  whole : List Char
  part : List Char
  exponent : Int

/-- The blanks that may surround a literal. -/
def isBlank (c : Char) : Bool :=
  c == ' ' || (9 ≤ c.toNat && c.toNat ≤ 13)

/-- The characters without the blanks at their ends. -/
def strip (cs : List Char) : List Char :=
  ((cs.dropWhile isBlank).reverse.dropWhile isBlank).reverse

/-- Takes a sign, if one stands in front. -/
def takeSign : List Char → Bool × List Char
  | '-' :: rest => (true, rest)
  | '+' :: rest => (false, rest)
  | rest => (false, rest)

/-- The number that digits denote. It stops to grow once it has more than four digits, which is
    far beyond the powers of ten that any number has. -/
def power (digits : List Char) : Nat :=
  digits.foldl (fun n c => if n < 10000 then n * 10 + (c.toNat - 48) else 10000) 0

/-- The power of ten behind an `e`, of which there is at least one digit. -/
def readExponent? : List Char → Option Int
  | [] => some 0
  | c :: rest =>
    let (isNegative, digits) := takeSign rest
    if (c == 'e' || c == 'E') && !digits.isEmpty && digits.all Char.isDigit then
      some (if isNegative then -(power digits : Int) else power digits)
    else none

/-- Reads a literal, which has at least one digit before or behind its point. -/
def Decimal.read? (cs : List Char) : Option Decimal :=
  let (isNegative, unsigned) := takeSign (strip cs)
  let whole := unsigned.takeWhile Char.isDigit
  let (part, tail) := match unsigned.dropWhile Char.isDigit with
    | '.' :: rest => (rest.takeWhile Char.isDigit, rest.dropWhile Char.isDigit)
    | rest => ([], rest)
  if whole.isEmpty && part.isEmpty then none
  else (readExponent? tail).map fun exponent => ⟨isNegative, whole, part, exponent⟩

/-! ## The nearest binary number -/

/-- A significand of at most 64 bits and its power of ten. -/
structure Scaled where
  significand : Nat
  exponent : Int

/-- A significand from here on takes no further digit. -/
def significandLimit : Nat := (bitBound 64 - 10) / 10

/-- Takes in a digit before the point. -/
def Scaled.addWhole (s : Scaled) (c : Char) : Scaled :=
  if s.significand < significandLimit then
    ⟨s.significand * 10 + (c.toNat - 48), s.exponent⟩
  else ⟨s.significand, s.exponent + 1⟩

/-- Takes in a digit behind the point. -/
def Scaled.addPart (s : Scaled) (c : Char) : Scaled :=
  if s.significand < significandLimit then
    ⟨s.significand * 10 + (c.toNat - 48), s.exponent - 1⟩
  else s

/-- The leading digits of a literal and their power of ten. -/
def Decimal.scaled (d : Decimal) : Scaled :=
  let digits := d.part.foldl Scaled.addPart (d.whole.foldl Scaled.addWhole ⟨0, 0⟩)
  ⟨digits.significand, digits.exponent + d.exponent⟩

/-- A quotient rounded to the nearest integer, a tie to the even one. -/
def roundQuotient (n d : Nat) : Nat :=
  let q := n / d
  let r := n % d
  if 2 * r < d then q else if d < 2 * r then q + 1 else q + q % 2

/-- The power of two that the last bit of the double nearest to a quotient is worth. -/
def lastBit (n d : Nat) : Int :=
  let guess : Int := (Nat.log2 n : Int) - Nat.log2 d
  let isBelow := if 0 ≤ guess then n < d <<< guess.toNat else n <<< (-guess).toNat < d
  max ((if isBelow then guess - 1 else guess) - 52) (-1074)

/-- The double nearest to a quotient, if it is whole. -/
def wholeDouble? (n d : Nat) : Option Nat :=
  let last := lastBit n d
  if 0 ≤ last then some (roundQuotient n (d <<< last.toNat) <<< last.toNat)
  else
    let bits := roundQuotient (n <<< (-last).toNat) d
    if bits % (1 <<< (-last).toNat) = 0 then some (bits >>> (-last).toNat) else none

/-- A power of ten beyond which every number is too large, or below which every one is zero. -/
def widestExponent : Nat := 400

/-- The whole number that a literal is rounded to, if it is rounded to one. -/
def Scaled.whole? (s : Scaled) : Option Nat :=
  if s.significand = 0 then some 0
  else if s.exponent < -(widestExponent : Int) then some 0
  else if (widestExponent : Int) < s.exponent then none
  else if 0 ≤ s.exponent then wholeDouble? (s.significand * Nat.pow 10 s.exponent.toNat) 1
  else wholeDouble? s.significand (Nat.pow 10 (-s.exponent).toNat)

/-- The largest double that is a whole number of 64 bits. -/
def largestWholeDouble : Nat := bitBound 63 - 1024

/-! ## Cells -/

/-- The cell that a column for whole numbers makes of a text. -/
def ofText (s : String) : NumberCell :=
  match Text.signed64? (String.ofList (strip s.toList)) with
  | some value => int value
  | none =>
    match Decimal.read? s.toList with
    | none => text s
    | some decimal =>
      match decimal.scaled.whole?.filter (· ≤ largestWholeDouble) with
      | some n => int (if decimal.isNegative then -(n : Int) else n)
      | none => fraction s

end NumberCell

end Autopilot
