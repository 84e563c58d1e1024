/-
  Numbers as they are written in files and literals.

  Two grammars live here. Counts and section numbers are decimal digits behind an
  optional plus sign (a minus sign is read for signed numbers only), within a bound.
  Amounts of 256 bits are digits in one of four radices, chosen by a leading marker,
  with underscores allowed anywhere and no digit at all standing for zero.
-/
import Autopilot.Bytes

namespace Autopilot.Text

/-! ## Digits -/

/-- The value of a digit or letter in the alphabet of radix 36, in either case. -/
def digit? (c : Char) : Option Nat :=
  if '0' ≤ c && c ≤ '9' then some (c.toNat - 48)
  else if 'a' ≤ c && c ≤ 'z' then some (c.toNat - 87)
  else if 'A' ≤ c && c ≤ 'Z' then some (c.toNat - 55)
  else none

/-- The value of a digit of the given radix. -/
def digitBelow? (radix : Nat) (c : Char) : Option Nat :=
  (digit? c).filter (· < radix)

/-- The number that a run of digits denotes, the first digit weighing most, if it lies below the
    bound; no digits are zero. A number can only grow by further digits, so one that has reached
    the bound is given up at once. -/
def digits? (radix bound : Nat) (cs : List Char) : Option Nat :=
  cs.foldlM (fun n c => ((digitBelow? radix c).map (n * radix + ·)).filter (· < bound)) 0

/-! ## Bounded integers -/

/-- One decimal digit or more, for a number below the bound. -/
def decimal? (bound : Nat) : List Char → Option Nat
  | [] => none
  | c :: cs => digits? 10 bound (c :: cs)

/-- A decimal number below the bound, behind an optional plus sign. -/
def unsigned? (bound : Nat) (s : String) : Option Nat :=
  match s.toList with
  | '+' :: cs => decimal? bound cs
  | cs => decimal? bound cs

/-- A decimal number of 64 bits with an optional sign. -/
def signed64? (s : String) : Option Int :=
  match s.toList with
  | '-' :: cs => (decimal? (bitBound 63 + 1) cs).map fun n => -(n : Int)
  | '+' :: cs => (decimal? (bitBound 63) cs).map fun n => (n : Int)
  | cs => (decimal? (bitBound 63) cs).map fun n => (n : Int)

/-! ## Amounts of 256 bits -/

/-- The radix that the marker at the front chooses, and the characters after the marker. -/
def radixAndDigits : List Char → Nat × List Char
  | '0' :: 'x' :: cs => (16, cs)
  | '0' :: 'X' :: cs => (16, cs)
  | '0' :: 'o' :: cs => (8, cs)
  | '0' :: 'O' :: cs => (8, cs)
  | '0' :: 'b' :: cs => (2, cs)
  | '0' :: 'B' :: cs => (2, cs)
  | cs => (10, cs)

/-- The amount that a literal denotes, if it has digits of its radix only and fits 256 bits. -/
def amount? (s : String) : Option (BitVec 256) :=
  let (radix, digits) := radixAndDigits s.toList
  (digits? radix (bitBound 256) (digits.filter (· != '_'))).map (BitVec.ofNat 256)

end Autopilot.Text
