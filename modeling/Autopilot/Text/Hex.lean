/-
  Bytes as hexadecimal text.

  Printing writes two lower-case digits a byte. Reading wants a fixed number of bytes
  and takes either case, with or without a leading `0x`; what is wrong with a text is
  a value of `HexDefect`. The faults are looked for in this order: an odd length of
  the whole text, a wrong length behind the marker, a character that is no digit.
-/
import Autopilot.Bytes
import Autopilot.Text.Numeral

namespace Autopilot.Text

/-! ## Printing -/

/-- The lower-case digit of a value below sixteen. -/
def hexDigit (n : Nat) : Char :=
  Nat.digitChar n

/-- The two digits of a byte, the high half first. -/
def hexPair (b : UInt8) : List Char :=
  [hexDigit (b.toNat / 16), hexDigit (b.toNat % 16)]

/-- The digits of a byte string. -/
def hexChars (bytes : List UInt8) : List Char :=
  bytes.flatMap hexPair

/-- A byte string as digits without a marker. -/
def hex (bytes : List UInt8) : String :=
  String.ofList (hexChars bytes)

/-- A byte string as digits behind the marker `0x`. -/
def hex0x (bytes : List UInt8) : String :=
  "0x" ++ hex bytes

@[simp] theorem length_hexChars (bytes : List UInt8) :
    (hexChars bytes).length = 2 * bytes.length := by
  induction bytes with
  | nil => rfl
  | cons b bs ih =>
    have : hexChars (b :: bs) = hexPair b ++ hexChars bs := rfl
    rw [this, List.length_append, ih, List.length_cons]
    simp only [hexPair, List.length_cons, List.length_nil]
    omega

/-! ## Reading -/

/-- What is wrong with a text that should spell a fixed number of bytes. -/
inductive HexDefect where
  /-- The whole text has an odd number of bytes. -/
  | oddLength
  /-- Behind the marker there are not two digits for each byte. -/
  | wrongLength
  /-- The byte at this place behind the marker is no digit. -/
  | badDigit (byte : UInt8) (position : Nat)
  deriving DecidableEq

/-- How a byte is shown between quotes: as the character of its value, with the characters
    that do not print, the quote and the backslash escaped. -/
def quotedByte (b : UInt8) : String :=
  let n := b.toNat
  if n == 0 then "'\\0'"
  else if n == 9 then "'\\t'"
  else if n == 10 then "'\\n'"
  else if n == 13 then "'\\r'"
  else if n == 39 then "'\\''"
  else if n == 92 then "'\\\\'"
  else if n < 32 || (127 ≤ n && n ≤ 160) || n == 173 then
    "'\\u\x7b" ++ String.ofList (Nat.toDigits 16 n) ++ "\x7d'"
  else "'" ++ String.singleton (Char.ofNat n) ++ "'"

/-- The defect in words. -/
def HexDefect.message : HexDefect → String
  | .oddLength => "odd number of digits"
  | .wrongLength => "invalid string length"
  | .badDigit byte position =>
    "invalid character " ++ quotedByte byte ++ " at position " ++ toString position

/-- The value of a hexadecimal digit, given as a byte of text. -/
def hexValue? (b : UInt8) : Option Nat :=
  digitBelow? 16 (Char.ofNat b.toNat)

/-- The text behind a leading marker, or the whole text. -/
def dropHexMarker : List UInt8 → List UInt8
  | 48 :: 120 :: rest => rest
  | 48 :: 88 :: rest => rest
  | bytes => bytes

/-- Reads digits two by two; `position` is the place of the first of them. -/
def readHexPairs (position : Nat) : List UInt8 → Except HexDefect (List UInt8)
  | [] => .ok []
  | [_] => .error .oddLength
  | high :: low :: rest =>
    match hexValue? high, hexValue? low with
    | none, _ => .error (.badDigit high position)
    | some _, none => .error (.badDigit low (position + 1))
    | some h, some l => (readHexPairs (position + 2) rest).map (UInt8.ofNat (16 * h + l) :: ·)

/-- Reads the text of exactly `n` bytes. -/
def readHex (n : Nat) (s : String) : Except HexDefect (List UInt8) :=
  let bytes := utf8 s
  if bytes.length % 2 == 1 then .error .oddLength
  else
    let digits := dropHexMarker bytes
    if digits.length != 2 * n then .error .wrongLength else readHexPairs 0 digits

end Autopilot.Text
