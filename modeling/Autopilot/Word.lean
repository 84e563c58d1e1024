/-
  Words and addresses: the fixed-width data of the chain and their texts.

  A word is 256 bits and prints as `0x` and 64 lower-case digits. An address is 160
  bits and prints with a checksum in the case of its letters: a letter is a capital
  when the digit at its place in the hash of the lower-case text is eight or more.
  Reading takes any case and checks no checksum.
-/
import Autopilot.Keccak
import Autopilot.Text.Hex

namespace Autopilot

/-- A word of 256 bits: an amount, a hash or 32 raw bytes. -/
abbrev Word := BitVec 256

/-- An account address of 160 bits. -/
abbrev Address := BitVec 160

/-! ## Words -/

/-- The 32 bytes of a word. -/
def wordBytes (w : Word) : List UInt8 :=
  bigEndian 32 w.toNat

/-- The word that 32 bytes spell. -/
def wordOfBytes (bytes : List UInt8) : Word :=
  BitVec.ofNat 256 (ofBigEndian bytes)

/-- The text of a word as 32 bytes. -/
def wordText (w : Word) : String :=
  Text.hex0x (wordBytes w)

/-- Reads 32 bytes. -/
def readWord (s : String) : Except Text.HexDefect Word :=
  (Text.readHex 32 s).map wordOfBytes

/-! ## Addresses -/

/-- The 20 bytes of an address. -/
def addressBytes (a : Address) : List UInt8 :=
  bigEndian 20 a.toNat

/-- The address that 20 bytes spell. -/
def addressOfBytes (bytes : List UInt8) : Address :=
  BitVec.ofNat 160 (ofBigEndian bytes)

/-- Raises the letters whose hash digit is eight or more. -/
def checksumCase (digits hashDigits : List Char) : List Char :=
  List.zipWith (fun c h => if '8' ≤ h then c.toUpper else c) digits hashDigits

/-- The text of an address with the checksum in its letters. -/
def addressText (a : Address) : String :=
  let digits := Text.hexChars (addressBytes a)
  let hash := Keccak.digest (utf8 (String.ofList digits))
  "0x" ++ String.ofList (checksumCase digits (Text.hexChars (wordBytes hash)))

/-- Reads 20 bytes. -/
def readAddress (s : String) : Except Text.HexDefect Address :=
  (Text.readHex 20 s).map addressOfBytes

end Autopilot
