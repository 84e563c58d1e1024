/-
  Keccak-256: the sponge over Keccak-f[1600] with a rate of 136 bytes, the padding
  byte 0x01 (the standardised SHA-3 pads with 0x06) and a digest of 32 bytes.

  A state is 25 lanes of 64 bits, lane `(x, y)` at place `5 * y + x`. A round is the
  composition of theta, rho with pi, chi and iota. Nothing is claimed here about the
  strength of the hash.
-/
import Autopilot.Bytes

namespace Autopilot.Keccak

/-- The 25 lanes of a state. -/
abbrev Lanes := Vector UInt64 25

/-- The lane in column `x` and row `y`, both counted modulo five. -/
def lane (s : Lanes) (x y : Nat) : UInt64 :=
  s.toArray.getD (5 * (y % 5) + x % 5) 0

/-- Rotation towards the high end. -/
def rotl (w : UInt64) (n : UInt64) : UInt64 :=
  (w <<< n) ||| (w >>> (64 - n))

/-! ## The layers of a round -/

/-- The parity of a column. -/
def parity (s : Lanes) (x : Nat) : UInt64 :=
  lane s x 0 ^^^ lane s x 1 ^^^ lane s x 2 ^^^ lane s x 3 ^^^ lane s x 4

/-- Adds to each lane the parities of two neighbouring columns. -/
def theta (s : Lanes) : Lanes :=
  let parities := #[parity s 0, parity s 1, parity s 2, parity s 3, parity s 4]
  Vector.ofFn fun i =>
    lane s i.val (i.val / 5) ^^^ parities.getD ((i.val + 4) % 5) 0
      ^^^ rotl (parities.getD ((i.val + 1) % 5) 0) 1

/-- Rotation amounts of the lanes, by place. -/
def rhoOffsets : Array UInt64 := #[
  0, 1, 62, 28, 27,
  36, 44, 6, 55, 20,
  3, 10, 43, 25, 39,
  41, 45, 15, 21, 8,
  18, 2, 61, 56, 14]

/-- Rotates each lane by its own amount and moves it to its new place. -/
def rhoPi (s : Lanes) : Lanes :=
  Vector.ofFn fun i =>
    let x := (i.val % 5 + 3 * (i.val / 5)) % 5
    let y := i.val % 5
    rotl (lane s x y) (rhoOffsets.getD (5 * y + x) 0)

/-- Combines each lane with the two to its right. -/
def chi (s : Lanes) : Lanes :=
  Vector.ofFn fun i =>
    let y := i.val / 5
    lane s i.val y ^^^ (~~~ (lane s (i.val + 1) y) &&& lane s (i.val + 2) y)

/-- Adds the round's constant to the first lane. -/
def iota (c : UInt64) (s : Lanes) : Lanes :=
  s.set 0 (lane s 0 0 ^^^ c)

/-- The constants of the 24 rounds. -/
def roundConstants : List UInt64 := [
  0x0000000000000001, 0x0000000000008082, 0x800000000000808A, 0x8000000080008000,
  0x000000000000808B, 0x0000000080000001, 0x8000000080008081, 0x8000000000008009,
  0x000000000000008A, 0x0000000000000088, 0x0000000080008009, 0x000000008000000A,
  0x000000008000808B, 0x800000000000008B, 0x8000000000008089, 0x8000000000008003,
  0x8000000000008002, 0x8000000000000080, 0x000000000000800A, 0x800000008000000A,
  0x8000000080008081, 0x8000000000008080, 0x0000000080000001, 0x8000000080008008]

/-- All 24 rounds. -/
def permute (s : Lanes) : Lanes :=
  roundConstants.foldl (fun s c => iota c (chi (rhoPi (theta s)))) s

/-! ## The sponge -/

/-- Bytes that the state takes in between two permutations. -/
def rate : Nat := 136

/-- The bytes that fill a message of the given length up to whole blocks. -/
def padding (length : Nat) : List UInt8 :=
  match rate - length % rate with
  | 0 => []
  | 1 => [0x81]
  | n + 2 => 0x01 :: List.replicate n 0 ++ [0x80]

/-- The lane that eight bytes spell, the least significant byte first. -/
def laneOfBytes (bytes : List UInt8) : UInt64 :=
  bytes.foldr (fun b w => (w <<< 8) ||| b.toUInt64) 0

/-- The eight bytes of a lane, the least significant first. -/
def bytesOfLane (w : UInt64) : List UInt8 :=
  (List.range 8).map fun i => (w >>> (8 * UInt64.ofNat i)).toUInt8

/-- Adds a block of the message to the state. -/
def addBlock (s : Lanes) (block : Array UInt8) : Lanes :=
  Vector.ofFn fun i =>
    if i.val < 17 then
      lane s i.val (i.val / 5) ^^^ laneOfBytes (block.extract (8 * i.val) (8 * i.val + 8)).toList
    else lane s i.val (i.val / 5)

/-- Takes in the given number of blocks from the front of a padded message. -/
def absorb : (blocks : Nat) → List UInt8 → Lanes → Lanes
  | 0, _, s => s
  | n + 1, bytes, s =>
    absorb n (bytes.drop rate) (permute (addBlock s (bytes.take rate).toArray))

/-- The 32 bytes of the digest. -/
def squeeze (s : Lanes) : List UInt8 :=
  (List.range 4).flatMap fun i => bytesOfLane (lane s i 0)

/-- The digest of a byte string, as a number of 256 bits. -/
def digest (bytes : List UInt8) : BitVec 256 :=
  let length := bytes.length
  let final := absorb (length / rate + 1) (bytes ++ padding length) (Vector.replicate 25 0)
  BitVec.ofNat 256 (ofBigEndian (squeeze final))

end Autopilot.Keccak
