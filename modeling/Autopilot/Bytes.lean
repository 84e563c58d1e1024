/-
  Numbers as byte strings, the most significant byte first.

  `bigEndian n v` writes the number `v` in exactly `n` bytes and keeps the low bytes of
  a number that is too large; `ofBigEndian` reads any byte string.
-/

namespace Autopilot

/-- How many numbers can be written in `n` bits. -/
def bitBound (n : Nat) : Nat :=
  Nat.pow 2 n

/-- The low `n` bytes of a number, most significant first. -/
def bigEndian : (n : Nat) → (v : Nat) → List UInt8
  | 0, _ => []
  | n + 1, v => UInt8.ofNat (v >>> (8 * n)) :: bigEndian n v

/-- The number that a byte string denotes. -/
def ofBigEndian (bytes : List UInt8) : Nat :=
  bytes.foldl (fun n b => n * 256 + b.toNat) 0

@[simp] theorem length_bigEndian (n v : Nat) : (bigEndian n v).length = n := by
  induction n with
  | zero => rfl
  | succ n ih => simp [bigEndian, ih]

/-- The UTF-8 bytes of a text. -/
def utf8 (s : String) : List UInt8 :=
  s.toByteArray.data.toList

/-- The text that a byte string spells in UTF-8, if it spells one. -/
def ofUtf8? (bytes : List UInt8) : Option String :=
  String.fromUTF8? ⟨bytes.toArray⟩

/-- The first `n` items of a list and those after them, if it has as many. -/
def takeExactly? {α : Type} : (n : Nat) → List α → Option (List α × List α)
  | 0, xs => some ([], xs)
  | _ + 1, [] => none
  | n + 1, x :: xs => (takeExactly? n xs).map fun (front, rest) => (x :: front, rest)

theorem takeExactly?_append {α : Type} (front rest : List α) :
    takeExactly? front.length (front ++ rest) = some (front, rest) := by
  induction front with
  | nil => rfl
  | cons x xs ih => simp [takeExactly?, ih]

end Autopilot
