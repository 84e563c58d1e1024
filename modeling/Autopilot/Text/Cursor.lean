/-
  A place in a text that is read from left to right.

  A cursor holds the characters not yet read and the number of bytes before them.
  Every way to move it counts the bytes of the characters passed, so `pos` is always
  where a character of the text starts, or its end; `Reaches` states that.
-/
import Autopilot.Text.Alphanumeric
import Autopilot.Text.Blank

namespace Autopilot.Text

/-- The bytes that a list of characters takes in UTF-8. -/
def byteLength (cs : List Char) : Nat :=
  cs.foldr (fun c n => c.utf8Size + n) 0

/-- A place in a text. -/
structure Cursor where
  rest : List Char
  pos : Nat
  deriving DecidableEq

namespace Cursor

/-- The start of a text. -/
def start (s : String) : Cursor :=
  ⟨s.toList, 0⟩

/-- Whether everything is read. -/
def atEnd (c : Cursor) : Bool :=
  c.rest.isEmpty

/-- Moves past the first `n` characters. -/
def skip (c : Cursor) (n : Nat) : Cursor :=
  ⟨c.rest.drop n, c.pos + byteLength (c.rest.take n)⟩

/-- Splits off the longest run of characters with a property. -/
def takeWhile (c : Cursor) (p : Char → Bool) : List Char × Cursor :=
  let run := c.rest.takeWhile p
  (run, ⟨c.rest.dropWhile p, c.pos + byteLength run⟩)

/-- Moves past blanks. -/
def skipBlanks (c : Cursor) : Cursor :=
  (c.takeWhile isBlank).2

/-- The cursor stands behind some characters of the text, at their length in bytes. -/
def Reaches (text : List Char) (c : Cursor) : Prop :=
  ∃ front, text = front ++ c.rest ∧ c.pos = byteLength front

theorem byteLength_append (as bs : List Char) :
    byteLength (as ++ bs) = byteLength as + byteLength bs := by
  induction as with
  | nil => simp [byteLength]
  | cons c cs ih =>
    simp only [byteLength, List.cons_append, List.foldr_cons] at ih ⊢
    rw [ih, Nat.add_assoc]

theorem reaches_start (s : String) : Reaches s.toList (start s) :=
  ⟨[], rfl, rfl⟩

theorem Reaches.skip {text : List Char} {c : Cursor} (h : Reaches text c) (n : Nat) :
    Reaches text (c.skip n) := by
  obtain ⟨front, rfl, hpos⟩ := h
  refine ⟨front ++ c.rest.take n, ?_, ?_⟩
  · simp [Cursor.skip]
  · simp [Cursor.skip, hpos, byteLength_append]

end Cursor

end Autopilot.Text
