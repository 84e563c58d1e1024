/-
  Sets of characters that a standard gives as runs of code points.

  Such a set is written as the increasing list of the points where membership changes:
  the first member of a run, the first point after it, the first member of the next.
  It is held as a search tree over these points, so a large table is asked quickly.
-/

namespace Autopilot.Text

/-- A set of code points. -/
inductive CodePointSet where
  /-- Every point, or none. -/
  | constant (isMember : Bool)
  /-- One set below a point, another from it on. -/
  | split (point : Nat) (below above : CodePointSet)

namespace CodePointSet

/-- Whether a code point belongs. -/
def containsPoint : CodePointSet → Nat → Bool
  | constant isMember, _ => isMember
  | split point below above, n =>
    if n < point then below.containsPoint n else above.containsPoint n

/-- Whether a character belongs. -/
def contains (s : CodePointSet) (c : Char) : Bool :=
  s.containsPoint c.toNat

/-- The set whose membership changes at every one of the points and is known below them. -/
def ofPoints (isMember : Bool) (points : List Nat) : CodePointSet :=
  match h : points.drop (points.length / 2) with
  | [] => constant isMember
  | middle :: after =>
    let before := points.take (points.length / 2)
    let isMemberAbove := if before.length % 2 = 0 then !isMember else isMember
    split middle (ofPoints isMember before) (ofPoints isMemberAbove after)
termination_by points.length
decreasing_by
  · have := congrArg List.length h
    simp at this
    simp; omega
  · have := congrArg List.length h
    simp at this
    omega

/-- The set with these boundaries, the first of which is its least member. -/
def ofBoundaries (points : List Nat) : CodePointSet :=
  ofPoints false points

end CodePointSet

end Autopilot.Text
