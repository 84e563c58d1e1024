/-
  The reader of parameter lists, by offset.

  Names, positions and literals are passed one character at a time, and then cut out of the text
  between the offset where they start and the one behind them. Each function here follows the one
  over cursors that reads the same, so no slice is off a boundary and the reader is
  `Binding.readList` (`follows_list`).
-/
import Autopilot.Proofs.Binding.Reading
import Autopilot.Proofs.Text.OffsetReader

namespace Autopilot.Binding

open Text (OffsetReader Follows Cursor isNameChar)
open Text.OffsetReader

namespace ByOffset

/-! ## Parts of a binding -/

/-- Reads the name behind a sigil. -/
def name (sigil : Char) : OffsetReader String := do
  let start ← position
  passWhile isNameChar
  let stop ← position
  if start = stop then refuse start (.nameExpected sigil)
  else
    let found ← slice start stop
    pure (String.ofList found)

/-- Reads the position of an action. -/
def index : OffsetReader Nat := do
  let start ← position
  passWhile Char.isDigit
  let digits ← slice start (← position)
  if digits.isEmpty then refuse start .indexExpected
  else
    match Text.unsigned? (bitBound 64) (String.ofList digits) with
    | some found => pure found
    | none => refuse start (.indexTooLarge (String.ofList digits))

/-- Reads a literal up to the next comma. -/
def literal (type : SlotType) : OffsetReader Binding := do
  let start ← position
  passWhile (· != ',')
  let text := Text.trimChars (← slice start (← position))
  if text.isEmpty then refuse start .bindingExpected
  else
    match AbiValue.read type (String.ofList text) with
    | .ok value => pure (.const value)
    | .error cause => refuse start (.literal cause)

/-- Reads one binding, after blanks. -/
def one (type : SlotType) : OffsetReader Binding := do
  skipBlanks
  match ← peek with
  | some '$' =>
    advance
    pure (.piped (← index))
  | some '&' =>
    advance
    pure (.subSlot (← name '&'))
  | some '%' =>
    advance
    pure (.placeholder (← name '%'))
  | _ => literal type

/-- Moves past the comma behind a binding, or to the end of the text. -/
def separator : OffsetReader Unit := do
  skipBlanks
  match ← peek with
  | none => pure ()
  | some ',' => advance
  | some found => refuseHere (.separatorExpected found)

/-! ## Lists -/

/-- Reads bindings for the parameters whose types are left, out of `total`. -/
def listFrom (total : Nat) : List SlotType → OffsetReader (List Binding)
  | [] => do
    skipBlanks
    refuseHere (.tooMany total)
  | type :: types => do
    skipBlanks
    let b ← one type
    separator
    if ← atEnd then
      if types.isEmpty then pure [b]
      else refuseHere (.wrongCount total (total - types.length))
    else
      let others ← listFrom total types
      pure (b :: others)

/-- Reads the bindings for parameters of the given types. -/
def list (types : List SlotType) : OffsetReader (List Binding) := do
  skipBlanks
  if ← atEnd then
    if types.isEmpty then pure []
    else refuseHere (.noneGiven types.length)
  else listFrom types.length types

end ByOffset

/-! ## Following -/

section Following

open Text

variable {text : String} {c : Cursor}

/-! ### Parts of a binding -/

/-- An offset that has not moved is one with nothing passed. -/
theorem pos_takeWhile_eq_iff (c : Cursor) (p : Char → Bool) :
    c.pos = (c.takeWhile p).2.pos ↔ (c.takeWhile p).1 = [] := by
  rw [← byteLength_eq_zero_iff]
  show c.pos = c.pos + byteLength (c.rest.takeWhile p) ↔ _
  constructor
  · intro heq
    exact Nat.left_eq_add.mp heq
  · intro hzero
    exact Nat.left_eq_add.mpr hzero

theorem follows_name (sigil : Char) :
    Follows text id (ByOffset.name sigil) c (readName sigil c) := by
  refine follows_of_reaches fun hreaches => follows_position.move ((follows_passWhile _).move ?_)
  have hstart := pos_takeWhile_eq_iff c isNameChar
  have hslice := follows_slice_run hreaches isNameChar (c.takeWhile isNameChar).2
  unfold readName
  split
  · next heq =>
    refine follows_position.move ?_
    rw [if_pos (hstart.mpr (congrArg Prod.fst heq))]
    exact follows_refuse (isBoundary_of_reaches hreaches) _
  · next found next hne heq =>
    refine follows_position.move ?_
    rw [if_neg fun hstay => hne (by rw [← hstart.mp hstay, heq])]
    rw [heq] at hslice ⊢
    exact hslice.move (follows_pure _)

theorem follows_index : Follows text id ByOffset.index c (readIndex c) := by
  refine follows_of_reaches fun hreaches => follows_position.move ((follows_passWhile _).move ?_)
  have hslice := follows_slice_run hreaches Char.isDigit (c.takeWhile Char.isDigit).2
  unfold readIndex
  split
  · next heq =>
    refine follows_position.move (hslice.move ?_)
    rw [heq]
    exact follows_refuse (isBoundary_of_reaches hreaches) _
  · next digits next hne heq =>
    have hsome : ¬ digits.isEmpty = true := fun hempty => hne (List.isEmpty_iff.mp hempty)
    refine follows_position.move (hslice.move ?_)
    rw [heq, if_neg hsome]
    cases unsigned? (bitBound 64) (String.ofList digits) with
    | some found => exact follows_pure found
    | none => exact follows_refuse (isBoundary_of_reaches hreaches) _

theorem follows_literal (type : SlotType) :
    Follows text id (ByOffset.literal type) c (readLiteral type c) := by
  refine follows_of_reaches fun hreaches => follows_position.move ((follows_passWhile _).move ?_)
  have hslice := follows_slice_run hreaches (· != ',') (c.takeWhile (· != ',')).2
  unfold readLiteral
  dsimp only
  split
  · next hnil =>
    refine follows_position.move (hslice.move ?_)
    rw [hnil]
    exact follows_refuse (isBoundary_of_reaches hreaches) _
  · next hne =>
    refine follows_position.move (hslice.move ?_)
    rw [if_neg fun hempty => hne (List.isEmpty_iff.mp hempty)]
    cases AbiValue.read type (String.ofList (trimChars (c.takeWhile (· != ',')).1)) with
    | ok value => exact follows_pure _
    | error cause => exact follows_refuse (isBoundary_of_reaches hreaches) _

/-- Blanks are skipped here once more, where none are left. -/
theorem follows_one (type : SlotType) :
    Follows text id (ByOffset.one type) c.skipBlanks (readOne type c.skipBlanks) := by
  have hskip : Follows text id skipBlanks c.skipBlanks (.ok ((), c.skipBlanks.skipBlanks)) :=
    follows_skipBlanks
  rw [skipBlanks_skipBlanks] at hskip
  refine hskip.move ?_
  generalize c.skipBlanks = c
  unfold readOne
  split
  · next others hrest =>
    refine (follows_peek_cons hrest).move ((follows_advance hrest).move ?_)
    exact follows_index.map fun _ _ => rfl
  · next others hrest =>
    refine (follows_peek_cons hrest).move ((follows_advance hrest).move ?_)
    exact (follows_name '&').map fun _ _ => rfl
  · next others hrest =>
    refine (follows_peek_cons hrest).move ((follows_advance hrest).move ?_)
    exact (follows_name '%').map fun _ _ => rfl
  · next hpiped hslot hplaceholder =>
    refine (follows_peek text c).move ?_
    split
    · next hhead => exact absurd hhead (head?_ne_of_forall hpiped)
    · next hhead => exact absurd hhead (head?_ne_of_forall hslot)
    · next hhead => exact absurd hhead (head?_ne_of_forall hplaceholder)
    · exact follows_literal type

theorem follows_separator : Follows text Prod.snd ByOffset.separator c (readSeparator c) := by
  refine follows_skipBlanks.move ?_
  unfold readSeparator
  dsimp only
  split
  · next hrest => exact (follows_peek_nil hrest).move (follows_pure ())
  · next others hrest =>
    exact (follows_peek_cons hrest).move (follows_advance hrest).anyView
  · next found others hne hrest =>
    refine (follows_peek_cons hrest).move ?_
    split
    · next hhead => cases hhead
    · next hhead => exact absurd (Option.some.inj hhead) hne
    · next found hhead =>
      cases hhead
      exact follows_refuseHere _

/-! ### Lists -/

/-- One parameter after the other, in both readers. -/
theorem follows_listFrom (total : Nat) (types : List SlotType) :
    Follows text Prod.fst (ByOffset.listFrom total types) c (readFrom total types c) := by
  induction types generalizing c with
  | nil => exact follows_skipBlanks.move (follows_refuseHere _)
  | cons type types ih =>
    refine follows_skipBlanks.move ((follows_one type).bind fun b _ => ?_)
    refine follows_separator.bind fun _ next => follows_atEnd.move ?_
    exact follows_ite (follows_ite (follows_pure [b]) (follows_refuseHere _))
      (ih.bind fun others _ => follows_pure (b :: others))

/-- On the whole text. -/
theorem follows_list (text : String) (types : List SlotType) :
    Follows text Prod.fst (ByOffset.list types) (Cursor.start text) (readList types text) := by
  refine follows_skipBlanks.move (follows_atEnd.move ?_)
  exact follows_ite (follows_ite (follows_pure []) (follows_refuseHere _))
    (follows_listFrom types.length types)

end Following

end Autopilot.Binding
