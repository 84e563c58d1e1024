/-
  The precondition reader, by offset.

  Keywords, keys and amounts are looked for in slices of the text, and passed by adding their bytes
  to the offset. What stands behind a keyword is a slice that starts inside the text that is left.
  Each function here follows the one of the same name over cursors (`follows_nested`), so no slice
  is off a boundary and the reader is `Predicate.read` (`follows_read`).
-/
import Autopilot.Predicate.Reader
import Autopilot.Proofs.Text.OffsetReader
import Mathlib.Data.List.Infix

namespace Autopilot.Predicate

open Text (Cursor OffsetReader Follows isNameChar)
open Text.OffsetReader

namespace ByOffset

/-! ## Tokens -/

/-- Moves past the given character, after blanks. -/
def expect (expected : Char) : OffsetReader Unit := do
  skipBlanks
  match ← peek with
  | some found =>
    if found = expected then advance
    else refuseHere (.charExpected expected (some found))
  | none => refuseHere (.charExpected expected none)

/-- Whether the next token is the given keyword. -/
def atKeyword (keyword : String) : OffsetReader Bool := do
  if keyword.toList.isPrefixOf (← remaining) then
    let here ← position
    let behind ← slice (here + keyword.utf8ByteSize) (← size)
    pure (!behind.head?.any isNameChar)
  else pure false

/-- Moves past a keyword that is known to stand next. -/
def passKeyword (keyword : String) : OffsetReader Unit :=
  moveBy keyword.utf8ByteSize

/-- What stands next, as errors show it. -/
def nextWord : OffsetReader String := do
  let word := (← remaining).takeWhile isNameChar
  if word.isEmpty then
    match ← peek with
    | some found => pure (String.singleton found)
    | none => pure "end of input"
  else pure (String.ofList word)

/-! ## Operands -/

/-- Reads the key behind an at sign. -/
def key : OffsetReader Operand := do
  let name := (← remaining).takeWhile isNameChar
  if name.isEmpty then refuseHere .keyExpected
  else
    moveBy (String.ofList name).utf8ByteSize
    pure (.key (String.ofList name))

/-- Reads an amount. An error is where the amount starts. -/
def amount : OffsetReader Operand := do
  let start ← position
  let literal := String.ofList ((← remaining).takeWhile Char.isAlphanum)
  moveBy literal.utf8ByteSize
  match Text.amount? literal with
  | some value => pure (.literal value)
  | none => refuse start (.badInteger literal)

/-- Reads one side of a comparison, after blanks. -/
def operand : OffsetReader Operand := do
  skipBlanks
  if (← peek) = some '@' then
    advance
    key
  else if (← peek).any Char.isDigit then amount
  else
    let found ← nextWord
    refuseHere (.operandExpected found)

/-- Reads two operands in brackets. -/
def operands : OffsetReader (Operand × Operand) := do
  expect '('
  let left ← operand
  expect ','
  let right ← operand
  expect ')'
  pure (left, right)

/-! ## Predicates -/

/-- Reads at most `bound` predicates up to the closing bracket. -/
def items (one : OffsetReader Predicate) : (bound : Nat) → OffsetReader (List Predicate)
  | 0 => refuseHere (.charExpected ')' none)
  | bound + 1 => do
    let item ← one
    skipBlanks
    if (← peek) = some ')' then
      advance
      pure [item]
    else
      expect ','
      let others ← items one bound
      pure (item :: others)

/-- Reads two predicates or more in brackets. -/
def parts (bound : Nat) (one : OffsetReader Predicate) (keyword : String) :
    OffsetReader (List Predicate) := do
  expect '('
  let found ← items one bound
  if found.length < 2 then refuseHere (.tooFew keyword)
  else pure found

/-- Reads the predicate whose keyword stands next. -/
def term (bound : Nat) (one : OffsetReader Predicate) : OffsetReader Predicate := do
  if ← atKeyword "ALWAYS" then
    passKeyword "ALWAYS"
    pure .always
  else if ← atKeyword "AT_LEAST" then
    passKeyword "AT_LEAST"
    let (left, right) ← operands
    pure (.atLeast left right)
  else if ← atKeyword "AT_MOST" then
    passKeyword "AT_MOST"
    let (left, right) ← operands
    pure (.atMost left right)
  else if ← atKeyword "AND" then
    passKeyword "AND"
    pure (.all (← parts bound one "AND"))
  else if ← atKeyword "OR" then
    passKeyword "OR"
    pure (.any (← parts bound one "OR"))
  else if ← atKeyword "NOT" then
    passKeyword "NOT"
    expect '('
    let part ← one
    expect ')'
    pure (.not part)
  else
    let found ← nextWord
    refuseHere (.predicateExpected found)

/-- Reads one predicate, after blanks, that nests at most as deep as the given number. -/
def nested (bound : Nat) : (levels : Nat) → OffsetReader Predicate
  | 0 => do
    skipBlanks
    refuseHere (.tooDeep maxNesting)
  | levels + 1 => do
    skipBlanks
    term bound (nested bound levels)

/-- Reads a text that is one predicate. -/
def read : OffsetReader Predicate := do
  let p ← nested ((← whole).length + 1) maxNesting
  skipBlanks
  if ← atEnd then pure p
  else
    let rest ← remaining
    refuseHere (.leftOver (String.ofList rest))

end ByOffset

/-! ## Following -/

section Following

open Text

variable {text : String} {c : Cursor}

/-! ### Tokens -/

theorem follows_expect (expected : Char) :
    Follows text Prod.snd (ByOffset.expect expected) c (expect expected c) := by
  refine follows_skipBlanks.move ?_
  unfold expect
  dsimp only
  split
  · next found others hrest =>
    refine (follows_peek_cons hrest).move ?_
    exact follows_ite (follows_advance hrest).anyView (follows_refuseHere _)
  · next hrest => exact (follows_peek_nil hrest).move (follows_refuseHere _)

theorem atKeyword_eq_true {keyword : String} (h : atKeyword keyword c = true) :
    ∃ behind, keyword.toList ++ behind = c.rest := by
  unfold atKeyword at h
  split at h
  · next heq => exact ⟨_, List.isPrefixOf?_eq_some_iff_append_eq.mp heq⟩
  · next heq => exact ⟨_, List.isPrefixOf?_eq_some_iff_append_eq.mp heq⟩
  · cases h

theorem take_keyword {keyword : String} {behind : List Char}
    (hrest : keyword.toList ++ behind = c.rest) : c.rest.take keyword.length = keyword.toList := by
  rw [← hrest, ← String.length_toList, List.take_left]

/-- The slice behind a keyword starts where the bytes of the keyword end. -/
theorem follows_atKeyword (keyword : String) :
    Follows text id (ByOffset.atKeyword keyword) c (.ok (atKeyword keyword c, c)) := by
  refine follows_of_reaches fun hreaches => follows_remaining.move ?_
  unfold atKeyword
  cases hprefix : List.isPrefixOf? keyword.toList c.rest with
  | none =>
    have hnot : ¬ keyword.toList.isPrefixOf c.rest = true := by
      rw [List.isPrefixOf_iff_prefix]
      rintro ⟨behind, hrest⟩
      rw [List.isPrefixOf?_eq_some_iff_append_eq.mpr hrest] at hprefix
      cases hprefix
    rw [if_neg hnot]
    exact follows_pure false
  | some behind =>
    have hrest : keyword.toList ++ behind = c.rest :=
      List.isPrefixOf?_eq_some_iff_append_eq.mp hprefix
    have hstands : keyword.toList.isPrefixOf c.rest = true :=
      List.isPrefixOf_iff_prefix.mpr ⟨behind, hrest⟩
    have hbehind := slice?_rest (hreaches.skip keyword.length)
    have hleft : (c.skip keyword.length).rest = behind := by
      rw [Cursor.skip, ← hrest, ← String.length_toList, List.drop_left]
    have hstart : (c.skip keyword.length).pos = c.pos + keyword.utf8ByteSize := by
      rw [Cursor.skip, take_keyword hrest, utf8ByteSize_eq]
    rw [hleft, hstart] at hbehind
    rw [if_pos hstands]
    refine follows_position.move (follows_size.move ((follows_slice hbehind).move ?_))
    cases behind with
    | nil => exact follows_pure true
    | cons next others => exact follows_pure (!isNameChar next)

/-- Where a keyword stands, its bytes are passed. -/
theorem follows_keyword {α : Type} (keyword : String) {found absent : OffsetReader α}
    {x y : Except ReadError (α × Cursor)} (h : Follows text id found (passKeyword keyword c) x)
    (h' : Follows text id absent c y) :
    Follows text id
      (do
        if ← ByOffset.atKeyword keyword then
          ByOffset.passKeyword keyword
          found
        else absent)
      c (if atKeyword keyword c then x else y) := by
  refine (follows_atKeyword keyword).move ?_
  split
  · next hstands =>
    obtain ⟨behind, hrest⟩ := atKeyword_eq_true hstands
    have hmove := follows_moveBy text c keyword.length
    rw [take_keyword hrest, ← utf8ByteSize_eq] at hmove
    exact hmove.move h
  · exact h'

theorem follows_nextWord : Follows text id ByOffset.nextWord c (.ok (nextWord c, c)) := by
  refine follows_remaining.move ?_
  unfold nextWord
  cases hword : c.rest.takeWhile isNameChar with
  | nil =>
    refine (follows_peek text c).move ?_
    cases c.rest with
    | nil => exact follows_pure _
    | cons found others => exact follows_pure _
  | cons first others => exact follows_pure _

/-! ### Operands -/

theorem follows_key : Follows text id ByOffset.key c (readKey c) := by
  refine follows_remaining.move ?_
  unfold readKey
  split
  · next heq =>
    have hnone : c.rest.takeWhile isNameChar = [] := congrArg Prod.fst heq
    dsimp only
    rw [hnone]
    exact follows_refuseHere _
  · next name next hne heq =>
    have hname : c.rest.takeWhile isNameChar = name := congrArg Prod.fst heq
    have hsome : ¬ name.isEmpty = true := fun hempty => hne (List.isEmpty_iff.mp hempty)
    have hmove := follows_moveBy_run text c isNameChar
    rw [heq, ← utf8ByteSize_ofList] at hmove
    dsimp only
    rw [hname, if_neg hsome]
    exact hmove.move (follows_pure _)

/-- The amount is judged when it is passed, and blamed where it starts. -/
theorem follows_amount : Follows text id ByOffset.amount c (readAmount c) := by
  refine follows_of_reaches fun hreaches => follows_position.move (follows_remaining.move ?_)
  have hmove := follows_moveBy_run text c Char.isAlphanum
  rw [← utf8ByteSize_ofList] at hmove
  refine hmove.move ?_
  unfold readAmount
  dsimp only [Cursor.takeWhile]
  cases amount? (String.ofList (c.rest.takeWhile Char.isAlphanum)) with
  | some value => exact follows_pure _
  | none => exact follows_refuse (isBoundary_of_reaches hreaches) _

theorem follows_operand : Follows text id ByOffset.operand c (readOperand c) := by
  refine follows_skipBlanks.move ?_
  unfold readOperand
  dsimp only
  split
  · next others hrest =>
    exact (follows_peek_cons hrest).move ((follows_advance hrest).move follows_key)
  · next found others hat hrest =>
    have hother : ¬ some found = some '@' := fun heq => hat (Option.some.inj heq)
    refine (follows_peek_cons hrest).move ?_
    rw [if_neg hother]
    refine (follows_peek_cons hrest).move ?_
    exact follows_ite follows_amount (follows_nextWord.move (follows_refuseHere _))
  · next hrest =>
    refine (follows_peek_nil hrest).move ((follows_peek_nil hrest).move ?_)
    exact follows_nextWord.move (follows_refuseHere _)

theorem follows_operands : Follows text id ByOffset.operands c (readOperands c) :=
  (follows_expect '(').bind fun _ _ => follows_operand.bind fun left _ =>
    (follows_expect ',').bind fun _ _ => follows_operand.bind fun right _ =>
      (follows_expect ')').bind fun _ _ => follows_pure (left, right)

/-! ### Predicates -/

section Parts

variable {one : OffsetReader Predicate} {readOne : Cursor → Except ReadError (Predicate × Cursor)}

theorem follows_items (hone : ∀ c, Follows text id one c (readOne c)) (bound : Nat) :
    Follows text id (ByOffset.items one bound) c (readItems readOne bound c) := by
  induction bound generalizing c with
  | zero => exact follows_refuseHere _
  | succ bound ih =>
    refine (hone c).bind fun item afterItem => follows_skipBlanks.move ?_
    dsimp only [id]
    split
    · next others hrest =>
      exact (follows_peek_cons hrest).move ((follows_advance hrest).move (follows_pure [item]))
    · next hother =>
      refine (follows_peek text _).move ?_
      rw [if_neg (head?_ne_of_forall hother)]
      exact (follows_expect ',').bind fun _ _ =>
        ih.bind fun others _ => follows_pure (item :: others)

theorem follows_parts (hone : ∀ c, Follows text id one c (readOne c)) (bound : Nat)
    (keyword : String) :
    Follows text id (ByOffset.parts bound one keyword) c (readParts bound readOne keyword c) := by
  refine (follows_expect '(').bind fun _ _ => (follows_items hone bound).bind fun found _ => ?_
  exact follows_ite (follows_refuseHere _) (follows_pure found)

/-- One keyword after the other is tried, in both readers. -/
theorem follows_term (hone : ∀ c, Follows text id one c (readOne c)) (bound : Nat) :
    Follows text id (ByOffset.term bound one) c (readTerm bound readOne c) := by
  refine follows_keyword "ALWAYS" (follows_pure Predicate.always) ?_
  refine follows_keyword "AT_LEAST"
    (follows_operands.bind fun sides _ => follows_pure (Predicate.atLeast sides.1 sides.2)) ?_
  refine follows_keyword "AT_MOST"
    (follows_operands.bind fun sides _ => follows_pure (Predicate.atMost sides.1 sides.2)) ?_
  refine follows_keyword "AND"
    ((follows_parts hone bound "AND").bind fun found _ => follows_pure (Predicate.all found)) ?_
  refine follows_keyword "OR"
    ((follows_parts hone bound "OR").bind fun found _ => follows_pure (Predicate.any found)) ?_
  refine follows_keyword "NOT" ?_ (follows_nextWord.move (follows_refuseHere _))
  exact (follows_expect '(').bind fun _ inside => (hone inside).bind fun part _ =>
    (follows_expect ')').bind fun _ _ => follows_pure (Predicate.not part)

end Parts

theorem follows_nested (bound levels : Nat) :
    Follows text id (ByOffset.nested bound levels) c (readNested bound levels c) := by
  induction levels generalizing c with
  | zero => exact follows_skipBlanks.move (follows_refuseHere _)
  | succ levels ih => exact follows_skipBlanks.move (follows_term (fun c => ih) bound)

/-- On the whole text. -/
theorem follows_read (text : String) :
    Follows text Prod.fst ByOffset.read (Cursor.start text) (read text) := by
  refine follows_whole.move ?_
  rw [← String.length_toList]
  refine (follows_nested _ _).bind fun p next => follows_skipBlanks.move (follows_atEnd.move ?_)
  exact follows_ite (follows_pure p) (follows_remaining.move (follows_refuseHere _))

end Following

end Autopilot.Predicate
