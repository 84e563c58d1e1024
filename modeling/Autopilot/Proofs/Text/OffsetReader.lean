/-
  Reading a text by offset.

  An `OffsetReader` keeps nothing of the text but the offset where it stands. What it sees of the
  text it gets by slicing, and a slice whose ends are not boundaries of characters stops it
  (`Halt.slice`). Moves are not checked: a number of bytes is added to the offset, whatever stands
  there. Every offset that is left is kept in a trail, for statements about all of them.

  `Follows` compares such a reader with one over a `Cursor`, which holds the characters that are
  left and so has nothing to slice. A reader that follows never stops at a slice, ends with the same
  result at the same offset or with the same error, and stands on boundaries only. The laws below
  carry this from the parts of a reader to the whole.
-/
import Autopilot.Proofs.Text.Boundaries
import Autopilot.ReadError

namespace Autopilot.Text

variable {α β γ δ : Type}

/-- Where a reader stands, and where it has stood before, the latest place first. -/
structure Head where
  pos : Nat
  trail : List Nat

/-- Every offset where the reader has stood. -/
def Head.places (h : Head) : List Nat :=
  h.pos :: h.trail

/-- Why a reader ends without a result. -/
inductive Halt where
  /-- The text has no slice between these offsets. -/
  | slice (start stop : Nat)
  | refused (e : ReadError)

/-- A reader that holds an offset into the text. -/
abbrev OffsetReader (α : Type) := ReaderT String (ExceptT Halt (StateM Head)) α

namespace OffsetReader

/-! ## Steps -/

/-- The offset where the reader stands. -/
def position : OffsetReader Nat := do
  pure (← get).pos

/-- The text. -/
def whole : OffsetReader String :=
  read

/-- The number of bytes of the text. -/
def size : OffsetReader Nat := do
  pure (← whole).utf8ByteSize

/-- Adds bytes to the offset. -/
def moveBy (bytes : Nat) : OffsetReader Unit :=
  modify fun h => ⟨h.pos + bytes, h.pos :: h.trail⟩

/-- The characters between two offsets. -/
def slice (start stop : Nat) : OffsetReader (List Char) := do
  match slice? (← whole) start stop with
  | some piece => pure piece.toList
  | none => throw (.slice start stop)

/-- Refuses the text. -/
def refuse (offset : Nat) (cause : ReadCause) : OffsetReader α :=
  throw (.refused ⟨cause, offset⟩)

/-- Refuses the text where the reader stands. -/
def refuseHere (cause : ReadCause) : OffsetReader α := do
  refuse (← position) cause

/-- The characters from the offset on. -/
def remaining : OffsetReader (List Char) := do
  slice (← position) (← size)

/-- The character that stands next. -/
def peek : OffsetReader (Option Char) := do
  pure (← remaining).head?

/-- Whether nothing is left. -/
def atEnd : OffsetReader Bool := do
  let here ← position
  pure (decide ((← size) ≤ here))

/-- Moves past one character. -/
def advance : OffsetReader Unit := do
  match ← peek with
  | some c => moveBy c.utf8Size
  | none => pure ()

/-- Moves on, one character at a time, while a property holds and no more often than told. -/
def advanceWhile (p : Char → Bool) : (bound : Nat) → OffsetReader Unit
  | 0 => pure ()
  | bound + 1 => do
    match ← peek with
    | some c =>
      if p c then
        advance
        advanceWhile p bound
      else pure ()
    | none => pure ()

/-- Moves past the characters with a property. Each pass takes up a character, so there are no more
    passes than characters. -/
def passWhile (p : Char → Bool) : OffsetReader Unit := do
  advanceWhile p (← whole).length

/-- Moves past blanks. -/
def skipBlanks : OffsetReader Unit :=
  passWhile isBlank

/-! ### What a step leads to -/

section Runs

variable {text : String} {h next : Head}

theorem bind_run (reader : OffsetReader α) (f : α → OffsetReader β) :
    (reader >>= f) text h =
      ExceptT.bindCont (m := StateM Head) (fun a => f a text) (reader text h).1 (reader text h).2 :=
  rfl

theorem bind_of_ok {reader : OffsetReader α} {a : α} (hreader : reader text h = (.ok a, next))
    (f : α → OffsetReader β) : (reader >>= f) text h = f a text next := by
  rw [bind_run, hreader]
  rfl

theorem bind_of_error {reader : OffsetReader α} {halt : Halt}
    (hreader : reader text h = (.error halt, next)) (f : α → OffsetReader β) :
    (reader >>= f) text h = (.error halt, next) := by
  rw [bind_run, hreader]
  rfl

/-- A slice off the boundaries stops the reader. -/
theorem slice_run (start stop : Nat) :
    slice start stop text h =
      ((slice? text start stop).elim (.error (.slice start stop)) (.ok ·.toList), h) := by
  have hrun : slice start stop text h =
      (match slice? text start stop with
        | some piece => pure piece.toList
        | none => throw (.slice start stop) : OffsetReader (List Char)) text h := rfl
  rw [hrun]
  cases slice? text start stop with
  | none => rfl
  | some piece => rfl

end Runs

end OffsetReader

/-! ## Slices in front of a cursor -/

section Cursors

variable {text : String} {c : Cursor}

theorem Cursor.takeWhile_eq_skip (c : Cursor) (p : Char → Bool) :
    c.takeWhile p = (c.rest.take (c.rest.findIdx fun a => !p a),
      c.skip (c.rest.findIdx fun a => !p a)) := by
  unfold Cursor.takeWhile Cursor.skip
  rw [List.takeWhile_eq_take_findIdx_not, List.dropWhile_eq_drop_findIdx_not]

/-- What a cursor passes is the slice between where it stood and where it stands. -/
theorem slice?_skip (h : c.Reaches text.toList) (n : Nat) :
    slice? text c.pos (c.skip n).pos = some (String.ofList (c.rest.take n)) := by
  obtain ⟨front, htext, hpos⟩ := h
  rw [slice?_eq_some_iff]
  refine ⟨String.ofList front, String.ofList (c.rest.drop n), ?_, ?_, ?_⟩
  · rw [← String.ofList_append, List.take_append_drop, ← String.ofList_append, ← htext,
      String.ofList_toList]
  · rw [utf8ByteSize_ofList, hpos]
  · rw [utf8ByteSize_ofList]
    rfl

theorem head?_ne_of_forall {cs : List Char} {first : Char}
    (h : ∀ others, cs = first :: others → False) : cs.head? ≠ some first := by
  intro hhead
  obtain ⟨others, hcs⟩ := List.head?_eq_some_iff.mp hhead
  exact h others hcs

theorem size_of_reaches (h : c.Reaches text.toList) :
    text.utf8ByteSize = c.pos + byteLength c.rest := by
  obtain ⟨front, htext, hpos⟩ := h
  rw [utf8ByteSize_eq, htext, Cursor.byteLength_append, hpos]

theorem length_le_of_reaches (h : c.Reaches text.toList) : c.rest.length ≤ text.length := by
  obtain ⟨front, htext, -⟩ := h
  rw [← String.length_toList, htext, List.length_append]
  exact Nat.le_add_left _ _

theorem slice?_rest (h : c.Reaches text.toList) :
    slice? text c.pos text.utf8ByteSize = some (String.ofList c.rest) := by
  have hall := slice?_skip h c.rest.length
  have hend : (c.skip c.rest.length).pos = text.utf8ByteSize := by
    rw [size_of_reaches h]
    simp [Cursor.skip]
  rwa [hend, List.take_length] at hall

end Cursors

/-! ## Following a cursor -/

/-- The reader stands where the cursor does, and has stood on boundaries only. -/
structure StandsAt (text : String) (c : Cursor) (h : Head) : Prop where
  reaches : c.Reaches text.toList
  pos_eq : h.pos = c.pos
  trail : ∀ offset ∈ h.trail, IsBoundary text offset

theorem StandsAt.places {text : String} {c : Cursor} {h : Head} (hat : StandsAt text c h) :
    ∀ offset ∈ h.places, IsBoundary text offset := by
  intro offset hoffset
  rcases List.mem_cons.mp hoffset with rfl | htrail
  · rw [hat.pos_eq]
    exact isBoundary_of_reaches hat.reaches
  · exact hat.trail offset htrail

/-- From the place of the cursor on, the reader ends as `outcome` tells: with an error, which is on
    a boundary, or with a result at the place of a cursor, of which `outcome` shows the `view`. It
    stands on boundaries all the way. -/
def Follows (text : String) (view : α × Cursor → γ) (reader : OffsetReader α) (c : Cursor)
    (outcome : Except ReadError γ) : Prop :=
  ∀ h, StandsAt text c h →
    (∃ e last h', outcome = .error e ∧ IsBoundary text e.position ∧ StandsAt text last h' ∧
      reader text h = (.error (.refused e), h')) ∨
    ∃ a next h', outcome = .ok (view (a, next)) ∧ StandsAt text next h' ∧
      reader text h = (.ok a, h')

section Laws

open OffsetReader

variable {text : String} {c : Cursor} {view : α × Cursor → γ}

theorem follows_pure (a : α) : Follows text view (pure a) c (.ok (view (a, c))) :=
  fun h hat => .inr ⟨a, c, h, rfl, hat, rfl⟩

theorem follows_refuse {offset : Nat} (hoffset : IsBoundary text offset) (cause : ReadCause) :
    Follows text view (refuse offset cause) c (.error ⟨cause, offset⟩) :=
  fun h hat => .inl ⟨⟨cause, offset⟩, c, h, rfl, hoffset, hat, rfl⟩

/-- The cursor may be taken to stand on a boundary of the text. -/
theorem follows_of_reaches {reader : OffsetReader α} {x : Except ReadError γ}
    (h : c.Reaches text.toList → Follows text view reader c x) : Follows text view reader c x :=
  fun head hat => h hat.reaches head hat

/-- What comes next goes by what the first outcome shows. -/
theorem Follows.bind {reader : OffsetReader α} {x : Except ReadError γ} {f : α → OffsetReader β}
    {view' : β × Cursor → δ} {g : γ → Except ReadError δ} (h : Follows text view reader c x)
    (hf : ∀ a next, Follows text view' (f a) next (g (view (a, next)))) :
    Follows text view' (reader >>= f) c (x >>= g) := by
  intro head hat
  rcases h head hat with ⟨e, last, head', rfl, hposition, hlast, hreader⟩ |
    ⟨a, next, head', rfl, hnext, hreader⟩
  · exact .inl ⟨e, last, head', rfl, hposition, hlast, bind_of_error hreader f⟩
  · rw [bind_of_ok hreader f]
    exact hf a next head' hnext

/-- A step that cannot fail. -/
theorem Follows.move {reader : OffsetReader α} {a : α} {next : Cursor} {f : α → OffsetReader β}
    {view' : β × Cursor → δ} {x : Except ReadError δ}
    (h : Follows text id reader c (.ok (a, next))) (hf : Follows text view' (f a) next x) :
    Follows text view' (reader >>= f) c x := by
  intro head hat
  rcases h head hat with ⟨e, last, head', herror, -⟩ | ⟨a', next', head', hok, hnext, hreader⟩
  · cases herror
  · cases hok
    rw [bind_of_ok hreader f]
    exact hf head' hnext

/-- Of a step that cannot fail, any view may be shown. -/
theorem Follows.anyView {reader : OffsetReader α} {a : α} {next : Cursor}
    (h : Follows text id reader c (.ok (a, next))) :
    Follows text view reader c (.ok (view (a, next))) := by
  intro head hat
  rcases h head hat with ⟨e, last, head', herror, -⟩ | ⟨a', next', head', hok, hnext, hreader⟩
  · cases herror
  · cases hok
    exact .inr ⟨a, next, head', rfl, hnext, hreader⟩

/-- A result that is passed on under a constructor. -/
theorem Follows.map {reader : OffsetReader α} {x : Except ReadError γ} {f : α → β}
    {view' : β × Cursor → δ} {g : γ → δ} (h : Follows text view reader c x)
    (hview : ∀ a next, view' (f a, next) = g (view (a, next))) :
    Follows text view' (do pure (f (← reader))) c (x.map g) := by
  have hbind : x.map g = x >>= fun shown => .ok (g shown) := by
    cases x with
    | ok shown => rfl
    | error e => rfl
  rw [hbind]
  refine h.bind fun a next => ?_
  rw [← hview]
  exact follows_pure (f a)

theorem follows_ite {p : Prop} [Decidable p] {reader reader' : OffsetReader α}
    {x x' : Except ReadError γ} (h : Follows text view reader c x)
    (h' : Follows text view reader' c x') :
    Follows text view (if p then reader else reader') c (if p then x else x') := by
  split
  · exact h
  · exact h'

/-! ### Steps -/

theorem follows_position : Follows text id position c (.ok (c.pos, c)) :=
  fun h hat => .inr ⟨h.pos, c, h, by rw [hat.pos_eq]; rfl, hat, rfl⟩

theorem follows_refuseHere (cause : ReadCause) :
    Follows text view (refuseHere cause) c (.error ⟨cause, c.pos⟩) :=
  follows_of_reaches fun hreaches =>
    follows_position.move (follows_refuse (isBoundary_of_reaches hreaches) cause)

theorem follows_whole : Follows text id whole c (.ok (text, c)) :=
  fun h hat => .inr ⟨text, c, h, rfl, hat, rfl⟩

theorem follows_size : Follows text id size c (.ok (text.utf8ByteSize, c)) :=
  follows_whole.move (follows_pure _)

theorem follows_slice {start stop : Nat} {piece : List Char}
    (hslice : slice? text start stop = some (String.ofList piece)) :
    Follows text id (slice start stop) c (.ok (piece, c)) := by
  intro h hat
  refine .inr ⟨piece, c, h, rfl, hat, ?_⟩
  rw [slice_run, hslice, Option.elim_some, String.toList_ofList]

theorem follows_remaining : Follows text id remaining c (.ok (c.rest, c)) :=
  follows_of_reaches fun hreaches =>
    follows_position.move (follows_size.move (follows_slice (slice?_rest hreaches)))

theorem follows_peek (text : String) (c : Cursor) :
    Follows text id peek c (.ok (c.rest.head?, c)) :=
  follows_remaining.move (follows_pure _)

theorem follows_peek_cons {first : Char} {others : List Char} (hrest : c.rest = first :: others) :
    Follows text id peek c (.ok (some first, c)) := by
  have hpeek := follows_peek text c
  rwa [hrest] at hpeek

theorem follows_peek_nil (hrest : c.rest = []) : Follows text id peek c (.ok (none, c)) := by
  have hpeek := follows_peek text c
  rwa [hrest] at hpeek

theorem follows_atEnd : Follows text id atEnd c (.ok (c.atEnd, c)) := by
  refine follows_of_reaches fun hreaches => follows_position.move (follows_size.move ?_)
  have hend : decide (text.utf8ByteSize ≤ c.pos) = c.atEnd := by
    have hzero : byteLength c.rest = 0 ↔ c.rest = [] := byteLength_eq_zero_iff
    rw [Cursor.atEnd, size_of_reaches hreaches, Bool.eq_iff_iff, decide_eq_true_iff,
      List.isEmpty_iff, ← hzero]
    omega
  rw [hend]
  exact follows_pure c.atEnd

/-- Adding the bytes of the characters that stand next moves past these characters. -/
theorem follows_moveBy (text : String) (c : Cursor) (n : Nat) :
    Follows text id (moveBy (byteLength (c.rest.take n))) c (.ok ((), c.skip n)) := by
  intro h hat
  refine .inr ⟨(), c.skip n, _, rfl, ⟨hat.reaches.skip n, ?_, hat.places⟩, rfl⟩
  exact congrArg (· + byteLength (c.rest.take n)) hat.pos_eq

theorem follows_moveBy_run (text : String) (c : Cursor) (p : Char → Bool) :
    Follows text id (moveBy (byteLength (c.takeWhile p).1)) c (.ok ((), (c.takeWhile p).2)) := by
  rw [Cursor.takeWhile_eq_skip]
  exact follows_moveBy text c _

theorem follows_advance {first : Char} {others : List Char} (hrest : c.rest = first :: others) :
    Follows text id advance c (.ok ((), c.skip 1)) := by
  refine (follows_peek text _).move ?_
  have hbytes : byteLength (c.rest.take 1) = first.utf8Size := by simp [hrest, byteLength]
  have hmove := follows_moveBy text c 1
  rw [hbytes] at hmove
  rw [hrest]
  exact hmove

/-- One pass for each character of the run: the induction is on the bound, and the run ends before
    the bound does. -/
theorem follows_advanceWhile (p : Char → Bool) {bound : Nat} (hbound : c.rest.length ≤ bound) :
    Follows text id (advanceWhile p bound) c (.ok ((), (c.takeWhile p).2)) := by
  induction bound generalizing c with
  | zero =>
    have hrest : c.rest = [] := List.eq_nil_of_length_eq_zero (Nat.le_zero.mp hbound)
    have hstay : (c.takeWhile p).2 = c := by
      obtain ⟨rest, pos⟩ := c
      cases hrest
      rfl
    rw [hstay]
    exact follows_pure ()
  | succ bound ih =>
    refine (follows_peek text _).move ?_
    obtain ⟨rest, pos⟩ := c
    cases rest with
    | nil => exact follows_pure ()
    | cons first others =>
      dsimp only [List.head?_cons]
      by_cases hfirst : p first = true
      · rw [if_pos hfirst]
        have hrun : ((Cursor.mk (first :: others) pos).takeWhile p).2 =
            (((Cursor.mk (first :: others) pos).skip 1).takeWhile p).2 := by
          simp [Cursor.takeWhile, Cursor.skip, hfirst, byteLength, Nat.add_assoc]
        rw [hrun]
        exact (follows_advance rfl).move (ih (Nat.le_of_succ_le_succ hbound))
      · have hstay : ((Cursor.mk (first :: others) pos).takeWhile p).2 =
            Cursor.mk (first :: others) pos := by
          simp [Cursor.takeWhile, hfirst, byteLength]
        rw [if_neg hfirst, hstay]
        exact follows_pure ()

theorem follows_passWhile (p : Char → Bool) :
    Follows text id (passWhile p) c (.ok ((), (c.takeWhile p).2)) :=
  follows_of_reaches fun hreaches =>
    follows_whole.move (follows_advanceWhile p (length_le_of_reaches hreaches))

theorem follows_skipBlanks : Follows text id skipBlanks c (.ok ((), c.skipBlanks)) :=
  follows_passWhile isBlank

/-- The slice behind a run is the run. -/
theorem follows_slice_run (hreaches : c.Reaches text.toList) (p : Char → Bool) (here : Cursor) :
    Follows text id (slice c.pos (c.takeWhile p).2.pos) here (.ok ((c.takeWhile p).1, here)) := by
  rw [Cursor.takeWhile_eq_skip]
  exact follows_slice (slice?_skip hreaches _)

/-! ### Whole texts -/

theorem standsAt_start : StandsAt text (Cursor.start text) ⟨0, []⟩ :=
  ⟨Cursor.reaches_start text, rfl, fun _ hoffset => nomatch hoffset⟩

/-- Run on the whole text, the reader ends with the result or with the error of the other. -/
theorem Follows.run_start {reader : OffsetReader α} {x : Except ReadError α}
    (h : Follows text Prod.fst reader (Cursor.start text) x) :
    ∃ last : Head, reader text ⟨0, []⟩ = (x.mapError .refused, last) ∧
      ∀ offset ∈ last.places, IsBoundary text offset ∧ offset ≤ text.utf8ByteSize := by
  have hplaces : ∀ {c : Cursor} {h : Head}, StandsAt text c h →
      ∀ offset ∈ h.places, IsBoundary text offset ∧ offset ≤ text.utf8ByteSize :=
    fun hat offset hoffset => ⟨hat.places offset hoffset, (hat.places offset hoffset).le⟩
  rcases h _ standsAt_start with ⟨e, last, h', rfl, -, hlast, hreader⟩ |
    ⟨a, next, h', rfl, hnext, hreader⟩
  · exact ⟨h', hreader, hplaces hlast⟩
  · exact ⟨h', hreader, hplaces hnext⟩

theorem Follows.isBoundary_position {reader : OffsetReader α} {x : Except ReadError γ}
    {e : ReadError} (h : Follows text view reader (Cursor.start text) x) (herror : x = .error e) :
    IsBoundary text e.position := by
  cases herror
  rcases h _ standsAt_start with ⟨e', last, h', herror, hposition, -⟩ | ⟨a, next, h', hok, -⟩
  · cases herror
    exact hposition
  · cases hok

end Laws

end Autopilot.Text
