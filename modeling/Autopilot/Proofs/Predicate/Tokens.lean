/-
  The words of the precondition language.

  A predicate is a sequence of tokens: keywords, brackets, commas and operands. A text lays out a
  sequence if it writes one token after the other, with blanks before, between and behind them as
  it likes and none inside, and breaks no word off early: behind a keyword or a key no character
  of a name stands, and behind a literal no letter or digit (`Lays`). So the characters behind the
  blanks decide what the next token is, and where it ends.
-/
import Autopilot.Proofs.Predicate.Shape
import Autopilot.Text.Numeral

namespace Autopilot

open Text
open Binding (IsName)

/-! ## Runs -/

/-- A run that ends where the first character without the property stands is the longest one. -/
theorem longest_run_iff {p : Char → Bool} {cs run rest : List Char} :
    (cs = run ++ rest ∧ (∀ c ∈ run, p c = true) ∧ ∀ c ∈ rest.head?, p c = false) ↔
      run = cs.takeWhile p ∧ rest = cs.dropWhile p := by
  constructor
  · rintro ⟨rfl, hrun, hrest⟩
    have htake := Binding.takeWhile_run hrun hrest 0
    exact ⟨(congrArg Prod.fst htake).symm, (congrArg (fun r => r.2.rest) htake).symm⟩
  · rintro ⟨rfl, rfl⟩
    exact ⟨List.takeWhile_append_dropWhile.symm, fun c hc => List.mem_takeWhile_imp hc,
      head?_dropWhile_eq_false⟩

namespace Predicate

/-! ## Tokens -/

/-- The keywords. -/
inductive Keyword where
  | always
  | atLeast
  | atMost
  | and
  | or
  | not
  deriving DecidableEq

/-- A keyword as it is written. -/
def Keyword.word : Keyword → String
  | .always => "ALWAYS"
  | .atLeast => "AT_LEAST"
  | .atMost => "AT_MOST"
  | .and => "AND"
  | .or => "OR"
  | .not => "NOT"

/-- The signs between operands and predicates. -/
inductive Sign where
  | opening
  | comma
  | closing

/-- A sign as it is written. -/
def Sign.char : Sign → Char
  | .opening => '('
  | .comma => ','
  | .closing => ')'

/-- A word of the language. -/
inductive Token where
  | keyword (keyword : Keyword)
  | sign (sign : Sign)
  | operand (operand : Operand)

namespace Token

/-- The characters that write a token. A key stands directly behind its at sign; a literal is made
    of ASCII letters and digits, a digit first, and denotes its amount. -/
def Spelled : Token → List Char → Prop
  | .keyword k, cs => cs = k.word.toList
  | .sign s, cs => cs = [s.char]
  | .operand (.key name), cs => IsName name ∧ cs = '@' :: name.toList
  | .operand (.literal value), cs =>
    (∃ first ∈ cs.head?, first.isDigit = true) ∧ (∀ c ∈ cs, c.isAlphanum = true) ∧
      amount? (String.ofList cs) = some value

/-- Whether a character directly behind a token would belong to the same word. -/
def continues : Token → Char → Bool
  | .keyword _, c => isNameChar c
  | .sign _, _ => false
  | .operand (.key _), c => isNameChar c
  | .operand (.literal _), c => c.isAlphanum

end Token

/-- The characters write the tokens one after the other, with blanks around them. -/
def Lays : List Token → List Char → Prop
  | [], cs => ∀ c ∈ cs, isBlank c = true
  | token :: tokens, cs =>
    ∃ blanks piece rest, cs = blanks ++ (piece ++ rest) ∧ (∀ c ∈ blanks, isBlank c = true) ∧
      token.Spelled piece ∧ (∀ c ∈ rest.head?, token.continues c = false) ∧ Lays tokens rest

/-- What stands behind an item of a list in brackets, with the items that follow it. -/
def untilClosing : List (List Token) → List Token
  | [] => [.sign .closing]
  | item :: items => .sign .comma :: (item ++ untilClosing items)

/-- The tokens of a list in brackets, with a comma between items. -/
def bracketed : List (List Token) → List Token
  | [] => [.sign .opening, .sign .closing]
  | item :: items => .sign .opening :: (item ++ untilClosing items)

mutual

/-- The tokens of a predicate. -/
def tokens : Predicate → List Token
  | .always => [.keyword .always]
  | .atLeast left right => .keyword .atLeast :: bracketed [[.operand left], [.operand right]]
  | .atMost left right => .keyword .atMost :: bracketed [[.operand left], [.operand right]]
  | .all parts => .keyword .and :: bracketed (tokensOf parts)
  | .any parts => .keyword .or :: bracketed (tokensOf parts)
  | .not part => .keyword .not :: bracketed [tokens part]

/-- The tokens of each predicate of a list. -/
def tokensOf : List Predicate → List (List Token)
  | [] => []
  | part :: rest => tokens part :: tokensOf rest

end

/-- The text spells the predicate: every AND and OR in it has at least two parts, and the text lays
    out its tokens. -/
def Spells (s : String) (p : Predicate) : Prop :=
  p.Branching ∧ Lays p.tokens s.toList

theorem tokensOf_eq (ps : List Predicate) : tokensOf ps = ps.map tokens := by
  induction ps with
  | nil => rfl
  | cons p ps ih => rw [tokensOf, ih, List.map_cons]

/-! ## Tokens of what stands inside -/

theorem sublist_untilClosing {item : List Token} {items : List (List Token)} (h : item ∈ items) :
    item.Sublist (untilClosing items) := by
  induction items with
  | nil => cases h
  | cons first items ih =>
    refine .cons _ ?_
    rcases List.mem_cons.mp h with rfl | h
    · exact List.sublist_append_left _ _
    · exact (ih h).trans (List.sublist_append_right _ _)

theorem length_le_untilClosing (items : List (List Token)) :
    items.length ≤ (untilClosing items).length := by
  induction items with
  | nil => exact Nat.zero_le _
  | cons item items ih =>
    simp only [untilClosing, List.length_cons, List.length_append]
    omega

theorem sublist_bracketed {item : List Token} {items : List (List Token)} (h : item ∈ items) :
    item.Sublist (bracketed items) := by
  cases items with
  | nil => cases h
  | cons first items =>
    refine .cons _ ?_
    rcases List.mem_cons.mp h with rfl | h
    · exact List.sublist_append_left _ _
    · exact (sublist_untilClosing h).trans (List.sublist_append_right _ _)

theorem length_le_bracketed (items : List (List Token)) :
    items.length ≤ (bracketed items).length := by
  cases items with
  | nil => exact Nat.zero_le _
  | cons item items =>
    have hlength := length_le_untilClosing items
    simp only [bracketed, List.length_cons, List.length_append]
    omega

/-- The parts of a predicate stand in brackets behind its keyword. -/
theorem tokens_of_parts {p : Predicate} (h : p.parts ≠ []) :
    ∃ k, p.tokens = .keyword k :: bracketed (p.parts.map tokens) := by
  cases p with
  | always => exact absurd rfl h
  | atLeast left right => exact absurd rfl h
  | atMost left right => exact absurd rfl h
  | all parts => exact ⟨.and, by rw [tokens, tokensOf_eq, Predicate.parts]⟩
  | any parts => exact ⟨.or, by rw [tokens, tokensOf_eq, Predicate.parts]⟩
  | not part => exact ⟨.not, rfl⟩

theorem length_parts_le (p : Predicate) : p.parts.length ≤ p.tokens.length := by
  by_cases hparts : p.parts = []
  · rw [hparts]
    exact Nat.zero_le _
  · obtain ⟨k, htokens⟩ := tokens_of_parts hparts
    have hlength := length_le_bracketed (p.parts.map tokens)
    rw [List.length_map] at hlength
    rw [htokens, List.length_cons]
    omega

/-- What stands inside a predicate is written inside its text. -/
theorem tokens_sublist (p : Predicate) :
    p.Everywhere fun q => q.tokens.Sublist p.tokens := by
  induction p using inductionOnParts with
  | step p ih =>
    refine everywhere_iff.mpr ⟨.refl _, fun part hpart q hq => ?_⟩
    obtain ⟨k, htokens⟩ := tokens_of_parts (List.ne_nil_of_mem hpart)
    rw [htokens]
    exact (ih part hpart q hq).trans ((sublist_bracketed (List.mem_map_of_mem hpart)).cons _)

/-! ## How tokens are written -/

theorem Keyword.isNameChar_word (k : Keyword) : ∀ c ∈ k.word.toList, isNameChar c = true := by
  cases k <;> exact List.all_iff_forall_prop.mp (by decide +kernel)

/-- A token is written with one character at least, and its first one is not blank. -/
theorem Token.Spelled.head {t : Token} {cs : List Char} (h : t.Spelled cs) :
    ∃ first others, cs = first :: others ∧ isBlank first = false := by
  match t, h with
  | .keyword k, h =>
    have hword : ∃ first others, k.word.toList = first :: others := by
      cases k <;> exact ⟨_, _, rfl⟩
    obtain ⟨first, others, hword⟩ := hword
    have hmem : first ∈ k.word.toList := hword ▸ List.mem_cons_self
    exact ⟨first, others, h.trans hword, isBlank_of_isNameChar (k.isNameChar_word first hmem)⟩
  | .sign s, h =>
    refine ⟨s.char, [], h, ?_⟩
    cases s <;> decide
  | .operand (.key name), h => exact ⟨'@', name.toList, h.2, by decide⟩
  | .operand (.literal value), h =>
    obtain ⟨⟨first, hfirst, hdigit⟩, -⟩ := h
    obtain ⟨others, rfl⟩ := List.head?_eq_some_iff.mp hfirst
    exact ⟨first, others, rfl, isBlank_of_isDigit hdigit⟩

/-! ## The next token -/

/-- The next token starts behind the blanks. -/
theorem lays_cons_iff {t : Token} {ts : List Token} {cs : List Char} :
    Lays (t :: ts) cs ↔ ∃ piece rest, cs.dropWhile isBlank = piece ++ rest ∧ t.Spelled piece ∧
      (∀ c ∈ rest.head?, t.continues c = false) ∧ Lays ts rest := by
  constructor
  · rintro ⟨blanks, piece, rest, rfl, hblanks, hpiece, hstop, hrest⟩
    refine ⟨piece, rest, ?_, hpiece, hstop, hrest⟩
    obtain ⟨first, others, rfl, hfirst⟩ := hpiece.head
    rw [List.dropWhile_append_of_pos hblanks]
    exact dropWhile_of_head? (by simpa using hfirst)
  · rintro ⟨piece, rest, hcs, hpiece, hstop, hrest⟩
    refine ⟨cs.takeWhile isBlank, piece, rest, ?_, fun c hc => List.mem_takeWhile_imp hc, hpiece,
      hstop, hrest⟩
    rw [← hcs, List.takeWhile_append_dropWhile]

/-- Blanks in front of what is laid out do not matter. -/
theorem lays_skipBlanks_iff {ts : List Token} {c : Cursor} :
    Lays ts c.skipBlanks.rest ↔ Lays ts c.rest := by
  have hskip : c.skipBlanks.rest = c.rest.dropWhile isBlank := rfl
  rw [hskip]
  cases ts with
  | nil =>
    constructor
    · intro h d hd
      rw [← List.takeWhile_append_dropWhile (p := isBlank) (l := c.rest), List.mem_append] at hd
      exact hd.elim List.mem_takeWhile_imp (h d)
    · exact fun h d hd => h d ((List.dropWhile_sublist isBlank).mem hd)
  | cons t ts => rw [lays_cons_iff, lays_cons_iff, List.dropWhile_idempotent]

/-- Every token takes up a character. -/
theorem Lays.length_le {ts : List Token} {cs : List Char} (h : Lays ts cs) :
    ts.length ≤ cs.length := by
  induction ts generalizing cs with
  | nil => exact Nat.zero_le _
  | cons t ts ih =>
    obtain ⟨blanks, piece, rest, rfl, -, hpiece, -, hrest⟩ := h
    obtain ⟨first, others, rfl, -⟩ := hpiece.head
    have hlength := ih hrest
    simp only [List.length_append, List.length_cons]
    omega

/-- Only tokens that can be written are laid out. -/
theorem Lays.exists_spelled {ts : List Token} {cs : List Char} (h : Lays ts cs) {t : Token}
    (ht : t ∈ ts) : ∃ piece, t.Spelled piece := by
  induction ts generalizing cs with
  | nil => cases ht
  | cons first ts ih =>
    obtain ⟨-, piece, rest, -, -, hpiece, -, hrest⟩ := h
    rcases List.mem_cons.mp ht with rfl | ht
    · exact ⟨piece, hpiece⟩
    · exact ih hrest ht

theorem lays_sign_iff {s : Sign} {ts : List Token} {cs : List Char} :
    Lays (.sign s :: ts) cs ↔ ∃ rest, cs.dropWhile isBlank = s.char :: rest ∧ Lays ts rest := by
  rw [lays_cons_iff]
  constructor
  · rintro ⟨piece, rest, hcs, rfl, -, hrest⟩
    exact ⟨rest, hcs, hrest⟩
  · rintro ⟨rest, hcs, hrest⟩
    exact ⟨[s.char], rest, hcs, rfl, fun _ _ => rfl, hrest⟩

/-- The longest run of characters of names is the keyword. -/
theorem lays_keyword_iff {k : Keyword} {ts : List Token} {cs : List Char} :
    Lays (.keyword k :: ts) cs ↔ (cs.dropWhile isBlank).takeWhile isNameChar = k.word.toList ∧
      Lays ts ((cs.dropWhile isBlank).dropWhile isNameChar) := by
  rw [lays_cons_iff]
  constructor
  · rintro ⟨piece, rest, hcs, rfl, hstop, hrest⟩
    obtain ⟨hrun, rfl⟩ := longest_run_iff.mp ⟨hcs, k.isNameChar_word, hstop⟩
    exact ⟨hrun.symm, hrest⟩
  · rintro ⟨hrun, hrest⟩
    obtain ⟨hcs, -, hstop⟩ := longest_run_iff.mpr ⟨hrun.symm, rfl⟩
    exact ⟨_, _, hcs, rfl, hstop, hrest⟩

/-- Behind the at sign the longest run of characters of names is the key. -/
theorem lays_key_iff {name : String} {ts : List Token} {cs : List Char} :
    Lays (.operand (.key name) :: ts) cs ↔ name.toList ≠ [] ∧ ∃ behind,
      cs.dropWhile isBlank = '@' :: behind ∧ behind.takeWhile isNameChar = name.toList ∧
        Lays ts (behind.dropWhile isNameChar) := by
  rw [lays_cons_iff]
  constructor
  · rintro ⟨piece, rest, hcs, ⟨hname, rfl⟩, hstop, hrest⟩
    obtain ⟨hrun, hend⟩ := longest_run_iff.mp ⟨rfl, hname.2, hstop⟩
    exact ⟨hname.1, _, hcs, hrun.symm, hend ▸ hrest⟩
  · rintro ⟨hne, behind, hcs, hrun, hrest⟩
    obtain ⟨hbehind, hname, hstop⟩ := longest_run_iff.mpr ⟨hrun.symm, rfl⟩
    refine ⟨_, _, ?_, ⟨⟨hne, hname⟩, rfl⟩, hstop, hrest⟩
    rw [hcs, List.cons_append, ← hbehind]

/-- The longest run of letters and digits that starts with a digit is the literal. -/
theorem lays_literal_iff {value : Word} {ts : List Token} {cs : List Char} :
    Lays (.operand (.literal value) :: ts) cs ↔
      (∃ first ∈ (cs.dropWhile isBlank).head?, first.isDigit = true) ∧
        amount? (String.ofList ((cs.dropWhile isBlank).takeWhile Char.isAlphanum)) = some value ∧
        Lays ts ((cs.dropWhile isBlank).dropWhile Char.isAlphanum) := by
  rw [lays_cons_iff]
  constructor
  · rintro ⟨piece, rest, hcs, ⟨⟨first, hfirst, hdigit⟩, hrun, hvalue⟩, hstop, hrest⟩
    obtain ⟨rfl, rfl⟩ := longest_run_iff.mp ⟨hcs, hrun, hstop⟩
    refine ⟨⟨first, ?_, hdigit⟩, hvalue, hrest⟩
    rw [hcs, List.head?_append, Option.mem_def.mp hfirst]
    rfl
  · rintro ⟨⟨first, hfirst, hdigit⟩, hvalue, hrest⟩
    obtain ⟨hcs, hrun, hstop⟩ := longest_run_iff.mpr ⟨rfl, rfl⟩
    refine ⟨_, _, hcs, ⟨⟨first, ?_, hdigit⟩, hrun, hvalue⟩, hstop, hrest⟩
    obtain ⟨others, hothers⟩ := List.head?_eq_some_iff.mp hfirst
    rw [hothers, List.takeWhile_cons_of_pos (by simp [Char.isAlphanum, hdigit])]
    rfl

end Predicate

end Autopilot
