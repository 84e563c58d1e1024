/-
  What the precondition reader accepts.

  A reader recognizes the tokens of a result if it returns the result exactly where a text lays
  out these tokens, and leaves the text behind them (`Recognizes`). The reader of operands does,
  hence the readers of comparisons and lists do, as long as the reader of a part does; and of
  what stands at the front of a text only one keyword can be the longest run of characters of
  names, so the reader of predicates does too, level by level. Tokens take up characters, which
  is why the bound on the number of parts never bites (`read_eq_ok_iff`).
-/
import Autopilot.Predicate.Reader
import Autopilot.Proofs.Outcome
import Autopilot.Proofs.Predicate.Tokens

namespace Autopilot

open Text

namespace Predicate

variable {α : Type}

/-- The reader returns the result wherever the text lays out the tokens of the result, if the
    result is admitted, and whatever follows is left. -/
def Recognizes (reader : Cursor → Except ReadError (α × Cursor)) (tokens : α → List Token)
    (admits : α → Prop) : Prop :=
  ∀ c a after, (∃ next, reader c = .ok (a, next) ∧ Lays after next.rest) ↔
    admits a ∧ Lays (tokens a ++ after) c.rest

/-! ## Signs and operands -/

theorem expect_iff (s : Sign) {c : Cursor} {after : List Token} :
    (∃ next, expect s.char c = .ok next ∧ Lays after next.rest) ↔
      Lays (.sign s :: after) c.rest := by
  rw [← lays_skipBlanks_iff, lays_sign_iff]
  have hskip : c.skipBlanks.rest.dropWhile isBlank = c.skipBlanks.rest :=
    List.dropWhile_idempotent isBlank c.rest
  rw [hskip]
  unfold expect
  dsimp only
  split
  · next found others heq =>
    have hbehind : (c.skipBlanks.skip 1).rest = others := by simp [Cursor.skip, heq]
    rw [heq]
    split
    · next hfound =>
      subst hfound
      constructor
      · rintro ⟨next, hnext, hafter⟩
        cases hnext
        exact ⟨others, rfl, hbehind ▸ hafter⟩
      · rintro ⟨rest, hrest, hafter⟩
        cases hrest
        exact ⟨_, rfl, hbehind.symm ▸ hafter⟩
    · next hfound =>
      constructor
      · rintro ⟨next, hnext, -⟩
        cases hnext
      · rintro ⟨rest, hrest, -⟩
        exact absurd (List.cons.inj hrest).1 hfound
  · next heq =>
    rw [heq]
    constructor
    · rintro ⟨next, hnext, -⟩
      cases hnext
    · rintro ⟨rest, hrest, -⟩
      cases hrest

theorem readKey_iff {c : Cursor} {o : Operand} {after : List Token} :
    (∃ next, readKey c = .ok (o, next) ∧ Lays after next.rest) ↔
      ∃ name, o = .key name ∧ name.toList ≠ [] ∧ c.rest.takeWhile isNameChar = name.toList ∧
        Lays after (c.rest.dropWhile isNameChar) := by
  unfold readKey Cursor.takeWhile
  dsimp only
  constructor
  · rintro ⟨next, hnext, hafter⟩
    split at hnext
    · cases hnext
    · next hne hrun =>
      cases hrun
      cases hnext
      exact ⟨_, rfl, by simpa using hne, String.toList_ofList.symm, hafter⟩
  · rintro ⟨name, rfl, hne, hrun, hafter⟩
    rw [hrun]
    split
    · next heq => exact absurd (Prod.mk.inj heq).1 hne
    · next heq =>
      cases heq
      exact ⟨_, by rw [String.ofList_toList], hafter⟩

theorem readAmount_iff {c : Cursor} {o : Operand} {after : List Token} :
    (∃ next, readAmount c = .ok (o, next) ∧ Lays after next.rest) ↔
      ∃ value, o = .literal value ∧
        amount? (String.ofList (c.rest.takeWhile Char.isAlphanum)) = some value ∧
        Lays after (c.rest.dropWhile Char.isAlphanum) := by
  unfold readAmount Cursor.takeWhile
  dsimp only
  constructor
  · rintro ⟨next, hnext, hafter⟩
    split at hnext
    · next value hvalue =>
      cases hnext
      exact ⟨value, rfl, hvalue, hafter⟩
    · cases hnext
  · rintro ⟨value, rfl, hvalue, hafter⟩
    rw [hvalue]
    exact ⟨_, rfl, hafter⟩

/-- The character behind the blanks tells keys and literals apart. -/
theorem recognizes_readOperand : Recognizes readOperand (fun o => [.operand o]) fun _ => True := by
  intro c o after
  have hskip : c.skipBlanks.rest = c.rest.dropWhile isBlank := rfl
  rw [true_and, List.singleton_append]
  unfold readOperand
  dsimp only
  split
  · next behind heq =>
    have hbehind : (c.skipBlanks.skip 1).rest = behind := by simp [Cursor.skip, heq]
    rw [readKey_iff, hbehind]
    rw [hskip] at heq
    cases o with
    | key name => simp [lays_key_iff, heq]
    | literal value => simp [lays_literal_iff, heq, Char.isDigit]
  · next found others hat heq =>
    have hat : found ≠ '@' := hat
    split
    · next hdigit =>
      rw [readAmount_iff]
      rw [hskip] at heq ⊢
      cases o with
      | key name => simp [lays_key_iff, heq, hat]
      | literal value => simp [lays_literal_iff, heq, hdigit]
    · next hdigit =>
      rw [hskip] at heq
      cases o with
      | key name => simp [lays_key_iff, heq, hat]
      | literal value => simp [lays_literal_iff, heq, hdigit]
  · next heq =>
    rw [hskip] at heq
    cases o with
    | key name => simp [lays_key_iff, heq]
    | literal value => simp [lays_literal_iff, heq]

theorem recognizes_readOperands :
    Recognizes readOperands (fun pair => bracketed [[.operand pair.1], [.operand pair.2]])
      fun _ => True := by
  rintro c ⟨left, right⟩ after
  constructor
  · rintro ⟨last, h, hlast⟩
    obtain ⟨c₁, hopening, h⟩ := bind_eq_ok.mp h
    obtain ⟨⟨left', c₂⟩, hleft, h⟩ := bind_eq_ok.mp h
    obtain ⟨c₃, hcomma, h⟩ := bind_eq_ok.mp h
    obtain ⟨⟨right', c₄⟩, hright, h⟩ := bind_eq_ok.mp h
    obtain ⟨c₅, hclosing, h⟩ := bind_eq_ok.mp h
    cases h
    have h₄ := (expect_iff .closing).mp ⟨last, hclosing, hlast⟩
    have h₃ := ((recognizes_readOperand _ _ _).mp ⟨c₄, hright, h₄⟩).2
    have h₂ := (expect_iff .comma).mp ⟨c₃, hcomma, h₃⟩
    have h₁ := ((recognizes_readOperand _ _ _).mp ⟨c₂, hleft, h₂⟩).2
    exact ⟨trivial, (expect_iff .opening).mp ⟨c₁, hopening, h₁⟩⟩
  · rintro ⟨-, h⟩
    obtain ⟨c₁, hopening, h⟩ := (expect_iff .opening).mpr h
    obtain ⟨c₂, hleft, h⟩ := (recognizes_readOperand _ left _).mpr ⟨trivial, h⟩
    obtain ⟨c₃, hcomma, h⟩ := (expect_iff .comma).mpr h
    obtain ⟨c₄, hright, h⟩ := (recognizes_readOperand _ right _).mpr ⟨trivial, h⟩
    obtain ⟨last, hclosing, h⟩ := (expect_iff .closing).mpr h
    refine ⟨last, bind_eq_ok.mpr ⟨c₁, hopening, bind_eq_ok.mpr ⟨(left, c₂), hleft, ?_⟩⟩, h⟩
    refine bind_eq_ok.mpr ⟨c₃, hcomma, bind_eq_ok.mpr ⟨(right, c₄), hright, ?_⟩⟩
    exact bind_eq_ok.mpr ⟨last, hclosing, rfl⟩

/-! ## Lists of predicates -/

section Lists

variable {readOne : Cursor → Except ReadError (Predicate × Cursor)} {admits : Predicate → Prop}

/-- The tokens of a list behind its opening bracket. -/
def itemTokens (ps : List Predicate) : List Token :=
  (bracketed (ps.map tokens)).tail

@[simp]
theorem itemTokens_singleton (p : Predicate) : itemTokens [p] = p.tokens ++ [.sign .closing] :=
  rfl

@[simp]
theorem itemTokens_cons_cons (p q : Predicate) (ps : List Predicate) :
    itemTokens (p :: q :: ps) = p.tokens ++ .sign .comma :: itemTokens (q :: ps) :=
  rfl

theorem bracketed_eq (ps : List Predicate) :
    bracketed (ps.map tokens) = .sign .opening :: itemTokens ps := by
  cases ps <;> rfl

theorem lays_of_readItems (hone : Recognizes readOne tokens admits) {last : Cursor}
    {after : List Token} (hlast : Lays after last.rest) {bound : Nat} {c : Cursor}
    {ps : List Predicate} (h : readItems readOne bound c = .ok (ps, last)) :
    (ps ≠ [] ∧ ps.length ≤ bound ∧ ∀ p ∈ ps, admits p) ∧ Lays (itemTokens ps ++ after) c.rest := by
  induction bound generalizing c ps with
  | zero => cases h
  | succ bound ih =>
    obtain ⟨⟨item, afterItem⟩, hitem, h⟩ := bind_eq_ok.mp h
    dsimp only at h
    split at h
    · next behind heq =>
      cases h
      have hbehind : (afterItem.skipBlanks.skip 1).rest = behind := by simp [Cursor.skip, heq]
      have hclosing : Lays (.sign .closing :: after) afterItem.rest :=
        lays_sign_iff.mpr ⟨behind, heq, hbehind ▸ hlast⟩
      obtain ⟨hadmits, hlays⟩ := (hone c item _).mp ⟨afterItem, hitem, hclosing⟩
      exact ⟨⟨List.cons_ne_nil _ _, by simp, by simpa using hadmits⟩, by simpa using hlays⟩
    · obtain ⟨afterComma, hcomma, h⟩ := bind_eq_ok.mp h
      obtain ⟨⟨items, last'⟩, hitems, h⟩ := bind_eq_ok.mp h
      cases h
      obtain ⟨⟨hne, hlength, hall⟩, hrest⟩ := ih hitems
      have hnext := lays_skipBlanks_iff.mp ((expect_iff .comma).mp ⟨_, hcomma, hrest⟩)
      obtain ⟨hadmits, hlays⟩ := (hone c item _).mp ⟨afterItem, hitem, hnext⟩
      refine ⟨⟨List.cons_ne_nil _ _, by simpa using hlength, ?_⟩, ?_⟩
      · exact List.forall_mem_cons.mpr ⟨hadmits, hall⟩
      · obtain ⟨second, others, rfl⟩ := List.exists_cons_of_ne_nil hne
        simpa using hlays

theorem readItems_of_lays (hone : Recognizes readOne tokens admits) {bound : Nat} {c : Cursor}
    {ps : List Predicate} {after : List Token} (hne : ps ≠ []) (hlength : ps.length ≤ bound)
    (hall : ∀ p ∈ ps, admits p) (h : Lays (itemTokens ps ++ after) c.rest) :
    ∃ last, readItems readOne bound c = .ok (ps, last) ∧ Lays after last.rest := by
  induction bound generalizing c ps with
  | zero => exact absurd (List.length_eq_zero_iff.mp (Nat.le_zero.mp hlength)) hne
  | succ bound ih =>
    obtain ⟨item, items, rfl⟩ := List.exists_cons_of_ne_nil hne
    obtain ⟨hadmits, hall⟩ := List.forall_mem_cons.mp hall
    cases items with
    | nil =>
      rw [itemTokens_singleton, List.append_assoc] at h
      obtain ⟨afterItem, hitem, h⟩ := (hone c item _).mpr ⟨hadmits, h⟩
      obtain ⟨behind, heq, hafter⟩ := lays_sign_iff.mp h
      have hnext : afterItem.skipBlanks.rest = ')' :: behind := heq
      refine ⟨afterItem.skipBlanks.skip 1, bind_eq_ok.mpr ⟨_, hitem, ?_⟩, ?_⟩
      · dsimp only
        rw [hnext]
        rfl
      · simpa [Cursor.skip, hnext] using hafter
    | cons second others =>
      rw [itemTokens_cons_cons, List.append_assoc] at h
      obtain ⟨afterItem, hitem, h⟩ := (hone c item _).mpr ⟨hadmits, h⟩
      have hnext : afterItem.skipBlanks.rest.head? = some ',' := by
        obtain ⟨behind, heq, -⟩ := lays_sign_iff.mp h
        exact congrArg List.head? heq
      obtain ⟨afterComma, hcomma, h⟩ := (expect_iff .comma).mpr (lays_skipBlanks_iff.mpr h)
      obtain ⟨last, hothers, hlast⟩ :=
        ih (List.cons_ne_nil second others) (by simpa using hlength) hall h
      refine ⟨last, bind_eq_ok.mpr ⟨_, hitem, ?_⟩, hlast⟩
      dsimp only
      split
      · next heq => simp [heq] at hnext
      · exact bind_eq_ok.mpr ⟨_, hcomma, bind_eq_ok.mpr ⟨_, hothers, rfl⟩⟩

theorem recognizes_readParts (hone : Recognizes readOne tokens admits) (bound : Nat)
    (keyword : String) :
    Recognizes (readParts bound readOne keyword) (fun ps => bracketed (ps.map tokens))
      fun ps => (2 ≤ ps.length ∧ ps.length ≤ bound) ∧ ∀ p ∈ ps, admits p := by
  intro c ps after
  dsimp only
  rw [bracketed_eq]
  constructor
  · rintro ⟨last, h, hlast⟩
    obtain ⟨c₁, hopening, h⟩ := bind_eq_ok.mp h
    obtain ⟨⟨items, last'⟩, hitems, h⟩ := bind_eq_ok.mp h
    dsimp only at h
    split at h
    · cases h
    · next hmany =>
      cases h
      obtain ⟨⟨-, hlength, hall⟩, hlays⟩ := lays_of_readItems hone hlast hitems
      exact ⟨⟨⟨by omega, hlength⟩, hall⟩, (expect_iff .opening).mp ⟨c₁, hopening, hlays⟩⟩
  · rintro ⟨⟨⟨hmany, hlength⟩, hall⟩, h⟩
    obtain ⟨c₁, hopening, h⟩ := (expect_iff .opening).mpr h
    have hne : ps ≠ [] := List.ne_nil_of_length_pos (by omega)
    obtain ⟨last, hitems, hlast⟩ := readItems_of_lays hone hne hlength hall h
    refine ⟨last, bind_eq_ok.mpr ⟨c₁, hopening, bind_eq_ok.mpr ⟨(ps, last), hitems, ?_⟩⟩, hlast⟩
    dsimp only
    rw [if_neg (by omega)]
    rfl

end Lists

/-! ## Keywords -/

/-- The keyword that a predicate starts with. -/
def keyword : Predicate → Keyword
  | .always => .always
  | .atLeast _ _ => .atLeast
  | .atMost _ _ => .atMost
  | .all _ => .and
  | .any _ => .or
  | .not _ => .not

/-- The tokens of a predicate behind its keyword. -/
def body (p : Predicate) : List Token :=
  p.tokens.tail

theorem tokens_eq (p : Predicate) : p.tokens = .keyword p.keyword :: p.body := by
  cases p <;> rfl

theorem Keyword.eq_of_word_eq {k l : Keyword} (h : k.word.toList = l.word.toList) : k = l := by
  revert h
  cases k <;> cases l <;> decide

theorem atKeyword_iff (k : Keyword) {c : Cursor} :
    atKeyword k.word c = true ↔ c.rest.takeWhile isNameChar = k.word.toList := by
  have hstands : atKeyword k.word c = true ↔
      ∃ rest, c.rest = k.word.toList ++ rest ∧ ∀ d ∈ rest.head?, isNameChar d = false := by
    unfold atKeyword
    split
    · next found rest heq =>
      rw [List.isPrefixOf?_eq_some_iff_append_eq] at heq
      simp [← heq]
    · next heq =>
      rw [List.isPrefixOf?_eq_some_iff_append_eq] at heq
      simp [← heq]
    · next hnone =>
      refine iff_of_false Bool.false_ne_true ?_
      rintro ⟨rest, hrest, -⟩
      rw [List.isPrefixOf?_eq_some_iff_append_eq.mpr hrest.symm] at hnone
      cases hnone
  rw [hstands]
  constructor
  · rintro ⟨rest, hrest, hstop⟩
    exact (longest_run_iff.mp ⟨hrest, k.isNameChar_word, hstop⟩).1.symm
  · intro hrun
    obtain ⟨hrest, -, hstop⟩ := longest_run_iff.mpr ⟨hrun.symm, rfl⟩
    exact ⟨_, hrest, hstop⟩

/-- The keyword that stands next. -/
def keywordAt? (c : Cursor) : Option Keyword :=
  if atKeyword "ALWAYS" c then some .always
  else if atKeyword "AT_LEAST" c then some .atLeast
  else if atKeyword "AT_MOST" c then some .atMost
  else if atKeyword "AND" c then some .and
  else if atKeyword "OR" c then some .or
  else if atKeyword "NOT" c then some .not
  else none

theorem keywordAt?_eq_some_iff {c : Cursor} {k : Keyword} :
    keywordAt? c = some k ↔ c.rest.takeWhile isNameChar = k.word.toList := by
  rw [← atKeyword_iff]
  have hother : ∀ l : Keyword, atKeyword k.word c = true → atKeyword l.word c = true → k = l := by
    intro l hk hl
    rw [atKeyword_iff] at hk hl
    exact Keyword.eq_of_word_eq (hk.symm.trans hl)
  unfold keywordAt?
  constructor
  · intro h
    split_ifs at h with h₁ h₂ h₃ h₄ h₅ h₆ <;> cases h <;> assumption
  · intro hk
    split_ifs with h₁ h₂ h₃ h₄ h₅ h₆
    · rw [hother .always hk h₁]
    · rw [hother .atLeast hk h₂]
    · rw [hother .atMost hk h₃]
    · rw [hother .and hk h₄]
    · rw [hother .or hk h₅]
    · rw [hother .not hk h₆]
    · cases k <;> contradiction

/-- Reads what stands behind a keyword. -/
def readBody (bound : Nat) (readOne : Cursor → Except ReadError (Predicate × Cursor)) :
    Keyword → Cursor → Except ReadError (Predicate × Cursor)
  | .always, c => pure (.always, c)
  | .atLeast, c => do
    let ((left, right), next) ← readOperands c
    pure (.atLeast left right, next)
  | .atMost, c => do
    let ((left, right), next) ← readOperands c
    pure (.atMost left right, next)
  | .and, c => do
    let (parts, next) ← readParts bound readOne "AND" c
    pure (.all parts, next)
  | .or, c => do
    let (parts, next) ← readParts bound readOne "OR" c
    pure (.any parts, next)
  | .not, c => do
    let inside ← expect '(' c
    let (part, afterPart) ← readOne inside
    let next ← expect ')' afterPart
    pure (.not part, next)

/-- The reader of predicates goes by the keyword that stands next. -/
theorem readTerm_eq (bound : Nat) (readOne : Cursor → Except ReadError (Predicate × Cursor))
    (c : Cursor) :
    readTerm bound readOne c =
      match keywordAt? c with
      | some k => readBody bound readOne k (passKeyword k.word c)
      | none => .error ⟨.predicateExpected (nextWord c), c.pos⟩ := by
  unfold readTerm keywordAt?
  split_ifs <;> rfl

theorem passKeyword_rest {k : Keyword} {c : Cursor}
    (h : c.rest.takeWhile isNameChar = k.word.toList) :
    (passKeyword k.word c).rest = c.rest.dropWhile isNameChar := by
  have hsplit : c.rest = k.word.toList ++ c.rest.dropWhile isNameChar := by
    rw [← h, List.takeWhile_append_dropWhile]
  show c.rest.drop k.word.length = _
  exact (congrArg _ hsplit).trans (List.drop_left' String.length_toList)

/-! ## One level -/

section Level

variable {readOne : Cursor → Except ReadError (Predicate × Cursor)} {admits : Predicate → Prop}

/-- A reader of results that determine what is returned. -/
theorem Recognizes.map {β : Type} {reader : Cursor → Except ReadError (α × Cursor)}
    {ts : α → List Token} {p : α → Prop} (h : Recognizes reader ts p) (f : α → β)
    {ts' : β → List Token} {p' : β → Prop} (hts : ∀ a, ts' (f a) = ts a)
    (hp : ∀ b, p' b ↔ ∃ a, f a = b ∧ p a) :
    Recognizes (fun c => do let (a, next) ← reader c; pure (f a, next)) ts' p' := by
  intro c b after
  constructor
  · rintro ⟨next, hb, hafter⟩
    obtain ⟨⟨a, next'⟩, ha, hpure⟩ := bind_eq_ok.mp hb
    cases hpure
    obtain ⟨hadmits, hlays⟩ := (h c a after).mp ⟨next, ha, hafter⟩
    exact ⟨(hp _).mpr ⟨a, rfl, hadmits⟩, (hts a).symm ▸ hlays⟩
  · rintro ⟨hadmits, hlays⟩
    obtain ⟨a, rfl, ha⟩ := (hp b).mp hadmits
    rw [hts] at hlays
    obtain ⟨next, hnext, hafter⟩ := (h c a after).mpr ⟨ha, hlays⟩
    exact ⟨next, bind_eq_ok.mpr ⟨_, hnext, rfl⟩, hafter⟩

/-- Each AND and each OR of this level has two parts at least and `bound` parts at most. -/
def Sized (bound : Nat) (p : Predicate) : Prop :=
  p.joins = true → 2 ≤ p.parts.length ∧ p.parts.length ≤ bound

theorem recognizes_readBody (hone : Recognizes readOne tokens admits) (bound : Nat)
    (k : Keyword) :
    Recognizes (readBody bound readOne k) body fun p =>
      p.keyword = k ∧ p.Sized bound ∧ ∀ q ∈ p.parts, admits q := by
  cases k with
  | always =>
    intro c p after
    constructor
    · rintro ⟨next, h, hafter⟩
      cases h
      exact ⟨⟨rfl, by simp [Sized, joins], by simp [parts]⟩, hafter⟩
    · rintro ⟨⟨hkeyword, -⟩, hlays⟩
      cases p <;> cases hkeyword
      exact ⟨c, rfl, hlays⟩
  | atLeast =>
    refine recognizes_readOperands.map (fun pair => atLeast pair.1 pair.2) (fun _ => rfl) ?_
    intro p
    cases p <;> simp [keyword, Sized, joins, parts]
  | atMost =>
    refine recognizes_readOperands.map (fun pair => atMost pair.1 pair.2) (fun _ => rfl) ?_
    intro p
    cases p <;> simp [keyword, Sized, joins, parts]
  | and =>
    refine (recognizes_readParts hone bound "AND").map all (fun ps => ?_) ?_
    · rw [body, tokens, List.tail_cons, tokensOf_eq]
    · intro p
      cases p <;> simp [keyword, Sized, joins, parts]
  | or =>
    refine (recognizes_readParts hone bound "OR").map any (fun ps => ?_) ?_
    · rw [body, tokens, List.tail_cons, tokensOf_eq]
    · intro p
      cases p <;> simp [keyword, Sized, joins, parts]
  | not =>
    intro c p after
    constructor
    · rintro ⟨last, h, hlast⟩
      obtain ⟨c₁, hopening, h⟩ := bind_eq_ok.mp h
      obtain ⟨⟨part, c₂⟩, hpart, h⟩ := bind_eq_ok.mp h
      obtain ⟨c₃, hclosing, h⟩ := bind_eq_ok.mp h
      cases h
      have h₂ := (expect_iff .closing).mp ⟨last, hclosing, hlast⟩
      obtain ⟨hadmits, h₁⟩ := (hone _ _ _).mp ⟨c₂, hpart, h₂⟩
      refine ⟨⟨rfl, by simp [Sized, joins], by simpa [parts] using hadmits⟩, ?_⟩
      simpa [body, tokens, bracketed, untilClosing] using
        (expect_iff .opening).mp ⟨c₁, hopening, h₁⟩
    · rintro ⟨⟨hkeyword, -, hall⟩, hlays⟩
      cases p <;> cases hkeyword
      next part =>
      have h : Lays (.sign .opening :: (part.tokens ++ .sign .closing :: after)) c.rest := by
        simpa [body, tokens, bracketed, untilClosing] using hlays
      obtain ⟨c₁, hopening, h⟩ := (expect_iff .opening).mpr h
      obtain ⟨c₂, hpart, h⟩ := (hone _ part _).mpr ⟨hall part List.mem_cons_self, h⟩
      obtain ⟨last, hclosing, hlast⟩ := (expect_iff .closing).mpr h
      refine ⟨last, bind_eq_ok.mpr ⟨c₁, hopening, bind_eq_ok.mpr ⟨(part, c₂), hpart, ?_⟩⟩, hlast⟩
      exact bind_eq_ok.mpr ⟨last, hclosing, rfl⟩

theorem recognizes_readTerm (hone : Recognizes readOne tokens admits) (bound : Nat)
    {c : Cursor} (hc : c.rest.dropWhile isBlank = c.rest) (p : Predicate) (after : List Token) :
    (∃ next, readTerm bound readOne c = .ok (p, next) ∧ Lays after next.rest) ↔
      (p.Sized bound ∧ ∀ q ∈ p.parts, admits q) ∧ Lays (p.tokens ++ after) c.rest := by
  rw [tokens_eq, List.cons_append, lays_keyword_iff, hc, readTerm_eq, ← keywordAt?_eq_some_iff]
  cases hk : keywordAt? c with
  | none => simp
  | some k =>
    have hbody := recognizes_readBody hone bound k (passKeyword k.word c) p after
    rw [passKeyword_rest (keywordAt?_eq_some_iff.mp hk)] at hbody
    dsimp only
    rw [hbody, Option.some_inj]
    constructor
    · rintro ⟨⟨hkeyword, hadmits⟩, hlays⟩
      exact ⟨hadmits, hkeyword.symm, hlays⟩
    · rintro ⟨hadmits, hkeyword, hlays⟩
      exact ⟨⟨hkeyword.symm, hadmits⟩, hlays⟩

/-- Reading at most `levels` levels recognizes the predicates that are no higher. -/
theorem recognizes_readNested (bound levels : Nat) :
    Recognizes (readNested bound levels) tokens fun p =>
      p.height ≤ levels ∧ p.Everywhere (Sized bound) := by
  induction levels with
  | zero =>
    intro c p after
    have hpos := p.height_pos
    constructor
    · rintro ⟨next, h, -⟩
      cases h
    · rintro ⟨⟨hheight, -⟩, -⟩
      omega
  | succ levels ih =>
    intro c p after
    have hskipped : c.skipBlanks.rest.dropWhile isBlank = c.skipBlanks.rest :=
      List.dropWhile_idempotent isBlank c.rest
    have hterm := recognizes_readTerm ih bound hskipped p after
    rw [lays_skipBlanks_iff] at hterm
    refine hterm.trans ?_
    refine and_congr_left' ?_
    dsimp only
    rw [height_le_succ_iff, everywhere_iff]
    constructor
    · rintro ⟨hsized, hparts⟩
      exact ⟨fun q hq => (hparts q hq).1, hsized, fun q hq => (hparts q hq).2⟩
    · rintro ⟨hheight, hsized, hparts⟩
      exact ⟨hsized, fun q hq => ⟨hheight q hq, hparts q hq⟩⟩

end Level

/-! ## Whole texts -/

theorem read_eq_ok_iff_readNested {s : String} {p : Predicate} :
    read s = .ok p ↔ ∃ next, readNested (s.toList.length + 1) maxNesting (Cursor.start s) =
      .ok (p, next) ∧ Lays [] next.rest := by
  have hblank : ∀ c : Cursor, c.skipBlanks.atEnd = true ↔ Lays [] c.rest := by
    intro c
    show (c.rest.dropWhile isBlank).isEmpty = true ↔ _
    rw [List.isEmpty_iff, List.dropWhile_eq_nil_iff]
    rfl
  constructor
  · intro h
    obtain ⟨⟨q, next⟩, hnested, h⟩ := bind_eq_ok.mp h
    dsimp only at h
    split at h
    · next hend =>
      cases h
      exact ⟨next, hnested, (hblank next).mp hend⟩
    · cases h
  · rintro ⟨next, hnested, hend⟩
    refine bind_eq_ok.mpr ⟨(p, next), hnested, ?_⟩
    dsimp only
    rw [if_pos ((hblank next).mpr hend)]
    rfl

/-- No place has more parts than the text has characters, so the bound on their number is met. -/
theorem everywhere_sized_iff {p : Predicate} {cs : List Char} (h : Lays p.tokens cs) :
    p.Everywhere (Sized (cs.length + 1)) ↔ p.Branching := by
  refine forall₂_congr fun q hq => forall_congr' fun _ => and_iff_left ?_
  have hparts := length_parts_le q
  have htokens := (tokens_sublist p q hq).length_le
  have hlength := h.length_le
  omega

theorem read_eq_ok_iff {s : String} {p : Predicate} :
    read s = .ok p ↔ p.height ≤ maxNesting ∧ Spells s p := by
  have hnested := recognizes_readNested (s.toList.length + 1) maxNesting (Cursor.start s) p []
  rw [List.append_nil] at hnested
  rw [read_eq_ok_iff_readNested, hnested, and_assoc]
  exact and_congr_right' (and_congr_left fun hlays => everywhere_sized_iff hlays)

/-- A text is read as a predicate exactly if it spells the predicate by the grammar and the
    predicate has 32 levels at most. -/
theorem read_returns_iff_spelled (s : String) (p : Predicate) :
    read s = .ok p ↔ Spells s p ∧ p.height ≤ 32 := by
  rw [read_eq_ok_iff, and_comm]
  rfl

end Predicate

end Autopilot
