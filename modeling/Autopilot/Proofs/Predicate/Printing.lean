/-
  Predicates, written and read back.

  The text of a predicate writes its tokens as long as its keys are names: no word runs on into
  what is written behind it, and the blank behind a comma is one that the language allows
  (`writes_text`). A key that is no name cannot be written at all. So the text of a predicate
  spells the predicate just in case the keys are names and no AND or OR is too short, and it is
  read back if moreover the predicate is no higher than the reader goes.
-/
import Autopilot.Proofs.Predicate.Reading

namespace Autopilot

open Text
open Binding (IsName)

namespace Predicate

/-! ## Words next to each other -/

/-- Behind these characters no name goes on. -/
def Ends (rest : List Char) : Prop :=
  ∀ c ∈ rest.head?, isNameChar c = false

/-- The characters write the tokens in front of anything that ends names. -/
def Writes (tokens : List Token) (cs : List Char) : Prop :=
  ∀ after rest, Lays after rest → Ends rest → Lays (tokens ++ after) (cs ++ rest)

theorem isNameChar_of_isAlphanum {c : Char} (h : c.isAlphanum = true) : isNameChar c = true := by
  have hletter : c.isUpper = true ∨ c.isLower = true → c.val ≤ 122 := by
    rintro (hupper | hlower)
    · exact UInt32.le_trans (of_decide_eq_true hupper).2 (by decide)
    · exact of_decide_eq_true (Bool.and_eq_true_iff.mp hlower).2
  have hsmall : c.toNat < 128 := by
    rcases Bool.or_eq_true_iff.mp h with halpha | hdigit
    · have hle := UInt32.le_iff_toNat_le.mp (hletter (Bool.or_eq_true_iff.mp halpha))
      exact Nat.lt_of_le_of_lt hle (by decide)
    · have hrange := toNat_of_isDigit hdigit
      omega
  rw [isNameChar_of_lt_128 hsmall, h]
  rfl

theorem Lays.piece {t : Token} {ts : List Token} {piece rest : List Char} (h : Lays ts rest)
    (hpiece : t.Spelled piece) (hstop : ∀ c ∈ rest.head?, t.continues c = false) :
    Lays (t :: ts) (piece ++ rest) :=
  ⟨[], piece, rest, rfl, fun _ hc => (List.not_mem_nil hc).elim, hpiece, hstop, h⟩

theorem Lays.sign {ts : List Token} {rest : List Char} (h : Lays ts rest) (s : Sign) :
    Lays (.sign s :: ts) (s.char :: rest) := by
  have hpiece : (Token.sign s).Spelled [s.char] := rfl
  exact h.piece hpiece fun _ _ => rfl

theorem Lays.blank {ts : List Token} {rest : List Char} (h : Lays ts rest) :
    Lays ts (' ' :: rest) :=
  lays_skipBlanks_iff (c := ⟨' ' :: rest, 0⟩).mp ((lays_skipBlanks_iff (c := ⟨rest, 0⟩)).mpr h)

theorem ends_sign (s : Sign) (rest : List Char) : Ends (s.char :: rest) := by
  intro c hc
  obtain rfl : s.char = c := by simpa using hc
  cases s <;> decide +kernel

theorem writes_keyword (k : Keyword) {ts : List Token} {cs : List Char} (h : Writes ts cs)
    (hcs : ∀ rest, Ends rest → Ends (cs ++ rest)) :
    Writes (.keyword k :: ts) (k.word.toList ++ cs) := by
  intro after rest hafter hrest
  rw [List.append_assoc]
  exact (h after rest hafter hrest).piece rfl (hcs rest hrest)

theorem writes_operand {o : Operand} (h : ∀ name, o = .key name → IsName name) :
    Writes [.operand o] o.text.toList := by
  intro after rest hafter hrest
  refine hafter.piece ?_ ?_
  · cases o with
    | key name => exact ⟨h name rfl, by simp [Operand.text]⟩
    | literal value =>
      have htext : (Operand.text (.literal value)).toList = Nat.toDigits 10 value.toNat := by
        rw [Operand.text, Nat.toString_eq_ofList_toDigits, String.toList_ofList]
      rw [htext]
      refine ⟨?_, fun c hc => ?_, ?_⟩
      · obtain ⟨first, others, hdigits⟩ := List.exists_cons_of_ne_nil Nat.toDigits_ne_nil
        exact ⟨first, by rw [hdigits]; rfl, isDigit_toDigits (hdigits ▸ List.mem_cons_self)⟩
      · simp [Char.isAlphanum, isDigit_toDigits hc]
      · rw [amount?_toDigits value.isLt, BitVec.ofNat_toNat, BitVec.setWidth_eq]
  · cases o with
    | key name => exact hrest
    | literal value =>
      intro c hc
      rw [Token.continues, Bool.eq_false_iff]
      intro halnum
      exact absurd (hrest c hc) (by simp [isNameChar_of_isAlphanum halnum])

/-! ## Lists in brackets -/

theorem ends_furtherTexts (texts : List (List Char)) (rest : List Char) :
    Ends (texts.flatMap ([',', ' '] ++ ·) ++ [')'] ++ rest) := by
  cases texts with
  | nil => exact ends_sign .closing rest
  | cons text texts => exact ends_sign .comma _

/-- Each further item stands behind a comma and a blank. -/
theorem writes_untilClosing {items : List (List Token)} {texts : List (List Char)}
    (h : List.Forall₂ Writes items texts) :
    Writes (untilClosing items) (texts.flatMap ([',', ' '] ++ ·) ++ [')']) := by
  intro after rest hafter hrest
  induction h with
  | nil => exact hafter.sign .closing
  | @cons item cs items texts hitem hitems ih =>
    have hlays := ((hitem _ _ ih (ends_furtherTexts texts rest)).blank).sign .comma
    simpa [untilClosing, Sign.char] using hlays

theorem intercalate_eq_flatMap (first : List Char) (rest : List (List Char)) :
    [',', ' '].intercalate (first :: rest) = first ++ rest.flatMap ([',', ' '] ++ ·) := by
  induction rest generalizing first with
  | nil => simp
  | cons next rest ih => rw [List.intercalate_cons_cons, ih, List.flatMap_cons]; simp

theorem writes_bracketed {items : List (List Token)} {texts : List (List Char)}
    (h : List.Forall₂ Writes items texts) :
    Writes (bracketed items) ('(' :: ([',', ' '].intercalate texts ++ [')'])) := by
  intro after rest hafter hrest
  cases h with
  | nil => exact (hafter.sign .closing).sign .opening
  | @cons item cs items texts hitem hitems =>
    have hfurther := writes_untilClosing hitems after rest hafter hrest
    have hlays := (hitem _ _ hfurther (ends_furtherTexts texts rest)).sign .opening
    rw [intercalate_eq_flatMap]
    simpa [bracketed, Sign.char] using hlays

theorem writes_term (k : Keyword) {items : List (List Token)} {texts : List (List Char)}
    (h : List.Forall₂ Writes items texts) :
    Writes (.keyword k :: bracketed items)
      (k.word.toList ++ '(' :: ([',', ' '].intercalate texts ++ [')'])) :=
  writes_keyword k (writes_bracketed h) fun _ _ => ends_sign .opening _

/-! ## Predicates -/

theorem toList_texts (ps : List Predicate) :
    (", ".intercalate (texts ps)).toList =
      [',', ' '].intercalate (ps.map fun p => p.text.toList) := by
  have htexts : texts ps = ps.map text := by
    induction ps with
    | nil => rfl
    | cons p ps ih => rw [texts, ih, List.map_cons]
  rw [htexts, String.toList_intercalate, List.map_map]
  rfl

theorem writes_comparison (k : Keyword) {left right : Operand}
    (h : ∀ name, .key name ∈ [left, right] → IsName name) :
    Writes (.keyword k :: bracketed [[.operand left], [.operand right]])
      (k.word.toList ++ '(' :: (left.text.toList ++ [',', ' '] ++ right.text.toList ++ [')'])) := by
  have hleft : Writes [.operand left] left.text.toList :=
    writes_operand fun name hname => h name (by simp [hname])
  have hright : Writes [.operand right] right.text.toList :=
    writes_operand fun name hname => h name (by simp [hname])
  simpa [List.intercalate_cons_cons] using writes_term k (.cons hleft (.cons hright .nil))

/-- A predicate whose keys are names is written with its tokens. -/
theorem writes_text {p : Predicate} (h : p.KeysAreNames) : Writes p.tokens p.text.toList := by
  induction p using inductionOnParts with
  | step p ih =>
    obtain ⟨hoperands, hparts⟩ := everywhere_iff.mp h
    have hitems : List.Forall₂ Writes (p.parts.map tokens)
        (p.parts.map fun q => q.text.toList) := by
      rw [List.forall₂_map_left_iff, List.forall₂_map_right_iff, List.forall₂_same]
      exact fun q hq => ih q hq (hparts q hq)
    cases p with
    | always => exact writes_keyword .always (fun _ _ hafter _ => hafter) fun _ hrest => hrest
    | atLeast left right =>
      have hwritten := writes_comparison .atLeast hoperands
      simpa [text, tokens, Keyword.word] using hwritten
    | atMost left right =>
      have hwritten := writes_comparison .atMost hoperands
      simpa [text, tokens, Keyword.word] using hwritten
    | all parts =>
      have hwritten := writes_term .and hitems
      rw [Predicate.parts, ← toList_texts, ← tokensOf_eq] at hwritten
      simpa [text, tokens, Keyword.word] using hwritten
    | any parts =>
      have hwritten := writes_term .or hitems
      rw [Predicate.parts, ← toList_texts, ← tokensOf_eq] at hwritten
      simpa [text, tokens, Keyword.word] using hwritten
    | not part =>
      have hwritten := writes_term .not hitems
      simpa [text, tokens, parts, Keyword.word] using hwritten

/-! ## Reading back -/

theorem operand_mem_tokens {p : Predicate} {o : Operand} (h : o ∈ p.operands) :
    .operand o ∈ p.tokens := by
  cases p with
  | atLeast left right => simpa [operands, tokens, bracketed, untilClosing] using h
  | atMost left right => simpa [operands, tokens, bracketed, untilClosing] using h
  | always => cases h
  | all parts => cases h
  | any parts => cases h
  | not part => cases h

/-- What is spelled has keys that are names. -/
theorem Spells.keysAreNames {s : String} {p : Predicate} (h : Spells s p) : p.KeysAreNames := by
  intro q hq name hkey
  have hmem : .operand (.key name) ∈ p.tokens :=
    (tokens_sublist p q hq).mem (operand_mem_tokens hkey)
  obtain ⟨piece, hname, -⟩ := h.2.exists_spelled hmem
  exact hname

theorem spells_text_iff {p : Predicate} : Spells p.text p ↔ p.KeysAreNames ∧ p.Branching := by
  constructor
  · exact fun h => ⟨h.keysAreNames, h.1⟩
  · rintro ⟨hkeys, hbranching⟩
    have hlays := writes_text hkeys [] [] (fun _ hc => (List.not_mem_nil hc).elim)
      fun _ hc => nomatch hc
    rw [List.append_nil, List.append_nil] at hlays
    exact ⟨hbranching, hlays⟩

/-- The text of a predicate is read back exactly if the keys in it are names, every AND and OR in
    it has two parts or more, and it has 32 levels at most; the text of any other predicate is
    refused, or read as a different one. -/
theorem read_text_returns_iff (p : Predicate) :
    (read p.text = .ok p ↔ p.KeysAreNames ∧ p.Branching ∧ p.height ≤ 32) ∧
      (¬ (p.KeysAreNames ∧ p.Branching ∧ p.height ≤ 32) →
        (∃ e, read p.text = .error e) ∨ ∃ q, read p.text = .ok q ∧ q ≠ p) := by
  have hiff : read p.text = .ok p ↔ p.KeysAreNames ∧ p.Branching ∧ p.height ≤ 32 := by
    rw [read_eq_ok_iff, spells_text_iff, and_comm, and_assoc]
    rfl
  refine ⟨hiff, fun hnot => ?_⟩
  cases hread : read p.text with
  | error e => exact .inl ⟨e, rfl⟩
  | ok q =>
    refine .inr ⟨q, rfl, ?_⟩
    rintro rfl
    exact hnot (hiff.mp hread)

end Predicate

end Autopilot
