/-
  Parameter lists, written and read.

  A binding can be written for a parameter if its constant has the parameter's type and fits, its
  name consists of the characters of names, or its number has 64 bits (`WritableAt`). These are
  the bindings that reading returns (`writableAt_of_readList`), and joined by commas with a blank
  behind each they are read back (`readList_text`). The proofs follow the reader: one binding, the
  comma behind it, the rest of the list.
-/
import Autopilot.Binding.Reader
import Autopilot.Proofs.Text.Names
import Autopilot.Proofs.Text.Pieces

namespace Autopilot

open Text

namespace Binding

/-! ## Bindings that can be written -/

/-- A name: at least one character, and only characters of names. -/
def IsName (s : String) : Prop :=
  s.toList ≠ [] ∧ ∀ c ∈ s.toList, isNameChar c = true

/-- The binding can be written for a parameter of the type so that it is read back. -/
def WritableAt (type : SlotType) : Binding → Prop
  | .const value => value.slotType = type ∧ value.fits = true
  | .subSlot name => IsName name
  | .placeholder name => IsName name
  | .piped index => index < bitBound 64

/-- A sigil in front of a name or number. -/
def isSigil (c : Char) : Bool :=
  c == '&' || c == '%' || c == '$'

theorem eq_of_isSigil {c : Char} (h : isSigil c = true) : c = '&' ∨ c = '%' ∨ c = '$' := by
  simpa [isSigil, or_assoc] using h

theorem isBlank_of_isSigil {c : Char} (h : isSigil c = true) : isBlank c = false := by
  rcases eq_of_isSigil h with rfl | rfl | rfl
  · decide
  · decide
  · decide

/-- A written binding is a run of characters of names, perhaps behind a sigil. -/
theorem WritableAt.chars {type : SlotType} {b : Binding} (h : b.WritableAt type) :
    b.text.toList ≠ [] ∧ ∀ c ∈ b.text.toList, isNameChar c = true ∨ isSigil c = true := by
  have hsigil : ∀ (sigil : String) (name : String), (∀ c ∈ sigil.toList, isSigil c = true) →
      (∀ c ∈ name.toList, isNameChar c = true) →
      ∀ c ∈ (sigil ++ name).toList, isNameChar c = true ∨ isSigil c = true := by
    intro sigil name hsigil hname c hc
    rw [String.toList_append, List.mem_append] at hc
    exact hc.elim (fun hc => .inr (hsigil c hc)) fun hc => .inl (hname c hc)
  cases b with
  | const value => exact ⟨value.text_ne_nil, fun c hc => .inl (value.isNameChar_text c hc)⟩
  | subSlot name =>
    exact ⟨by simp [text], hsigil "&" name (List.all_iff_forall_prop.mp (by decide)) h.2⟩
  | placeholder name =>
    exact ⟨by simp [text], hsigil "%" name (List.all_iff_forall_prop.mp (by decide)) h.2⟩
  | piped index =>
    refine ⟨by simp [text], hsigil "$" (toString index) ?_ fun c hc => ?_⟩
    · exact List.all_iff_forall_prop.mp (by decide)
    exact isNameChar_of_isDigit (isDigit_toString hc)

/-- No character of a written binding is blank, or a sign of the list or of a file. -/
theorem WritableAt.plain {type : SlotType} {b : Binding} (h : b.WritableAt type) :
    ∀ c ∈ b.text.toList, isBlank c = false ∧ c ∉ [',', ';', '#', '\n'] := by
  intro c hc
  rcases h.chars.2 c hc with hname | hsigil
  · have hsigns : ∀ sign ∈ [',', ';', '#', '\n'], isNameChar sign = false :=
      List.all_iff_forall_prop.mp (by decide +kernel)
    exact ⟨isBlank_of_isNameChar hname, fun hmem => ne_of_isNameChar hname (hsigns c hmem) rfl⟩
  · refine ⟨isBlank_of_isSigil hsigil, ?_⟩
    rcases eq_of_isSigil hsigil with rfl | rfl | rfl
    · decide
    · decide
    · decide

/-! ## What reading returns -/

/-- A number is the longest run of digits, if it is a numeral that has 64 bits. -/
theorem readIndex_eq_ok_iff {c behind : Cursor} {index : Nat} :
    readIndex c = .ok (index, behind) ↔
      (index < bitBound 64 ∧ IsNumeral index (c.takeWhile Char.isDigit).1) ∧
        behind = (c.takeWhile Char.isDigit).2 := by
  have hdigits : ∀ d ∈ (c.takeWhile Char.isDigit).1, d.isDigit = true :=
    fun d hd => List.mem_takeWhile_imp hd
  unfold readIndex
  revert hdigits
  obtain ⟨run, next⟩ := c.takeWhile Char.isDigit
  intro hdigits
  have hindex : ∀ n, unsigned? (bitBound 64) (String.ofList run) = some n ↔
      n < bitBound 64 ∧ IsNumeral n run := by
    intro n
    have hplain : ¬ ∃ cs, run = '+' :: cs ∧ IsNumeral n cs := by
      rintro ⟨cs, rfl, -⟩
      exact absurd (hdigits '+' List.mem_cons_self) (by decide)
    rw [unsigned?_eq_some_iff, IsUnsigned, String.toList_ofList, or_iff_left hplain]
  rw [← hindex]
  split
  · next hnil =>
    cases hnil
    simp [show unsigned? (bitBound 64) (String.ofList []) = none by decide]
  · next hpair =>
    cases hpair
    dsimp only
    cases unsigned? (bitBound 64) (String.ofList run) with
    | none => simp
    | some n => simp [eq_comm]

/-- A name is the longest run of its characters, if there is any. -/
theorem readName_eq_ok_iff {sigil : Char} {c behind : Cursor} {name : String} :
    readName sigil c = .ok (name, behind) ↔
      (IsName name ∧ (c.takeWhile isNameChar).1 = name.toList) ∧
        behind = (c.takeWhile isNameChar).2 := by
  have hchars : ∀ d ∈ (c.takeWhile isNameChar).1, isNameChar d = true :=
    fun d hd => List.mem_takeWhile_imp hd
  unfold readName IsName
  revert hchars
  obtain ⟨run, next⟩ := c.takeWhile isNameChar
  intro hchars
  split
  · next hnil =>
    cases hnil
    refine iff_of_false nofun ?_
    rintro ⟨⟨⟨hne, -⟩, hname⟩, -⟩
    exact hne hname.symm
  · next hne hpair =>
    cases hpair
    constructor
    · intro h
      cases h
      rw [String.toList_ofList]
      exact ⟨⟨⟨hne, hchars⟩, rfl⟩, rfl⟩
    · rintro ⟨⟨-, hname⟩, rfl⟩
      have hrun : run = name.toList := hname
      rw [hrun, String.ofList_toList]

theorem writableAt_of_readOne {type : SlotType} {c next : Cursor} {b : Binding}
    (h : readOne type c = .ok (b, next)) : b.WritableAt type := by
  unfold readOne at h
  split at h
  · obtain ⟨⟨index, next'⟩, hread, hpair⟩ := map_eq_ok.mp h
    cases hpair
    exact (readIndex_eq_ok_iff.mp hread).1.1
  · obtain ⟨⟨name, next'⟩, hread, hpair⟩ := map_eq_ok.mp h
    cases hpair
    exact (readName_eq_ok_iff.mp hread).1.1
  · obtain ⟨⟨name, next'⟩, hread, hpair⟩ := map_eq_ok.mp h
    cases hpair
    exact (readName_eq_ok_iff.mp hread).1.1
  · unfold readLiteral at h
    dsimp only at h
    split at h
    · cases h
    · split at h
      · next value hvalue =>
        cases h
        exact AbiValue.of_read hvalue
      · cases h

theorem writableAt_of_readFrom {total : Nat} {types : List SlotType} {c : Cursor}
    {bs : List Binding} (h : readFrom total types c = .ok bs) :
    List.Forall₂ WritableAt types bs := by
  induction types generalizing c bs with
  | nil => cases h
  | cons type types ih =>
    unfold readFrom at h
    obtain ⟨⟨b, behind⟩, hone, h⟩ := bind_eq_ok.mp h
    obtain ⟨next, -, h⟩ := bind_eq_ok.mp h
    have hb := writableAt_of_readOne hone
    split at h
    · split at h
      · next hlast =>
        cases h
        rw [List.isEmpty_iff.mp hlast]
        exact .cons hb .nil
      · cases h
    · obtain ⟨rest, hrest, h⟩ := bind_eq_ok.mp h
      cases h
      exact .cons hb (ih hrest)

/-- Every binding of a list that was read can be written for its parameter. -/
theorem writableAt_of_readList {types : List SlotType} {s : String} {bs : List Binding}
    (h : readList types s = .ok bs) : List.Forall₂ WritableAt types bs := by
  unfold readList at h
  dsimp only at h
  split at h
  · split at h
    · next hnone =>
      cases h
      rw [List.isEmpty_iff.mp hnone]
      exact .nil
    · cases h
  · exact writableAt_of_readFrom h

/-! ## Reading what is written -/

/-- The text ends here, or a comma follows. -/
def AtBreak (rest : List Char) : Prop :=
  ∀ c ∈ rest.head?, c = ','

/-- A run that ends where the first character without the property stands. -/
theorem takeWhile_run {p : Char → Bool} {run rest : List Char} (hrun : ∀ c ∈ run, p c = true)
    (hrest : ∀ c ∈ rest.head?, p c = false) (pos : Nat) :
    (Cursor.mk (run ++ rest) pos).takeWhile p = (run, ⟨rest, pos + byteLength run⟩) := by
  unfold Cursor.takeWhile
  dsimp only
  rw [List.takeWhile_append_of_pos hrun, List.dropWhile_append_of_pos hrun,
    takeWhile_of_head? hrest, dropWhile_of_head? hrest, List.append_nil]

theorem readName_run {name : String} (h : IsName name) {rest : List Char} (hrest : AtBreak rest)
    (sigil : Char) (pos : Nat) :
    ∃ behind, readName sigil ⟨name.toList ++ rest, pos⟩ = .ok (name, ⟨rest, behind⟩) := by
  have hstop : ∀ c ∈ rest.head?, isNameChar c = false := by
    intro c hc
    rw [hrest c hc]
    exact isNameChar_comma
  refine ⟨pos + byteLength name.toList, readName_eq_ok_iff.mpr ?_⟩
  rw [takeWhile_run h.2 hstop]
  exact ⟨⟨h, rfl⟩, rfl⟩

theorem readIndex_run {index : Nat} (h : index < bitBound 64) {rest : List Char}
    (hrest : AtBreak rest) (pos : Nat) :
    ∃ behind, readIndex ⟨(toString index).toList ++ rest, pos⟩ = .ok (index, ⟨rest, behind⟩) := by
  have hstop : ∀ c ∈ rest.head?, c.isDigit = false := by
    intro c hc
    rw [hrest c hc]
    decide
  refine ⟨pos + byteLength (Nat.toDigits 10 index), ?_⟩
  rw [Nat.toString_eq_ofList_toDigits, String.toList_ofList, readIndex_eq_ok_iff,
    takeWhile_run (fun c hc => isDigit_toDigits hc) hstop]
  exact ⟨⟨h, 0, rfl⟩, rfl⟩

theorem readLiteral_run {value : AbiValue} (h : value.fits = true) {rest : List Char}
    (hrest : AtBreak rest) (pos : Nat) :
    ∃ behind, readLiteral value.slotType ⟨value.text.toList ++ rest, pos⟩ =
      .ok (.const value, ⟨rest, behind⟩) := by
  have hrun : ∀ c ∈ value.text.toList, (c != ',') = true := by
    intro c hc
    rw [bne_iff_ne]
    exact ne_of_isNameChar (value.isNameChar_text c hc) isNameChar_comma
  have hstop : ∀ c ∈ rest.head?, (c != ',') = false := by
    intro c hc
    rw [hrest c hc]
    rfl
  have htight : Tight value.text.toList :=
    tight_of_forall fun c hc => isBlank_of_isNameChar (value.isNameChar_text c hc)
  refine ⟨pos + byteLength value.text.toList, ?_⟩
  unfold readLiteral
  rw [takeWhile_run hrun hstop]
  dsimp only
  rw [trimChars_of_tight htight]
  split
  · next hnil => exact absurd hnil value.text_ne_nil
  · rw [String.ofList_toList, AbiValue.read_text_eq_ok_iff.mpr ⟨rfl, h⟩]

/-- A binding in front of a comma or of the end is read back. -/
theorem readOne_text {type : SlotType} {b : Binding} (h : b.WritableAt type) {rest : List Char}
    (hrest : AtBreak rest) (pos : Nat) :
    ∃ behind, readOne type ⟨b.text.toList ++ rest, pos⟩ = .ok (b, ⟨rest, behind⟩) := by
  cases b with
  | const value =>
    obtain ⟨rfl, hfits⟩ : value.slotType = type ∧ value.fits = true := h
    obtain ⟨behind, hread⟩ := readLiteral_run hfits hrest pos
    refine ⟨behind, ?_⟩
    rw [← hread]
    -- a literal starts with a letter or digit, so no sigil is taken for one
    obtain ⟨first, others, htext⟩ := List.exists_cons_of_ne_nil value.text_ne_nil
    have hfirst : isNameChar first = true :=
      value.isNameChar_text first (htext ▸ List.mem_cons_self)
    have hne : ∀ sigil ∈ ['&', '%', '$'], first ≠ sigil := by
      have hsigils : ∀ sigil ∈ ['&', '%', '$'], isNameChar sigil = false :=
        List.all_iff_forall_prop.mp (by decide +kernel)
      exact fun sigil hsigil => ne_of_isNameChar hfirst (hsigils sigil hsigil)
    have hliteral : (Binding.const value).text.toList ++ rest = first :: (others ++ rest) := by
      show value.text.toList ++ rest = _
      rw [htext]
      rfl
    unfold readOne
    rw [hliteral]
    split
    · next heq => exact absurd (List.cons.inj heq).1 (hne '$' (by simp))
    · next heq => exact absurd (List.cons.inj heq).1 (hne '&' (by simp))
    · next heq => exact absurd (List.cons.inj heq).1 (hne '%' (by simp))
    · rw [← hliteral]
      rfl
  | subSlot name =>
    obtain ⟨behind, hread⟩ := readName_run h hrest '&' (pos + byteLength ['&'])
    have htext : (Binding.subSlot name).text.toList ++ rest = '&' :: (name.toList ++ rest) := by
      simp [text]
    refine ⟨behind, ?_⟩
    rw [htext]
    show (readName '&' ⟨name.toList ++ rest, pos + byteLength ['&']⟩).map _ = _
    rw [hread]
    rfl
  | placeholder name =>
    obtain ⟨behind, hread⟩ := readName_run h hrest '%' (pos + byteLength ['%'])
    have htext : (Binding.placeholder name).text.toList ++ rest =
        '%' :: (name.toList ++ rest) := by
      simp [text]
    refine ⟨behind, ?_⟩
    rw [htext]
    show (readName '%' ⟨name.toList ++ rest, pos + byteLength ['%']⟩).map _ = _
    rw [hread]
    rfl
  | piped index =>
    obtain ⟨behind, hread⟩ := readIndex_run h hrest (pos + byteLength ['$'])
    have htext : (Binding.piped index).text.toList ++ rest =
        '$' :: ((toString index).toList ++ rest) := by
      simp [text]
    refine ⟨behind, ?_⟩
    rw [htext]
    show (readIndex ⟨(toString index).toList ++ rest, pos + byteLength ['$']⟩).map _ = _
    rw [hread]
    rfl

/-! ## Lists -/

/-- Bindings as they are listed. -/
def listed (bs : List Binding) : List Char :=
  [',', ' '].intercalate (bs.map fun b => b.text.toList)

theorem toList_intercalate_text (bs : List Binding) :
    (", ".intercalate (bs.map text)).toList = listed bs := by
  unfold listed
  rw [String.toList_intercalate, List.map_map]
  rfl

/-- Blanks in front of a text that starts with none. -/
theorem skipBlanks_blanks {blanks cs : List Char} (hblanks : ∀ c ∈ blanks, isBlank c = true)
    (hcs : ∀ c ∈ cs.head?, isBlank c = false) (pos : Nat) :
    ∃ behind, (Cursor.mk (blanks ++ cs) pos).skipBlanks = ⟨cs, behind⟩ := by
  refine ⟨pos + byteLength blanks, ?_⟩
  unfold Cursor.skipBlanks
  rw [takeWhile_run hblanks hcs]

theorem skipBlanks_listed {type : SlotType} {b : Binding} (h : b.WritableAt type)
    (bs : List Binding) {blanks : List Char} (hblanks : ∀ c ∈ blanks, isBlank c = true)
    (pos : Nat) :
    ∃ behind, (Cursor.mk (blanks ++ listed (b :: bs)) pos).skipBlanks =
      ⟨listed (b :: bs), behind⟩ := by
  obtain ⟨first, others, htext⟩ := List.exists_cons_of_ne_nil h.chars.1
  have hlisted : (listed (b :: bs)).head? = some first := by
    unfold listed
    cases bs with
    | nil => simp [htext]
    | cons next bs => simp [List.intercalate_cons_cons, htext]
  refine skipBlanks_blanks hblanks (fun c hc => ?_) pos
  rw [hlisted, Option.mem_some_iff] at hc
  rw [← hc]
  exact (h.plain first (htext ▸ List.mem_cons_self)).1

theorem readSeparator_end (pos : Nat) :
    ∃ behind, readSeparator ⟨[], pos⟩ = .ok ⟨[], behind⟩ :=
  ⟨_, rfl⟩

theorem readSeparator_comma (rest : List Char) (pos : Nat) :
    ∃ behind, readSeparator ⟨',' :: rest, pos⟩ = .ok ⟨rest, behind⟩ :=
  ⟨_, rfl⟩

/-- A list is read back from its start, with or without blanks in front. -/
theorem readFrom_listed {types : List SlotType} {bs : List Binding}
    (h : List.Forall₂ WritableAt types bs) (hne : bs ≠ []) (total : Nat) {blanks : List Char}
    (hblanks : ∀ c ∈ blanks, isBlank c = true) (pos : Nat) :
    readFrom total types ⟨blanks ++ listed bs, pos⟩ = .ok bs := by
  induction h generalizing blanks pos with
  | nil => exact absurd rfl hne
  | @cons type b types bs hb hrest ih =>
    obtain ⟨start, hskip⟩ := skipBlanks_listed hb bs hblanks pos
    unfold readFrom
    rw [hskip]
    cases hrest with
    | nil =>
      have hlisted : listed [b] = b.text.toList ++ [] := by simp [listed]
      have hbreak : AtBreak [] := by simp [AtBreak]
      obtain ⟨behind, hone⟩ := readOne_text hb hbreak start
      obtain ⟨last, hend⟩ := readSeparator_end behind
      rw [hlisted]
      refine bind_eq_ok.mpr ⟨_, hone, bind_eq_ok.mpr ⟨_, hend, ?_⟩⟩
      rfl
    | @cons type' b' types bs hb' hrest' =>
      have hlisted : listed (b :: b' :: bs) =
          b.text.toList ++ ',' :: ([' '] ++ listed (b' :: bs)) := by
        simp [listed, List.intercalate_cons_cons]
      have hbreak : AtBreak (',' :: ([' '] ++ listed (b' :: bs))) := by simp [AtBreak]
      obtain ⟨behind, hone⟩ := readOne_text hb hbreak start
      obtain ⟨next, hcomma⟩ := readSeparator_comma ([' '] ++ listed (b' :: bs)) behind
      have hnext := ih (List.cons_ne_nil b' bs) isBlank_blank next
      rw [hlisted]
      refine bind_eq_ok.mpr ⟨_, hone, bind_eq_ok.mpr ⟨_, hcomma, ?_⟩⟩
      exact bind_eq_ok.mpr ⟨_, hnext, rfl⟩

/-- Bindings that can be written for their parameters are read back from their list. -/
theorem readList_text {types : List SlotType} {bs : List Binding}
    (h : List.Forall₂ WritableAt types bs) :
    readList types (", ".intercalate (bs.map text)) = .ok bs := by
  unfold readList Cursor.start
  rw [toList_intercalate_text]
  cases h with
  | nil => rfl
  | @cons type b types bs hb hrest =>
    have hblanks : ∀ c ∈ ([] : List Char), isBlank c = true := by simp
    obtain ⟨start, hskip⟩ := skipBlanks_listed hb bs hblanks 0
    obtain ⟨first, others, htext⟩ := List.exists_cons_of_ne_nil hb.chars.1
    have hnext := readFrom_listed (.cons hb hrest) (List.cons_ne_nil b bs)
      (type :: types).length hblanks start
    have hend : (Cursor.mk (listed (b :: bs)) start).atEnd = false := by
      unfold listed Cursor.atEnd
      cases bs with
      | nil => simp [htext]
      | cons next bs => simp [List.intercalate_cons_cons, htext]
    rw [List.nil_append] at hskip hnext
    dsimp only
    rw [hskip, hend]
    exact hnext

end Binding

end Autopilot
