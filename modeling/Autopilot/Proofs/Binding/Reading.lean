/-
  Parameter lists, whatever text they are read from.

  A text is cut at its commas into pieces, and a piece spells a binding for a parameter if it is,
  but for blanks around it, a dollar sign and a numeral, an ampersand or percent sign and a name, or
  a literal of the parameter's type (`Spells`). The reader never looks behind the next comma, so each
  step of it judges one piece (`readOne_iff`). What the steps make of a text is what its pieces
  spell, with one exception: a last comma is passed over if nothing stands behind it, not even a
  blank (`readList_eq_ok_iff`).
-/
import Autopilot.Proofs.Binding

namespace Autopilot

open Text

namespace Binding

/-! ## Pieces -/

/-- The piece, without the blanks around it, is written for the binding of a parameter of the
    type. -/
def Spells (type : SlotType) (piece : List Char) : Binding → Prop
  | .piped index => index < bitBound 64 ∧
      ∃ digits, trimChars piece = '$' :: digits ∧ IsNumeral index digits
  | .subSlot name => IsName name ∧ trimChars piece = '&' :: name.toList
  | .placeholder name => IsName name ∧ trimChars piece = '%' :: name.toList
  | .const value => trimChars piece ≠ [] ∧ (∀ c ∈ (trimChars piece).head?, isSigil c = false) ∧
      AbiValue.read type (String.ofList (trimChars piece)) = .ok value

/-- There is a piece for each parameter, and each of them spells its binding. -/
inductive Spelled : List SlotType → List (List Char) → List Binding → Prop where
  | nil : Spelled [] [] []
  | cons {type : SlotType} {piece : List Char} {b : Binding} {types : List SlotType}
    {pieces : List (List Char)} {bs : List Binding} :
    Spells type piece b → Spelled types pieces bs →
      Spelled (type :: types) (piece :: pieces) (b :: bs)

theorem Spells.ne_nil {type : SlotType} {piece : List Char} {b : Binding}
    (h : Spells type piece b) : trimChars piece ≠ [] := by
  intro hnil
  cases b with
  | const value => exact h.1 hnil
  | subSlot name => cases hnil.symm.trans h.2
  | placeholder name => cases hnil.symm.trans h.2
  | piped index =>
    obtain ⟨-, digits, hdigits, -⟩ := h
    cases hnil.symm.trans hdigits

/-! ## One step -/

variable {cs rest r : List Char} {pos : Nat}

/-- A run that ends at the comma behind the characters, if not before. -/
theorem takeWhile_break {p : Char → Bool} (hp : p ',' = false) (hrest : AtBreak rest)
    (cs : List Char) (pos : Nat) :
    (Cursor.mk (cs ++ rest) pos).takeWhile p =
      (cs.takeWhile p, ⟨cs.dropWhile p ++ rest, pos + byteLength (cs.takeWhile p)⟩) := by
  have hstop : ∀ c ∈ (cs.dropWhile p ++ rest).head?, p c = false := by
    intro c hc
    cases hleft : cs.dropWhile p with
    | nil =>
      rw [hleft, List.nil_append] at hc
      rw [hrest c hc, hp]
    | cons d left =>
      have hhead : c ∈ (cs.dropWhile p).head? := by
        rw [hleft] at hc ⊢
        exact hc
      exact head?_dropWhile_eq_false c hhead
  have hrun : ∀ c ∈ cs.takeWhile p, p c = true := fun c hc => List.mem_takeWhile_imp hc
  have htake := takeWhile_run hrun hstop pos
  rwa [← List.append_assoc, List.takeWhile_append_dropWhile] at htake

theorem skipBlanks_break (hrest : AtBreak rest) (cs : List Char) (pos : Nat) :
    (Cursor.mk (cs ++ rest) pos).skipBlanks =
      ⟨trimFront cs ++ rest, pos + byteLength (cs.takeWhile isBlank)⟩ :=
  congrArg Prod.snd (takeWhile_break (by decide) hrest cs pos)

/-- What a reader returns for the binding at the cursor, and what stands behind its comma. -/
def ReadsTo {α : Type} (read : Cursor → Except ReadError (α × Cursor)) (c : Cursor) (a : α)
    (r : List Char) : Prop :=
  ∃ behind next, read c = .ok (a, behind) ∧ readSeparator behind = .ok next ∧ next.rest = r

/-- Only blanks may stand in front of a comma or of the end. -/
theorem readSeparator_iff (hcs : ',' ∉ cs) (hrest : AtBreak rest) :
    (∃ next, readSeparator ⟨cs ++ rest, pos⟩ = .ok next ∧ next.rest = r) ↔
      (∀ c ∈ cs, isBlank c = true) ∧ r = rest.drop 1 := by
  unfold readSeparator
  rw [skipBlanks_break hrest]
  cases hfront : trimFront cs with
  | nil =>
    have hblank : ∀ c ∈ cs, isBlank c = true := List.dropWhile_eq_nil_iff.mp hfront
    rw [and_iff_right hblank, List.nil_append]
    cases rest with
    | nil => simp [eq_comm]
    | cons c rest =>
      rw [hrest c rfl]
      simp [Cursor.skip, eq_comm]
  | cons c others =>
    have hmem : c ∈ cs := by
      have hc : c ∈ trimFront cs := by simp [hfront]
      exact (List.dropWhile_suffix isBlank).subset hc
    have hcomma : c ≠ ',' := fun heq => hcs (heq ▸ hmem)
    have hnot : ¬ ∀ c ∈ cs, isBlank c = true := fun hall => by
      rw [trimFront, List.dropWhile_eq_nil_iff.mpr hall] at hfront
      cases hfront
    refine iff_of_false ?_ fun h => hnot h.1
    rintro ⟨next, hnext, -⟩
    dsimp only [List.cons_append] at hnext
    split at hnext
    · next heq => cases heq
    · next heq => exact hcomma (List.cons.inj heq).1
    · cases hnext

/-- A run with blanks behind it, said of the run and of the whole without the blanks. -/
theorem takeWhile_blanks_iff {p : Char → Bool} (hp : ∀ c, p c = true → isBlank c = false)
    {run : List Char} :
    (cs.takeWhile p = run ∧ ∀ c ∈ cs.dropWhile p, isBlank c = true) ↔
      trimBack cs = run ∧ ∀ c ∈ run, p c = true := by
  constructor
  · rintro ⟨rfl, hblank⟩
    have hrun : ∀ c ∈ cs.takeWhile p, p c = true := fun c hc => List.mem_takeWhile_imp hc
    refine ⟨?_, hrun⟩
    conv_lhs => rw [← List.takeWhile_append_dropWhile (p := p) (l := cs)]
    rw [trimBack_blanks hblank]
    have htight : Tight (cs.takeWhile p) := tight_of_forall fun c hc => hp c (hrun c hc)
    have hback := trimBack_append htight.2 []
    simpa [trimBack] using hback
  · rintro ⟨hback, hrun⟩
    obtain ⟨blanks, hcs, hblanks⟩ := exists_trimBack cs
    have hstop : ∀ c ∈ blanks.head?, p c = false := by
      intro c hc
      by_contra hpc
      have hblank := hblanks c (List.mem_of_head? hc)
      rw [hp c (by simpa using hpc)] at hblank
      cases hblank
    rw [hcs, hback]
    obtain ⟨htake, hleft⟩ := Prod.mk.inj (takeWhile_run hrun hstop 0)
    have hdrop : (run ++ blanks).dropWhile p = blanks := (Cursor.mk.inj hleft).1
    refine ⟨htake, ?_⟩
    rw [hdrop]
    exact hblanks

/-- A reader that goes by the longest run of its characters takes everything in front of the comma,
    but for blanks behind the run. -/
theorem readsTo_run {α : Type} {p : Char → Bool} (hcomma : p ',' = false)
    (hblank : ∀ c, p c = true → isBlank c = false)
    {read : Cursor → Except ReadError (α × Cursor)} (means : List Char → α → Prop)
    (hread : ∀ c a behind, read c = .ok (a, behind) ↔
      means (c.takeWhile p).1 a ∧ behind = (c.takeWhile p).2)
    (hmeans : ∀ run a, means run a → ∀ c ∈ run, p c = true)
    (hcs : ',' ∉ cs) (hrest : AtBreak rest) {a : α} :
    ReadsTo read ⟨cs ++ rest, pos⟩ a r ↔ means (trimBack cs) a ∧ r = rest.drop 1 := by
  have hleft : ',' ∉ cs.dropWhile p := fun h => hcs ((List.dropWhile_suffix p).subset h)
  have hseparator : (∃ next, readSeparator ⟨cs.dropWhile p ++ rest,
      pos + byteLength (cs.takeWhile p)⟩ = .ok next ∧ next.rest = r) ↔ _ :=
    readSeparator_iff hleft hrest
  unfold ReadsTo
  simp only [hread, takeWhile_break hcomma hrest]
  constructor
  · rintro ⟨behind, next, ⟨hrun, rfl⟩, hnext⟩
    obtain ⟨hblanks, hr⟩ := hseparator.mp ⟨next, hnext⟩
    rw [((takeWhile_blanks_iff hblank).mp ⟨rfl, hblanks⟩).1]
    exact ⟨hrun, hr⟩
  · rintro ⟨hrun, hr⟩
    obtain ⟨htake, hblanks⟩ := (takeWhile_blanks_iff hblank).mpr ⟨rfl, hmeans _ _ hrun⟩
    obtain ⟨next, hnext⟩ := hseparator.mpr ⟨hblanks, hr⟩
    rw [htake]
    rw [htake] at hnext
    exact ⟨_, next, ⟨hrun, rfl⟩, hnext⟩

theorem readsTo_index (hcs : ',' ∉ cs) (hrest : AtBreak rest) {index : Nat} :
    ReadsTo readIndex ⟨cs ++ rest, pos⟩ index r ↔
      (index < bitBound 64 ∧ IsNumeral index (trimBack cs)) ∧ r = rest.drop 1 :=
  readsTo_run (by decide) (fun _ => isBlank_of_isDigit)
    (fun run index => index < bitBound 64 ∧ IsNumeral index run)
    (fun _ _ _ => readIndex_eq_ok_iff) (fun _ _ h => isDigit_of_isNumeral h.2) hcs hrest

theorem readsTo_name {sigil : Char} (hcs : ',' ∉ cs) (hrest : AtBreak rest) {name : String} :
    ReadsTo (readName sigil) ⟨cs ++ rest, pos⟩ name r ↔
      (IsName name ∧ trimBack cs = name.toList) ∧ r = rest.drop 1 :=
  readsTo_run isNameChar_comma (fun _ => isBlank_of_isNameChar)
    (fun run name => IsName name ∧ run = name.toList)
    (fun _ _ _ => readName_eq_ok_iff) (fun _ _ h => h.2 ▸ h.1.2) hcs hrest

theorem readLiteral_eq_ok_iff {type : SlotType} {c behind : Cursor} {b : Binding} :
    readLiteral type c = .ok (b, behind) ↔
      (∃ value, b = .const value ∧ trimChars (c.takeWhile (· != ',')).1 ≠ [] ∧
        AbiValue.read type (String.ofList (trimChars (c.takeWhile (· != ',')).1)) = .ok value) ∧
        behind = (c.takeWhile (· != ',')).2 := by
  unfold readLiteral
  dsimp only
  split
  · next hnil => simp [hnil]
  · next hne =>
    cases hread : AbiValue.read type
        (String.ofList (trimChars (c.takeWhile (· != ',')).1)) with
    | error cause => simp
    | ok value =>
      simp only [Except.ok.injEq, Prod.mk.injEq]
      constructor
      · rintro ⟨rfl, rfl⟩
        exact ⟨⟨value, rfl, hne, rfl⟩, rfl⟩
      · rintro ⟨⟨found, rfl, -, rfl⟩, rfl⟩
        exact ⟨rfl, rfl⟩

theorem readsTo_literal {type : SlotType} (hcs : ',' ∉ cs) (hrest : AtBreak rest) {b : Binding} :
    ReadsTo (readLiteral type) ⟨cs ++ rest, pos⟩ b r ↔
      (∃ value, b = .const value ∧ trimChars cs ≠ [] ∧
        AbiValue.read type (String.ofList (trimChars cs)) = .ok value) ∧ r = rest.drop 1 := by
  have hrun : ∀ c ∈ cs, (c != ',') = true := by
    intro c hc
    rw [bne_iff_ne]
    rintro rfl
    exact hcs hc
  have hstop : ∀ c ∈ rest.head?, (c != ',') = false := by
    intro c hc
    rw [hrest c hc]
    rfl
  have hseparator : (∃ next, readSeparator ⟨[] ++ rest, pos + byteLength cs⟩ = .ok next ∧
      next.rest = r) ↔ _ := readSeparator_iff List.not_mem_nil hrest
  unfold ReadsTo
  simp only [readLiteral_eq_ok_iff, takeWhile_run hrun hstop]
  constructor
  · rintro ⟨behind, next, ⟨hvalue, rfl⟩, hnext⟩
    exact ⟨hvalue, (hseparator.mp ⟨next, hnext⟩).2⟩
  · rintro ⟨hvalue, hr⟩
    obtain ⟨next, hnext⟩ := hseparator.mpr ⟨nofun, hr⟩
    exact ⟨_, next, ⟨hvalue, rfl⟩, hnext⟩

/-! ### The sigil chooses -/

/-- A reader whose result is only wrapped up. -/
theorem readsTo_of_map {α : Type} {type : SlotType} {c c' : Cursor}
    {read : Cursor → Except ReadError (α × Cursor)} {f : α → Binding} {b : Binding}
    (h : readOne type c = (read c').map fun p => (f p.1, p.2)) :
    ReadsTo (readOne type) c b r ↔ ∃ a, f a = b ∧ ReadsTo read c' a r := by
  unfold ReadsTo
  simp only [h, map_eq_ok]
  constructor
  · rintro ⟨behind, next, ⟨⟨a, behind'⟩, hread, hpair⟩, hnext⟩
    cases hpair
    exact ⟨a, rfl, behind', next, hread, hnext⟩
  · rintro ⟨a, rfl, behind, next, hread, hnext⟩
    exact ⟨behind, next, ⟨(a, behind), hread, rfl⟩, hnext⟩

theorem readOne_of_not_sigil {type : SlotType} {c : Cursor}
    (h : ∀ first ∈ c.rest.head?, isSigil first = false) :
    readOne type c = readLiteral type c := by
  unfold readOne
  split
  · next heq => exact absurd (h '$' (by rw [heq]; rfl)) (by decide)
  · next heq => exact absurd (h '&' (by rw [heq]; rfl)) (by decide)
  · next heq => exact absurd (h '%' (by rw [heq]; rfl)) (by decide)
  · rfl

theorem trimBack_sigil {sigil : Char} (h : isSigil sigil = true) (cs : List Char) :
    trimBack (sigil :: cs) = sigil :: trimBack cs := by
  have htight : Tight [sigil] := tight_of_forall fun c hc => by
    rw [List.mem_singleton.mp hc]
    exact isBlank_of_isSigil h
  exact trimBack_append htight.2 cs

/-- Only a piece without a sigil spells a constant. -/
theorem spells_iff_of_not_sigil {type : SlotType} {piece : List Char} {b : Binding}
    (h : ∀ first ∈ (trimChars piece).head?, isSigil first = false) :
    Spells type piece b ↔ ∃ value, b = .const value ∧ trimChars piece ≠ [] ∧
      AbiValue.read type (String.ofList (trimChars piece)) = .ok value := by
  have hno : ∀ sigil others, isSigil sigil = true → trimChars piece ≠ sigil :: others := by
    intro sigil others hsigil heq
    rw [h sigil (by rw [heq]; rfl)] at hsigil
    cases hsigil
  cases b with
  | const value =>
    rw [Spells, and_iff_right h]
    simp
  | subSlot name => simp [Spells, hno '&' name.toList (by decide)]
  | placeholder name => simp [Spells, hno '%' name.toList (by decide)]
  | piped index =>
    have hnone : ∀ digits, trimChars piece ≠ '$' :: digits :=
      fun digits => hno '$' digits (by decide)
    simp [Spells, hnone]

/-- A step reads the binding that the piece in front of the next comma spells. -/
theorem readOne_iff {type : SlotType} {piece : List Char} {b : Binding} (hpiece : ',' ∉ piece)
    (hrest : AtBreak rest) :
    ReadsTo (readOne type) (Cursor.mk (piece ++ rest) pos).skipBlanks b r ↔
      Spells type piece b ∧ r = rest.drop 1 := by
  have hbody : ',' ∉ trimFront piece := fun h => hpiece ((List.dropWhile_suffix _).subset h)
  rw [skipBlanks_break hrest]
  generalize pos + byteLength (piece.takeWhile isBlank) = start
  by_cases hsigil : ∀ first ∈ (trimFront piece).head?, isSigil first = false
  · have hstart : ∀ first ∈ (trimFront piece ++ rest).head?, isSigil first = false := by
      intro first hfirst
      cases hfront : trimFront piece with
      | nil =>
        rw [hfront, List.nil_append] at hfirst
        rw [hrest first hfirst]
        rfl
      | cons c others =>
        rw [hfront] at hfirst hsigil
        exact hsigil first hfirst
    have htrimmed : ∀ first ∈ (trimChars piece).head?, isSigil first = false := by
      intro first hfirst
      obtain ⟨blanks, hsplit, -⟩ := exists_trimBack (trimFront piece)
      refine hsigil first ?_
      rw [hsplit, List.head?_append,
        show (trimBack (trimFront piece)).head? = some first from hfirst]
      rfl
    have hliteral : ReadsTo (readOne type) ⟨trimFront piece ++ rest, start⟩ b r ↔
        ReadsTo (readLiteral type) ⟨trimFront piece ++ rest, start⟩ b r := by
      unfold ReadsTo
      rw [readOne_of_not_sigil hstart]
    rw [hliteral, readsTo_literal hbody hrest, trimChars_trimFront,
      spells_iff_of_not_sigil htrimmed]
  · obtain ⟨sigil, hhead, hsigil⟩ : ∃ sigil, (trimFront piece).head? = some sigil ∧
        isSigil sigil = true := by simpa using hsigil
    obtain ⟨cs, hfront⟩ : ∃ cs, trimFront piece = sigil :: cs := List.head?_eq_some_iff.mp hhead
    have hcs : ',' ∉ cs := fun h => hbody (hfront ▸ List.mem_cons_of_mem sigil h)
    have htext : trimChars piece = sigil :: trimBack cs := by
      rw [trimChars, hfront, trimBack_sigil hsigil]
    rw [hfront]
    rcases eq_of_isSigil hsigil with rfl | rfl | rfl
    · have hstep : readOne type ⟨'&' :: cs ++ rest, start⟩ =
          (readName '&' ⟨cs ++ rest, start + byteLength ['&']⟩).map
            fun p => (subSlot p.1, p.2) := rfl
      rw [readsTo_of_map hstep]
      simp only [readsTo_name hcs hrest]
      cases b <;> simp [Spells, htext, isSigil]
    · have hstep : readOne type ⟨'%' :: cs ++ rest, start⟩ =
          (readName '%' ⟨cs ++ rest, start + byteLength ['%']⟩).map
            fun p => (placeholder p.1, p.2) := rfl
      rw [readsTo_of_map hstep]
      simp only [readsTo_name hcs hrest]
      cases b <;> simp [Spells, htext, isSigil]
    · have hstep : readOne type ⟨'$' :: cs ++ rest, start⟩ =
          (readIndex ⟨cs ++ rest, start + byteLength ['$']⟩).map
            fun p => (piped p.1, p.2) := rfl
      rw [readsTo_of_map hstep]
      simp only [readsTo_index hcs hrest]
      cases b <;> simp [Spells, htext, isSigil]

/-! ## All steps -/

/-- The pieces of the text spell the bindings; one more piece may follow if it is empty. -/
def Lists (types : List SlotType) (cs : List Char) (bs : List Binding) : Prop :=
  ∃ pieces, (cs.splitOn ',' = pieces ∨ cs.splitOn ',' = pieces ++ [[]]) ∧ Spelled types pieces bs

theorem lists_nil_iff {types : List SlotType} {bs : List Binding} :
    Lists types [] bs ↔ types = [] ∧ bs = [] := by
  unfold Lists
  rw [List.splitOn_nil]
  constructor
  · rintro ⟨pieces, hpieces | hpieces, hspelled⟩
    · subst hpieces
      cases hspelled with
      | cons hspells _ => exact absurd rfl hspells.ne_nil
    · obtain rfl : pieces = [] := by simpa using congrArg List.length hpieces
      cases hspelled
      exact ⟨rfl, rfl⟩
  · rintro ⟨rfl, rfl⟩
    exact ⟨[], .inr rfl, .nil⟩

theorem not_lists_nil_types {cs : List Char} {bs : List Binding} (hne : cs ≠ []) :
    ¬ Lists [] cs bs := by
  rintro ⟨pieces, hpieces, hspelled⟩
  cases hspelled
  rcases hpieces with hpieces | hpieces
  · exact List.splitOn_ne_nil ',' cs hpieces
  · have hjoined : [','].intercalate (cs.splitOn ',') = cs := List.intercalate_splitOn ','
    rw [hpieces] at hjoined
    exact hne (by simpa using hjoined.symm)

theorem spelled_cons_iff {type : SlotType} {types : List SlotType} {piece : List Char}
    {pieces : List (List Char)} {bs : List Binding} :
    Spelled (type :: types) (piece :: pieces) bs ↔
      ∃ b others, Spells type piece b ∧ Spelled types pieces others ∧ bs = b :: others := by
  constructor
  · intro h
    cases h with
    | cons hspells hspelled => exact ⟨_, _, hspells, hspelled, rfl⟩
  · rintro ⟨b, others, hspells, hspelled, rfl⟩
    exact .cons hspells hspelled

/-- The first piece, and what is listed behind its comma. -/
theorem lists_cons_iff {type : SlotType} {types : List SlotType} {piece : List Char}
    (hpiece : ',' ∉ piece) (hrest : AtBreak rest) {bs : List Binding} :
    Lists (type :: types) (piece ++ rest) bs ↔
      ∃ b others, Spells type piece b ∧ Lists types (rest.drop 1) others ∧ bs = b :: others := by
  cases rest with
  | nil =>
    rw [List.append_nil, List.drop_nil]
    simp only [lists_nil_iff]
    unfold Lists
    rw [List.splitOn_eq_singleton hpiece]
    constructor
    · rintro ⟨pieces, rfl | hpieces, hspelled⟩
      · obtain ⟨b, others, hspells, hothers, rfl⟩ := spelled_cons_iff.mp hspelled
        cases hothers
        exact ⟨b, [], hspells, ⟨rfl, rfl⟩, rfl⟩
      · obtain rfl : pieces = [] := by simpa using congrArg List.length hpieces
        cases hspelled
    · rintro ⟨b, others, hspells, ⟨rfl, rfl⟩, rfl⟩
      exact ⟨[piece], .inl rfl, .cons hspells .nil⟩
  | cons c tail =>
    obtain rfl : c = ',' := hrest c rfl
    rw [List.drop_one, List.tail_cons]
    unfold Lists
    rw [List.splitOn_append_cons_self_of_not_mem hpiece]
    constructor
    · rintro ⟨pieces, rfl | hpieces, hspelled⟩
      · obtain ⟨b, others, hspells, hothers, rfl⟩ := spelled_cons_iff.mp hspelled
        exact ⟨b, others, hspells, ⟨_, .inl rfl, hothers⟩, rfl⟩
      · cases hspelled with
        | cons hspells hothers =>
          obtain ⟨rfl, htail⟩ := List.cons.inj hpieces
          exact ⟨_, _, hspells, ⟨_, .inr htail, hothers⟩, rfl⟩
    · rintro ⟨b, others, hspells, ⟨pieces, hpieces, hothers⟩, rfl⟩
      refine ⟨piece :: pieces, ?_, .cons hspells hothers⟩
      exact hpieces.imp (congrArg (piece :: ·)) (congrArg (piece :: ·))

/-- Each step of the reader takes the first piece. -/
theorem readFrom_cons_iff {total : Nat} {type : SlotType} {types : List SlotType} {c : Cursor}
    {bs : List Binding} :
    readFrom total (type :: types) c = .ok bs ↔ ∃ b behind next,
      readOne type c.skipBlanks = .ok (b, behind) ∧ readSeparator behind = .ok next ∧
        if next.rest = [] then types = [] ∧ bs = [b]
        else ∃ others, readFrom total types next = .ok others ∧ bs = b :: others := by
  have hlast : ∀ (b : Binding) (next : Cursor),
      (if next.atEnd then
          if types.isEmpty then pure [b]
          else throw ⟨.wrongCount total (total - types.length), next.pos⟩
        else do
          let others ← readFrom total types next
          pure (b :: others) : Except ReadError (List Binding)) = .ok bs ↔
        if next.rest = [] then types = [] ∧ bs = [b]
        else ∃ others, readFrom total types next = .ok others ∧ bs = b :: others := by
    intro b next
    unfold Cursor.atEnd
    by_cases hend : next.rest = []
    · cases types with
      | nil => simp [hend, pure, Except.pure, eq_comm]
      | cons other types => simp [hend, throw, throwThe, MonadExceptOf.throw]
    · simp only [List.isEmpty_iff, hend, if_false, bind_eq_ok]
      simp [pure, Except.pure, eq_comm]
  constructor
  · intro h
    obtain ⟨⟨b, behind⟩, hone, h⟩ := bind_eq_ok.mp h
    obtain ⟨next, hseparator, h⟩ := bind_eq_ok.mp h
    exact ⟨b, behind, next, hone, hseparator, (hlast b next).mp h⟩
  · rintro ⟨b, behind, next, hone, hseparator, h⟩
    exact bind_eq_ok.mpr ⟨_, hone, bind_eq_ok.mpr ⟨next, hseparator, (hlast b next).mpr h⟩⟩

/-- Every text has a piece in front of its first comma. -/
theorem exists_break (cs : List Char) :
    ∃ piece rest, cs = piece ++ rest ∧ ',' ∉ piece ∧ AtBreak rest := by
  refine ⟨cs.takeWhile (· != ','), cs.dropWhile (· != ','),
    List.takeWhile_append_dropWhile.symm, fun h => ?_, fun c hc => ?_⟩
  · have hne := List.mem_takeWhile_imp h
    simp at hne
  · simpa using head?_dropWhile_eq_false c hc

theorem readFrom_eq_ok_iff {total : Nat} {types : List SlotType} {c : Cursor} {bs : List Binding}
    (hne : c.rest ≠ []) : readFrom total types c = .ok bs ↔ Lists types c.rest bs := by
  induction types generalizing c bs with
  | nil => exact iff_of_false nofun (not_lists_nil_types hne)
  | cons type types ih =>
    obtain ⟨cs, pos⟩ := c
    obtain ⟨piece, rest, rfl, hpiece, hrest⟩ := exists_break cs
    rw [readFrom_cons_iff, lists_cons_iff hpiece hrest]
    constructor
    · rintro ⟨b, behind, next, hone, hseparator, hnext⟩
      obtain ⟨hspells, hbehind⟩ :=
        (readOne_iff hpiece hrest).mp ⟨behind, next, hone, hseparator, rfl⟩
      rw [← hbehind]
      split at hnext
      · next hend =>
        obtain ⟨htypes, rfl⟩ := hnext
        exact ⟨b, [], hspells, hend ▸ lists_nil_iff.mpr ⟨htypes, rfl⟩, rfl⟩
      · next hmore =>
        obtain ⟨others, hothers, rfl⟩ := hnext
        exact ⟨b, others, hspells, (ih hmore).mp hothers, rfl⟩
    · rintro ⟨b, others, hspells, hothers, rfl⟩
      obtain ⟨behind, next, hone, hseparator, hbehind⟩ :=
        (readOne_iff hpiece hrest).mpr ⟨hspells, rfl⟩
      rw [← hbehind] at hothers
      refine ⟨b, behind, next, hone, hseparator, ?_⟩
      split
      · next hend =>
        rw [hend] at hothers
        obtain ⟨htypes, rfl⟩ := lists_nil_iff.mp hothers
        exact ⟨htypes, rfl⟩
      · next hmore => exact ⟨others, (ih hmore).mpr hothers, rfl⟩

/-! ## Texts -/

theorem skipBlanks_skipBlanks (c : Cursor) : c.skipBlanks.skipBlanks = c.skipBlanks := by
  have hnone : (c.rest.dropWhile isBlank).takeWhile isBlank = [] :=
    takeWhile_of_head? head?_dropWhile_eq_false
  unfold Cursor.skipBlanks Cursor.takeWhile
  dsimp only
  rw [hnone, List.dropWhile_idempotent]
  rfl

theorem readList_eq_ok_iff_lists {types : List SlotType} (hne : types ≠ []) {s : String}
    {bs : List Binding} : readList types s = .ok bs ↔ Lists types s.toList bs := by
  obtain ⟨type, types, rfl⟩ := List.exists_cons_of_ne_nil hne
  have hskip : readFrom (type :: types).length (type :: types) (Cursor.start s).skipBlanks =
      readFrom (type :: types).length (type :: types) (Cursor.start s) := by
    unfold readFrom
    rw [skipBlanks_skipBlanks]
  unfold readList
  dsimp only
  rw [hskip]
  by_cases hend : (Cursor.start s).skipBlanks.rest = []
  · -- a text of blanks is one piece that spells nothing
    have hfront : trimFront s.toList = [] := hend
    have hcomma : ',' ∉ s.toList := fun h => by
      have hblank := List.dropWhile_eq_nil_iff.mp hfront ',' h
      revert hblank
      decide
    have hbreak : AtBreak [] := by simp [AtBreak]
    have hnone : ¬ Lists (type :: types) (s.toList ++ []) bs := by
      rw [lists_cons_iff hcomma hbreak]
      rintro ⟨b, others, hspells, -⟩
      refine hspells.ne_nil ?_
      rw [trimChars, hfront]
      rfl
    rw [List.append_nil] at hnone
    refine iff_of_false ?_ hnone
    simp [Cursor.atEnd, hend]
  · have hrest : (Cursor.start s).rest ≠ [] := fun hnil => hend (by
      unfold Cursor.skipBlanks Cursor.takeWhile
      rw [hnil]
      rfl)
    have hmore : ¬ (Cursor.start s).skipBlanks.atEnd = true := by
      simpa [Cursor.atEnd] using hend
    rw [if_neg hmore]
    exact readFrom_eq_ok_iff hrest

/-- The pieces of a text between its commas. -/
def pieces (s : String) : List (List Char) :=
  s.toList.splitOn ','

theorem pieces_append_comma (front : String) : pieces (front ++ ",") = pieces front ++ [[]] := by
  unfold pieces
  rw [String.toList_append]
  exact List.splitOn_append_cons_self front.toList []

/-- The last piece is empty exactly behind a last comma, but for the empty text. -/
theorem exists_comma_of_pieces {s : String} {ps : List (List Char)} (hne : ps ≠ [])
    (h : pieces s = ps ++ [[]]) : ∃ front, s = front ++ "," ∧ pieces front = ps := by
  have hplain : ∀ piece ∈ ps, ',' ∉ piece := by
    intro piece hpiece
    have hmem : piece ∈ pieces s := h ▸ List.mem_append_left _ hpiece
    exact (mem_of_mem_splitOn hmem).1
  have hpieces : ([','].intercalate ps).splitOn ',' = ps := List.splitOn_intercalate ',' hplain hne
  refine ⟨String.ofList ([','].intercalate ps), ?_, by rwa [pieces, String.toList_ofList]⟩
  have hsplit : pieces (String.ofList ([','].intercalate ps) ++ ",") = pieces s := by
    rw [pieces_append_comma, pieces, String.toList_ofList, hpieces, h]
  have hjoined := congrArg [','].intercalate hsplit
  unfold pieces at hjoined
  rw [List.intercalate_splitOn, List.intercalate_splitOn] at hjoined
  exact (String.toList_injective hjoined).symm

theorem Spelled.length {types : List SlotType} {ps : List (List Char)} {bs : List Binding}
    (h : Spelled types ps bs) : ps.length = types.length := by
  induction h with
  | nil => rfl
  | cons _ _ ih => rw [List.length_cons, List.length_cons, ih]

theorem lists_iff {types : List SlotType} (hne : types ≠ []) {s : String} {bs : List Binding} :
    Lists types s.toList bs ↔ Spelled types (pieces s) bs ∨
      ∃ front, s = front ++ "," ∧ Spelled types (pieces front) bs := by
  constructor
  · rintro ⟨ps, rfl | hps, hspelled⟩
    · exact .inl hspelled
    · have hps_ne : ps ≠ [] := by
        rintro rfl
        exact hne (List.eq_nil_of_length_eq_zero hspelled.length.symm)
      obtain ⟨front, hs, rfl⟩ := exists_comma_of_pieces hps_ne hps
      exact .inr ⟨front, hs, hspelled⟩
  · rintro (hspelled | ⟨front, rfl, hspelled⟩)
    · exact ⟨_, .inl rfl, hspelled⟩
    · exact ⟨_, .inr (pieces_append_comma front), hspelled⟩

/-- What pieces spell is up to the blanks around each. -/
theorem Spelled.congr {types : List SlotType} {ps : List (List Char)} {bs : List Binding}
    (h : Spelled types ps bs) {ps' : List (List Char)}
    (htrim : ps'.map trimChars = ps.map trimChars) : Spelled types ps' bs := by
  induction h generalizing ps' with
  | nil =>
    obtain rfl : ps' = [] := List.map_eq_nil_iff.mp htrim
    exact .nil
  | @cons type piece b types ps bs hspells _ ih =>
    obtain ⟨piece', others, rfl, hpiece, hothers⟩ := List.map_eq_cons_iff.mp htrim
    refine .cons ?_ (ih hothers)
    unfold Spells at hspells ⊢
    rwa [hpiece]

/-- Texts whose pieces are the same but for blanks are read alike, if both end in a comma or
    neither does. -/
theorem Lists.congr {types : List SlotType} {s s' : String} {bs : List Binding}
    (h : Lists types s.toList bs) (htrim : (pieces s').map trimChars = (pieces s).map trimChars)
    (hlast : (pieces s').getLast? = some [] ↔ (pieces s).getLast? = some []) :
    Lists types s'.toList bs := by
  obtain ⟨ps, hps | hps, hspelled⟩ := h
  · exact ⟨pieces s', .inl rfl, hspelled.congr (by rw [htrim, pieces, hps])⟩
  · have hend : (pieces s').getLast? = some [] := by
      rw [hlast, pieces, hps]
      simp
    obtain ⟨ps', hps'⟩ := List.getLast?_eq_some_iff.mp hend
    refine ⟨ps', .inr hps', hspelled.congr ?_⟩
    rw [hps', pieces, hps, List.map_append, List.map_append] at htrim
    exact List.append_cancel_right htrim

/-- A list is read as what its pieces spell, and a text is refused if a piece is missing, spells
    nothing or is one too many. The one exception is a comma at the very end: it is passed over
    behind a list that is complete. So a text with the right number of pieces is read exactly as
    they are spelled, and blanks around pieces decide nothing unless they alone keep the last
    piece from being empty. -/
theorem readList_eq_ok_iff {types : List SlotType} (h : types ≠ []) {s : String}
    {bs : List Binding} :
    (readList types s = .ok bs ↔ Spelled types (pieces s) bs ∨
      ∃ front, s = front ++ "," ∧ Spelled types (pieces front) bs) ∧
    ((pieces s).length = types.length →
      (readList types s = .ok bs ↔ Spelled types (pieces s) bs)) ∧
    ∀ s', (pieces s').map trimChars = (pieces s).map trimChars →
      ((pieces s').getLast? = some [] ↔ (pieces s).getLast? = some []) →
      (readList types s' = .ok bs ↔ readList types s = .ok bs) := by
  have hread : readList types s = .ok bs ↔ Spelled types (pieces s) bs ∨
      ∃ front, s = front ++ "," ∧ Spelled types (pieces front) bs :=
    (readList_eq_ok_iff_lists h).trans (lists_iff h)
  refine ⟨hread, fun hcount => ?_, fun s' htrim hlast => ?_⟩
  · rw [hread, or_iff_left]
    rintro ⟨front, rfl, hspelled⟩
    rw [pieces_append_comma, List.length_append, hspelled.length] at hcount
    simp at hcount
  · rw [readList_eq_ok_iff_lists h, readList_eq_ok_iff_lists h]
    exact ⟨fun hs' => hs'.congr htrim.symm hlast.symm, fun hs => hs.congr htrim hlast⟩

/-- The parameters of a transfer, with blanks around some of the pieces. -/
theorem readList_eq_ok_iff_transfer :
    [SlotType.address, .address, .uint 256] ≠ [] ∧
      readList [.address, .address, .uint 256] " %token , &proxy,$03 " =
        .ok [.placeholder "token", .subSlot "proxy", .piped 3] := by
  have hne : [SlotType.address, .address, .uint 256] ≠ [] := by decide
  have htoken : IsName "token" := ⟨by decide, List.all_iff_forall_prop.mp (by decide +kernel)⟩
  have hproxy : IsName "proxy" := ⟨by decide, List.all_iff_forall_prop.mp (by decide +kernel)⟩
  have hspelled : Spelled [.address, .address, .uint 256] (pieces " %token , &proxy,$03 ")
      [.placeholder "token", .subSlot "proxy", .piped 3] :=
    .cons ⟨htoken, by decide⟩ (.cons ⟨hproxy, by decide⟩
      (.cons ⟨by decide, ['0', '3'], by decide, 1, by decide⟩ .nil))
  exact ⟨hne, (readList_eq_ok_iff hne).1.mpr (.inl hspelled)⟩

/-- The text has two pieces for the one parameter, and the second is empty. It is read, while one
    more blank is one parameter too many. -/
theorem readList_lastComma :
    pieces "50," = [['5', '0'], []] ∧
      (¬ ∃ bs, Spelled [.uint 256] (pieces "50,") bs) ∧
      readList [.uint 256] "50," = .ok [.const (.uint 50 256)] ∧
      (pieces "50, ").map trimChars = (pieces "50,").map trimChars ∧
      readList [.uint 256] "50, " = .error ⟨.tooMany 1, 4⟩ := by
  have hpieces : pieces "50," = [['5', '0'], []] := by decide
  refine ⟨hpieces, ?_, by decide +kernel, by decide +kernel, by decide +kernel⟩
  rintro ⟨bs, hspelled⟩
  have hcount := hspelled.length
  rw [hpieces] at hcount
  cases hcount

end Binding

end Autopilot
