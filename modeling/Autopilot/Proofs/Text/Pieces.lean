/-
  Texts that are put together and taken apart again.

  A text is tight if no blank stands at its ends. Trimming returns tight texts
  (`tight_trimChars`), and of a tight text with blanks around it that text (`trimChars_pad`).
  Pieces without a separator that are joined by it, a blank behind each, are split into these
  pieces, all but the first with the blank in front (`splitOn_commaBlank`).
-/
import Autopilot.Text.Blank
import Autopilot.Value
import Mathlib.Data.List.DropRight
import Mathlib.Data.List.TakeDrop

namespace Autopilot

namespace Text

/-! ## Runs -/

theorem head?_dropWhile_eq_false {p : Char → Bool} {cs : List Char} :
    ∀ c ∈ (cs.dropWhile p).head?, p c = false := by
  intro c hc
  have hnot := List.head?_dropWhile_not p cs
  rw [Option.mem_def.mp hc] at hnot
  simpa using hnot

/-- Where a run ends at once, all is left. -/
theorem dropWhile_of_head? {p : Char → Bool} {cs : List Char} (h : ∀ c ∈ cs.head?, p c = false) :
    cs.dropWhile p = cs := by
  cases cs with
  | nil => rfl
  | cons c cs =>
    have hc := h c rfl
    exact List.dropWhile_cons_of_neg (by simp [hc])

theorem takeWhile_of_head? {p : Char → Bool} {cs : List Char} (h : ∀ c ∈ cs.head?, p c = false) :
    cs.takeWhile p = [] := by
  cases cs with
  | nil => rfl
  | cons c cs =>
    have hc := h c rfl
    exact List.takeWhile_cons_of_neg (by simp [hc])

/-! ## Trimming -/

/-- No blank stands at either end. -/
def Tight (cs : List Char) : Prop :=
  (∀ c ∈ cs.head?, isBlank c = false) ∧ ∀ c ∈ cs.getLast?, isBlank c = false

theorem isBlank_blank : ∀ c ∈ [' '], isBlank c = true := by
  simp [isBlank]

theorem tight_of_forall {cs : List Char} (h : ∀ c ∈ cs, isBlank c = false) : Tight cs :=
  ⟨fun c hc => h c (List.mem_of_head? hc), fun c hc => h c (List.mem_of_getLast? hc)⟩

/-- What stands between tight texts does not matter. -/
theorem tight_append {cs ds : List Char} (h : Tight cs) (hne : cs ≠ []) (h' : Tight ds)
    (hne' : ds ≠ []) (between : List Char) : Tight (cs ++ between ++ ds) := by
  constructor
  · intro c hc
    rw [List.append_assoc, List.head?_append_of_ne_nil _ hne] at hc
    exact h.1 c hc
  · intro c hc
    rw [List.getLast?_append_of_ne_nil _ hne'] at hc
    exact h'.2 c hc

/-- Nothing in front of a character that is not blank is trimmed at the back. -/
theorem trimBack_append {cs : List Char} (h : ∀ c ∈ cs.getLast?, isBlank c = false)
    (ds : List Char) : trimBack (cs ++ ds) = cs ++ trimBack ds := by
  have hstop : cs.reverse.dropWhile isBlank = cs.reverse := by
    refine dropWhile_of_head? fun c hc => h c ?_
    rwa [List.head?_reverse] at hc
  unfold trimBack
  rw [List.reverse_append, List.dropWhile_append, hstop]
  split
  · next hempty => simp [List.isEmpty_iff.mp hempty]
  · simp

theorem trimBack_blanks {blanks : List Char} (h : ∀ c ∈ blanks, isBlank c = true)
    (cs : List Char) : trimBack (cs ++ blanks) = trimBack cs := by
  have hall : ∀ c ∈ blanks.reverse, isBlank c = true := by simpa using h
  unfold trimBack
  rw [List.reverse_append, List.dropWhile_append_of_pos hall]

/-- What is trimmed at the back is blank. -/
theorem exists_trimBack (cs : List Char) :
    ∃ blanks, cs = trimBack cs ++ blanks ∧ ∀ c ∈ blanks, isBlank c = true := by
  refine ⟨(cs.reverse.takeWhile isBlank).reverse, ?_, ?_⟩
  · unfold trimBack
    rw [← List.reverse_append, List.takeWhile_append_dropWhile, List.reverse_reverse]
  · intro c hc
    exact List.mem_takeWhile_imp (List.mem_reverse.mp hc)

/-- Trimming behind a cut, it makes no difference whether the back was trimmed before it. -/
theorem trimBack_takeWhile {p : Char → Bool} (hp : ∀ c, isBlank c = true → p c = true)
    (cs : List Char) : trimBack ((trimBack cs).takeWhile p) = trimBack (cs.takeWhile p) := by
  obtain ⟨blanks, hcs, hblanks⟩ := exists_trimBack cs
  have hkept : blanks.takeWhile p = blanks :=
    List.takeWhile_eq_self_iff.mpr fun c hc => hp c (hblanks c hc)
  conv_rhs => rw [hcs, List.takeWhile_append, hkept]
  split
  · next hwhole =>
    have hsame : (trimBack cs).takeWhile p = trimBack cs :=
      (List.takeWhile_prefix p).eq_of_length hwhole
    rw [hsame, trimBack_blanks hblanks]
  · rfl

/-- Blanks around a tight text are trimmed, and nothing else. -/
theorem trimChars_pad {front cs back : List Char} (hfront : ∀ c ∈ front, isBlank c = true)
    (hback : ∀ c ∈ back, isBlank c = true) (h : Tight cs) :
    trimChars (front ++ cs ++ back) = cs := by
  have hbehind : trimBack (cs ++ back) = cs := by
    have hkept : trimBack [] = [] := rfl
    rw [trimBack_append h.2, ← List.nil_append back, trimBack_blanks hback, hkept,
      List.append_nil]
  unfold trimChars trimFront
  rw [List.append_assoc, List.dropWhile_append_of_pos hfront]
  cases cs with
  | nil =>
    rw [List.nil_append, List.dropWhile_eq_nil_iff.mpr hback]
    rfl
  | cons c cs =>
    have hfirst : ∀ a ∈ (c :: cs ++ back).head?, isBlank a = false := h.1
    rw [dropWhile_of_head? hfirst, hbehind]

theorem trimChars_of_tight {cs : List Char} (h : Tight cs) : trimChars cs = cs := by
  have hpad : trimChars ([] ++ cs ++ []) = cs := trimChars_pad (by simp) (by simp) h
  simpa using hpad

theorem trimChars_cons_of_isBlank {c : Char} (h : isBlank c = true) (cs : List Char) :
    trimChars (c :: cs) = trimChars cs := by
  unfold trimChars trimFront
  rw [List.dropWhile_cons_of_pos h]

/-- The blank that stands behind a separator. -/
theorem trimChars_blank_cons {cs : List Char} (h : Tight cs) : trimChars (' ' :: cs) = cs := by
  rw [trimChars_cons_of_isBlank rfl, trimChars_of_tight h]

theorem trimChars_append_blank {cs : List Char} (h : Tight cs) : trimChars (cs ++ [' ']) = cs := by
  have hpad : trimChars ([] ++ cs ++ [' ']) = cs := trimChars_pad (by simp) isBlank_blank h
  simpa using hpad

theorem trimChars_trimBack (cs : List Char) : trimChars (trimBack cs) = trimChars cs := by
  obtain ⟨blanks, hcs, hblanks⟩ := exists_trimBack cs
  unfold trimChars trimFront
  conv_rhs => rw [hcs, List.dropWhile_append, List.dropWhile_eq_nil_iff.mpr hblanks]
  split
  · next hempty => rw [List.isEmpty_iff.mp hempty]
  · rw [trimBack_blanks hblanks]

theorem trimChars_trimFront (cs : List Char) : trimChars (trimFront cs) = trimChars cs := by
  unfold trimChars trimFront
  rw [List.dropWhile_idempotent]

theorem trimBack_eq_rdropWhile (cs : List Char) : trimBack cs = cs.rdropWhile isBlank := rfl

theorem tight_trimChars (cs : List Char) : Tight (trimChars cs) := by
  unfold trimChars
  rw [trimBack_eq_rdropWhile]
  constructor
  · intro c hc
    -- what is left at the back is a beginning of what is left at the front
    obtain ⟨rest, hrest⟩ := List.rdropWhile_prefix isBlank (l := trimFront cs)
    have hfirst : (trimFront cs).head? = some c := by
      rw [← hrest, List.head?_append, hc]
      rfl
    exact head?_dropWhile_eq_false c hfirst
  · intro c hc
    have hne : (trimFront cs).rdropWhile isBlank ≠ [] := by
      intro hnil
      rw [hnil] at hc
      cases hc
    have hlast := List.rdropWhile_last_not isBlank (trimFront cs) hne
    rw [List.getLast?_eq_some_getLast hne, Option.mem_some_iff] at hc
    rw [← hc]
    simpa using hlast

theorem trimChars_sublist (cs : List Char) : (trimChars cs).Sublist cs := by
  unfold trimChars
  rw [trimBack_eq_rdropWhile]
  exact (List.rdropWhile_prefix isBlank _).sublist.trans (List.dropWhile_suffix isBlank).sublist

theorem mem_of_mem_trimChars {cs : List Char} {c : Char} (h : c ∈ trimChars cs) : c ∈ cs :=
  (trimChars_sublist cs).subset h

theorem toList_trim (s : String) : (trim s).toList = trimChars s.toList :=
  String.toList_ofList

theorem trim_of_tight {s : String} (h : Tight s.toList) : trim s = s := by
  unfold trim
  rw [trimChars_of_tight h, String.ofList_toList]

/-! ## Splitting -/

theorem mem_of_mem_splitOn {sep : Char} {cs piece : List Char} (h : piece ∈ cs.splitOn sep) :
    sep ∉ piece ∧ ∀ c ∈ piece, c ∈ cs := by
  induction cs generalizing piece with
  | nil =>
    rw [List.splitOn_nil, List.mem_singleton] at h
    simp [h]
  | cons x xs ih =>
    rw [List.splitOn_cons_eq_if_modifyHead] at h
    by_cases hx : x = sep
    · rw [if_pos (by simpa using hx), List.mem_cons] at h
      rcases h with rfl | h
      · simp
      · obtain ⟨hsep, hsub⟩ := ih h
        exact ⟨hsep, fun c hc => List.mem_cons_of_mem x (hsub c hc)⟩
    · rw [if_neg (by simpa using hx)] at h
      obtain ⟨first, rest, hsplit⟩ := List.exists_cons_of_ne_nil (List.splitOn_ne_nil sep xs)
      rw [hsplit, List.modifyHead_cons, List.mem_cons] at h
      rcases h with rfl | h
      · obtain ⟨hsep, hsub⟩ := ih (hsplit ▸ List.mem_cons_self)
        refine ⟨by simp [hsep, Ne.symm hx], fun c hc => ?_⟩
        exact (List.mem_cons.mp hc).elim (fun heq => heq ▸ List.mem_cons_self)
          fun hc => List.mem_cons_of_mem x (hsub c hc)
      · obtain ⟨hsep, hsub⟩ := ih (hsplit ▸ List.mem_cons_of_mem first h)
        exact ⟨hsep, fun c hc => List.mem_cons_of_mem x (hsub c hc)⟩

theorem intercalate_commaBlank (first : List Char) (rest : List (List Char)) :
    [',', ' '].intercalate (first :: rest) =
      [','].intercalate (first :: rest.map (' ' :: ·)) := by
  induction rest generalizing first with
  | nil => rfl
  | cons next rest ih =>
    have hblank : [','].intercalate ((' ' :: next) :: rest.map (' ' :: ·)) =
        ' ' :: [','].intercalate (next :: rest.map (' ' :: ·)) := by
      cases rest with
      | nil => rfl
      | cons last rest => rfl
    rw [List.intercalate_cons_cons, ih, List.map_cons, List.intercalate_cons_cons, hblank]
    simp

theorem intercalate_ne_nil {sep first : List Char} (h : first ≠ []) (rest : List (List Char)) :
    sep.intercalate (first :: rest) ≠ [] := by
  cases rest with
  | nil => simpa using h
  | cons next rest => simp [List.intercalate_cons_cons, h]

theorem tight_intercalate {sep : List Char} {pieces : List (List Char)}
    (h : ∀ piece ∈ pieces, Tight piece ∧ piece ≠ []) : Tight (sep.intercalate pieces) := by
  induction pieces with
  | nil => exact tight_of_forall (by simp)
  | cons first rest ih =>
    obtain ⟨htight, hne⟩ := h first List.mem_cons_self
    have hrest := fun piece hpiece => h piece (List.mem_cons_of_mem first hpiece)
    cases rest with
    | nil => simpa using htight
    | cons next rest =>
      rw [List.intercalate_cons_cons]
      exact tight_append htight hne (ih hrest)
        (intercalate_ne_nil (hrest next List.mem_cons_self).2 rest) sep

theorem mem_of_mem_intercalate {sep : List Char} {pieces : List (List Char)} {c : Char}
    (h : c ∈ sep.intercalate pieces) : c ∈ sep ∨ ∃ piece ∈ pieces, c ∈ piece := by
  induction pieces with
  | nil => simp at h
  | cons first rest ih =>
    cases rest with
    | nil =>
      rw [List.intercalate_singleton] at h
      exact .inr ⟨first, List.mem_cons_self, h⟩
    | cons next rest =>
      rw [List.intercalate_cons_cons, List.mem_append, List.mem_append] at h
      rcases h with (h | h) | h
      · exact .inr ⟨first, List.mem_cons_self, h⟩
      · exact .inl h
      · refine (ih h).imp_right fun hpiece => ?_
        obtain ⟨piece, hmem, hc⟩ := hpiece
        exact ⟨piece, List.mem_cons_of_mem first hmem, hc⟩

/-- Pieces without a comma that are joined by commas with a blank behind each. -/
theorem splitOn_commaBlank {first : List Char} {rest : List (List Char)}
    (h : ∀ piece ∈ first :: rest, ',' ∉ piece) :
    ([',', ' '].intercalate (first :: rest)).splitOn ',' =
      first :: rest.map (' ' :: ·) := by
  rw [intercalate_commaBlank]
  refine List.splitOn_intercalate ',' ?_ (List.cons_ne_nil _ _)
  intro piece hpiece
  rcases List.mem_cons.mp hpiece with rfl | hpiece
  · exact h _ List.mem_cons_self
  · obtain ⟨other, hother, rfl⟩ := List.mem_map.mp hpiece
    simpa using h other (List.mem_cons_of_mem first hother)

/-- A run that ends before the first character without the property. -/
theorem span_append_cons {p : Char → Bool} {cs rest : List Char} {c : Char}
    (h : ∀ a ∈ cs, p a = true) (hc : p c = false) :
    (cs ++ c :: rest).span p = (cs, c :: rest) := by
  have hc' : ¬ p c = true := by simp [hc]
  rw [List.span_eq_takeWhile_dropWhile, List.takeWhile_append_of_pos h,
    List.dropWhile_append_of_pos h, List.takeWhile_cons_of_neg hc', List.append_nil,
    List.dropWhile_cons_of_neg hc']

end Text

/-! ## The first occurrence of a character -/

theorem splitAtFirst?_append {c : Char} {s t : String} (h : c ∉ s.toList) :
    splitAtFirst? c (s ++ String.singleton c ++ t) = some (s, t) := by
  have hlist : (s ++ String.singleton c ++ t).toList = s.toList ++ c :: t.toList := by simp
  have hspan : (s.toList ++ c :: t.toList).span (· != c) = (s.toList, c :: t.toList) := by
    refine Text.span_append_cons ?_ (by simp)
    intro a ha
    rw [bne_iff_ne]
    rintro rfl
    exact h ha
  unfold splitAtFirst?
  rw [hlist, hspan]
  simp

theorem of_splitAtFirst? {c : Char} {s before after : String}
    (h : splitAtFirst? c s = some (before, after)) :
    c ∉ before.toList ∧ s.toList = before.toList ++ c :: after.toList := by
  unfold splitAtFirst? at h
  rw [List.span_eq_takeWhile_dropWhile] at h
  split at h
  · cases h
  · next front found rest hspan =>
    obtain ⟨hfront, hback⟩ := Prod.mk.inj hspan
    obtain ⟨hbefore, hafter⟩ := Prod.mk.inj (Option.some.inj h)
    have hhead : found ∈ (s.toList.dropWhile (· != c)).head? := by
      rw [hback]
      rfl
    have hfound : (found != c) = false := Text.head?_dropWhile_eq_false found hhead
    have hsame : found = c := by simpa using hfound
    have happend : s.toList.takeWhile (· != c) ++ s.toList.dropWhile (· != c) = s.toList :=
      List.takeWhile_append_dropWhile
    rw [hback, hsame] at happend
    rw [← hbefore, ← hafter, String.toList_ofList, String.toList_ofList, ← hfront, happend]
    refine ⟨fun hmem => ?_, rfl⟩
    have hne := List.mem_takeWhile_imp hmem
    simp at hne

end Autopilot
