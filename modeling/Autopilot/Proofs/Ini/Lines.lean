/-
  The lines of a configuration file, written down and read.

  An entry with any value reads as the entry with what the line leaves of the value
  (`CleanKey.read_entry`): a comment is cut off, and blanks at the ends are trimmed. Of a clean
  value it leaves everything, so a line of clean names and values reads as what was written
  (`read_chars`). Whatever a line says, its value is clean (`clean_of_read`): tight, on one line
  and without a comment sign, so it can be written again.
-/
import Autopilot.Ini
import Autopilot.Proofs.Text.Names
import Autopilot.Proofs.Text.Pieces

namespace Autopilot.Ini

open Text

/-! ## Names and values -/

/-- The text fits between the signs of a line: no blank at its ends, no end of the line and no
    comment sign in it. -/
structure Clean (s : String) : Prop where
  tight : Tight s.toList
  plain : ∀ c ∈ s.toList, c ≠ '\n' ∧ isCommentSign c = false

/-- The text may stand in front of the sign: it does not look like a heading and ends before the
    sign. -/
structure CleanKey (s : String) : Prop extends Clean s where
  ne_nil : s.toList ≠ []
  not_heading : s.toList.head? ≠ some '['
  undelimited : ∀ c ∈ s.toList, isDelimiter c = false

/-- Where no blank stands, no line ends. -/
theorem clean_of_forall {s : String}
    (h : ∀ c ∈ s.toList, isBlank c = false ∧ isCommentSign c = false) : Clean s where
  tight := tight_of_forall fun c hc => (h c hc).1
  plain := by
    intro c hc
    refine ⟨?_, (h c hc).2⟩
    rintro rfl
    exact absurd (h '\n' hc).1 (by decide)

/-- No character of a name starts a comment, and none is a sign of a line. -/
theorem signs_of_isNameChar {c : Char} (h : isNameChar c = true) :
    isCommentSign c = false ∧ isDelimiter c = false ∧ c ≠ '[' := by
  have hsigns : ∀ sign ∈ [';', '#', '=', ':', '['], isNameChar sign = false :=
    List.all_iff_forall_prop.mp (by decide +kernel)
  have hnot : ∀ sign ∈ [';', '#', '=', ':', '['], c ≠ sign :=
    fun sign hsign => ne_of_isNameChar h (hsigns sign hsign)
  simp only [List.mem_cons, List.not_mem_nil, or_false, forall_eq_or_imp, forall_eq] at hnot
  simp [isCommentSign, isDelimiter, hnot]

theorem clean_of_isNameChar {s : String} (h : ∀ c ∈ s.toList, isNameChar c = true) : Clean s :=
  clean_of_forall fun c hc => ⟨isBlank_of_isNameChar (h c hc), (signs_of_isNameChar (h c hc)).1⟩

theorem cleanKey_of_isNameChar {s : String} (hne : s.toList ≠ [])
    (h : ∀ c ∈ s.toList, isNameChar c = true) : CleanKey s where
  toClean := clean_of_isNameChar h
  ne_nil := hne
  not_heading := fun hhead => (signs_of_isNameChar (h '[' (List.mem_of_head? hhead))).2.2 rfl
  undelimited := fun c hc => (signs_of_isNameChar (h c hc)).2.1

theorem Clean.append {s t : String} (hs : Clean s) (hsne : s.toList ≠ []) (ht : Clean t)
    (htne : t.toList ≠ []) : Clean (s ++ t) := by
  refine ⟨?_, fun c hc => ?_⟩
  · have htight := tight_append hs.tight hsne ht.tight htne []
    simpa using htight
  · rw [String.toList_append, List.mem_append] at hc
    exact hc.elim (hs.plain c) (ht.plain c)

/-- A list of clean entries. -/
theorem clean_intercalate {pieces : List String}
    (h : ∀ piece ∈ pieces, Clean piece ∧ piece.toList ≠ []) :
    Clean (", ".intercalate pieces) := by
  refine ⟨?_, fun c hc => ?_⟩
  · rw [String.toList_intercalate]
    refine tight_intercalate fun cs hcs => ?_
    obtain ⟨piece, hpiece, rfl⟩ := List.mem_map.mp hcs
    exact ⟨(h piece hpiece).1.tight, (h piece hpiece).2⟩
  · rw [String.toList_intercalate] at hc
    rcases mem_of_mem_intercalate hc with hsep | ⟨cs, hcs, hc⟩
    · have hall : ∀ d ∈ ", ".toList, d ≠ '\n' ∧ isCommentSign d = false :=
        List.all_iff_forall_prop.mp (by decide)
      exact hall c hsep
    · obtain ⟨piece, hpiece, rfl⟩ := List.mem_map.mp hcs
      exact (h piece hpiece).1.plain c hc

theorem clean_empty : Clean "" :=
  clean_of_forall (by simp)

/-! ## Reading a line that was written -/

/-- A line as it is written. -/
def Line.chars : Line → List Char
  | .nothing => []
  | .heading name => '[' :: (name.toList ++ [']'])
  | .entry key none => key.toList
  | .entry key (some value) => key.toList ++ ' ' :: '=' :: ' ' :: value.toList

/-- The line can be written so that it is read back. -/
def Line.Writable : Line → Prop
  | .nothing => True
  | .heading name => Clean name
  | .entry key none => CleanKey key
  | .entry key (some value) => CleanKey key ∧ Clean value

/-- Without a comment sign a line is only trimmed. -/
theorem read_eq_ofContent {number : Nat} {cs content : List Char} (htrim : trimChars cs = content)
    (hplain : ∀ c ∈ content, isCommentSign c = false) :
    Line.read number cs = Line.ofContent number content := by
  have htight : Tight content := htrim ▸ tight_trimChars cs
  have hwhole : content.takeWhile (fun c => !isCommentSign c) = content :=
    List.takeWhile_eq_self_iff.mpr fun c hc => by simp [hplain c hc]
  unfold Line.read
  rw [htrim, hwhole, trimChars_of_tight htight]

theorem ofContent_heading {number : Nat} {name : String} (h : Tight name.toList) :
    Line.ofContent number ('[' :: (name.toList ++ [']'])) = .ok (.heading name) := by
  have hname : headingName? (name.toList ++ [']']) = some name := by
    unfold headingName?
    simp [trimChars_of_tight h]
  simp only [Line.ofContent, hname]

/-- A line that is no heading is split at the first sign. -/
theorem ofContent_of_head? {number : Nat} {cs : List Char} (hne : cs ≠ [])
    (hhead : cs.head? ≠ some '[') :
    Line.ofContent number cs =
      match cs.span (fun c => !isDelimiter c) with
      | (key, []) => .ok (.entry (String.ofList (trimChars key)) none)
      | (key, _ :: value) =>
        match trimChars key with
        | [] => .error (.emptyKey number)
        | name => .ok (.entry (String.ofList name) (some (String.ofList (trimChars value)))) := by
  unfold Line.ofContent
  split
  · exact absurd rfl hne
  · exact absurd rfl hhead
  · rfl

theorem CleanKey.ofContent_alone {key : String} (h : CleanKey key) (number : Nat) :
    Line.ofContent number key.toList = .ok (.entry key none) := by
  have hspan : key.toList.span (fun c => !isDelimiter c) = (key.toList, []) := by
    have hall : ∀ c ∈ key.toList, (!isDelimiter c) = true := fun c hc => by
      simp [h.undelimited c hc]
    rw [List.span_eq_takeWhile_dropWhile, List.takeWhile_eq_self_iff.mpr hall,
      List.dropWhile_eq_nil_iff.mpr hall]
  rw [ofContent_of_head? h.ne_nil h.not_heading, hspan]
  dsimp only
  rw [trimChars_of_tight h.tight, String.ofList_toList]

/-- What stands behind the sign is trimmed. -/
theorem CleanKey.ofContent_entry {key : String} (h : CleanKey key) (number : Nat)
    (behind : List Char) :
    Line.ofContent number (key.toList ++ ' ' :: '=' :: behind) =
      .ok (.entry key (some (String.ofList (trimChars behind)))) := by
  have hspan : (key.toList ++ ' ' :: '=' :: behind).span (fun c => !isDelimiter c) =
      (key.toList ++ [' '], '=' :: behind) := by
    have hsplit : key.toList ++ ' ' :: '=' :: behind = (key.toList ++ [' ']) ++ '=' :: behind := by
      simp
    rw [hsplit]
    refine span_append_cons (fun c hc => ?_) rfl
    rcases List.mem_append.mp hc with hc | hc
    · simp [h.undelimited c hc]
    · rw [List.mem_singleton.mp hc]
      rfl
  have hne : key.toList ++ ' ' :: '=' :: behind ≠ [] := by simp
  have hhead : (key.toList ++ ' ' :: '=' :: behind).head? ≠ some '[' := by
    rw [List.head?_append_of_ne_nil _ h.ne_nil]
    exact h.not_heading
  rw [ofContent_of_head? hne hhead, hspan]
  dsimp only
  rw [trimChars_append_blank h.tight]
  split
  · next hnil => exact absurd hnil h.ne_nil
  · rw [String.ofList_toList]

/-- What a line leaves of a value: a comment is cut off, and blanks at its ends are trimmed. -/
def valueLeft (value : String) : String :=
  String.ofList (trimChars (value.toList.takeWhile fun c => !isCommentSign c))

theorem valueLeft_of_clean {value : String} (h : Clean value) : valueLeft value = value := by
  have hwhole : value.toList.takeWhile (fun c => !isCommentSign c) = value.toList :=
    List.takeWhile_eq_self_iff.mpr fun c hc => by simp [(h.plain c hc).2]
  unfold valueLeft
  rw [hwhole, trimChars_of_tight h.tight, String.ofList_toList]

theorem clean_valueLeft {value : String} (h : '\n' ∉ value.toList) : Clean (valueLeft value) := by
  unfold valueLeft
  refine ⟨?_, ?_⟩
  · rw [String.toList_ofList]
    exact tight_trimChars _
  · intro c hc
    rw [String.toList_ofList] at hc
    have hcut := mem_of_mem_trimChars hc
    have hplain := List.mem_takeWhile_imp hcut
    refine ⟨?_, by simpa using hplain⟩
    rintro rfl
    exact h ((List.takeWhile_prefix _).subset hcut)

theorem not_isCommentSign_of_isBlank {c : Char} (h : isBlank c = true) :
    (!isCommentSign c) = true := by
  have hnot : ∀ sign ∈ [';', '#'], c ≠ sign := by
    rintro sign hsign rfl
    have hsigns : ∀ sign ∈ [';', '#'], isBlank sign = false :=
      List.all_iff_forall_prop.mp (by decide)
    rw [hsigns c hsign] at h
    cases h
  simp only [List.mem_cons, List.not_mem_nil, or_false, forall_eq_or_imp, forall_eq] at hnot
  simp [isCommentSign, hnot]

/-- An entry with any value is read as one with what the line leaves of it. -/
theorem CleanKey.read_entry {key : String} (h : CleanKey key) (number : Nat) (value : String) :
    Line.read number (key.toList ++ ' ' :: '=' :: ' ' :: value.toList) =
      .ok (.entry key (some (valueLeft value))) := by
  have hfront : Tight (key.toList ++ [' '] ++ ['=']) :=
    tight_append h.tight h.ne_nil (tight_of_forall (by simp [isBlank])) (List.cons_ne_nil _ _) [' ']
  have hplain : ∀ c ∈ key.toList ++ [' '] ++ ['='], (!isCommentSign c) = true := by
    intro c hc
    simp only [List.append_assoc, List.mem_append, List.mem_singleton] at hc
    rcases hc with hc | rfl | rfl
    · simp [(h.plain c hc).2]
    · rfl
    · rfl
  -- trimming and cutting leave the key and its sign as they are
  have htrim : ∀ behind, trimChars ((key.toList ++ [' '] ++ ['=']) ++ behind) =
      (key.toList ++ [' '] ++ ['=']) ++ trimBack behind := by
    intro behind
    have hhead : ∀ c ∈ ((key.toList ++ [' '] ++ ['=']) ++ behind).head?, isBlank c = false := by
      rw [List.head?_append_of_ne_nil _ (by simp)]
      exact hfront.1
    unfold trimChars trimFront
    rw [dropWhile_of_head? hhead, trimBack_append hfront.2]
  have hblank : (' ' :: value.toList).takeWhile (fun c => !isCommentSign c) =
      ' ' :: value.toList.takeWhile fun c => !isCommentSign c := rfl
  have hentry := h.ofContent_entry number (trimBack (' ' :: value.toList.takeWhile fun c =>
    !isCommentSign c))
  rw [trimChars_trimBack, trimChars_cons_of_isBlank rfl] at hentry
  have hline : ∀ behind, key.toList ++ ' ' :: '=' :: behind =
      (key.toList ++ [' '] ++ ['=']) ++ behind := by simp
  rw [hline] at hentry ⊢
  unfold Line.read
  rw [htrim, List.takeWhile_append_of_pos hplain, htrim,
    trimBack_takeWhile fun c hc => not_isCommentSign_of_isBlank hc, hblank]
  exact hentry

/-- A line that is written is read as what it says. -/
theorem Line.read_chars {line : Line} (h : line.Writable) (number : Nat) :
    Line.read number line.chars = .ok line := by
  cases line with
  | nothing => rfl
  | heading name =>
    have hclean : Clean name := h
    have htight : Tight ('[' :: (name.toList ++ [']'])) :=
      ⟨by simp; decide, by simp [List.getLast?_cons]; decide⟩
    have hplain : ∀ c ∈ '[' :: (name.toList ++ [']']), isCommentSign c = false := by
      intro c hc
      rcases List.mem_cons.mp hc with rfl | hc
      · rfl
      · rcases List.mem_append.mp hc with hc | hc
        · exact (hclean.plain c hc).2
        · rw [List.mem_singleton.mp hc]
          rfl
    show Line.read number ('[' :: (name.toList ++ [']'])) = _
    rw [read_eq_ofContent (trimChars_of_tight htight) hplain, ofContent_heading hclean.tight]
  | entry key value? =>
    cases value? with
    | none =>
      have hkey : CleanKey key := h
      show Line.read number key.toList = _
      rw [read_eq_ofContent (trimChars_of_tight hkey.tight) fun c hc => (hkey.plain c hc).2,
        hkey.ofContent_alone]
    | some value =>
      obtain ⟨hkey, hvalue⟩ : CleanKey key ∧ Clean value := h
      show Line.read number (key.toList ++ ' ' :: '=' :: ' ' :: value.toList) = _
      rw [hkey.read_entry, valueLeft_of_clean hvalue]

/-- No line that can be written has an end of the line in it. -/
theorem Line.Writable.on_one_line {line : Line} (h : line.Writable) : '\n' ∉ line.chars := by
  have hclean : ∀ s : String, Clean s → '\n' ∉ s.toList :=
    fun s hs hmem => (hs.plain '\n' hmem).1 rfl
  cases line with
  | nothing => simp [chars]
  | heading name =>
    have hname := hclean name h
    simp [chars, hname]
  | entry key value? =>
    cases value? with
    | none => exact hclean key h.toClean
    | some value =>
      obtain ⟨hkey, hvalue⟩ : CleanKey key ∧ Clean value := h
      have hkey' := hclean key hkey.toClean
      have hvalue' := hclean value hvalue
      simp [chars, hkey', hvalue']

/-- The line stands on one line, and reads as the other one. -/
def Line.ReadsAs (line line' : Line) : Prop :=
  '\n' ∉ line.chars ∧ ∀ number, Line.read number line.chars = .ok line'

theorem Line.Writable.readsAs {line : Line} (h : line.Writable) : line.ReadsAs line :=
  ⟨h.on_one_line, read_chars h⟩

theorem CleanKey.readsAs {key : String} (h : CleanKey key) {value : String}
    (hvalue : '\n' ∉ value.toList) :
    (Line.entry key (some value)).ReadsAs (.entry key (some (valueLeft value))) := by
  have hkey : '\n' ∉ key.toList := fun hmem => (h.plain '\n' hmem).1 rfl
  refine ⟨?_, fun number => h.read_entry number value⟩
  simp [Line.chars, hkey, hvalue]

/-! ## What a line may say -/

/-- The value of an entry is what stands behind a sign, trimmed. -/
theorem value_of_ofContent {number : Nat} {cs : List Char} {key value : String}
    (h : Line.ofContent number cs = .ok (.entry key (some value))) :
    ∃ behind, value = String.ofList (trimChars behind) ∧ ∀ c ∈ behind, c ∈ cs := by
  unfold Line.ofContent at h
  split at h
  · cases h
  · split at h
    · cases h
    · cases h
  · rw [List.span_eq_takeWhile_dropWhile] at h
    split at h
    · cases h
    · next front sign behind hspan =>
      have hback := (Prod.mk.inj hspan).2
      have hsub : ∀ c ∈ behind, c ∈ cs := by
        intro c hc
        have hmem : c ∈ cs.dropWhile (fun c => !isDelimiter c) := by
          rw [hback]
          exact List.mem_cons_of_mem _ hc
        exact (List.dropWhile_suffix _).subset hmem
      split at h
      · cases h
      · cases h
        exact ⟨behind, rfl, hsub⟩

/-- Whatever the line says, its value can be written again. -/
theorem clean_of_read {number : Nat} {cs : List Char} {key value : String}
    (h : Line.read number cs = .ok (.entry key (some value))) (hline : '\n' ∉ cs) :
    Clean value := by
  obtain ⟨behind, rfl, hsub⟩ := value_of_ofContent h
  refine ⟨?_, ?_⟩
  · rw [String.toList_ofList]
    exact tight_trimChars behind
  · intro c hc
    rw [String.toList_ofList] at hc
    -- the character stands in the line, in front of every comment sign
    have hcut := mem_of_mem_trimChars (hsub c (mem_of_mem_trimChars hc))
    have hplain := List.mem_takeWhile_imp hcut
    have hmem := mem_of_mem_trimChars ((List.takeWhile_prefix _).subset hcut)
    refine ⟨?_, by simpa using hplain⟩
    rintro rfl
    exact hline hmem

end Autopilot.Ini
