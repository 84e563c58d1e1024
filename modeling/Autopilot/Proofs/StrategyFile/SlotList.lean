/-
  The list of sub-slots of a strategy file, written and read.

  A declaration can be written if its name is clean, not empty and without the signs of the list,
  and its type is legal. A list of such declarations is read back (`readList_text`), and a list
  that was read from a clean value consists of such declarations (`writable_of_readList`).
-/
import Autopilot.Proofs.Ini.Lines
import Autopilot.Proofs.Outcome
import Autopilot.Proofs.Value
import Autopilot.StrategyFile

namespace Autopilot

open Text

/-! ## Entries -/

/-- Entries that are joined are found again. -/
theorem commaEntries_intercalate {pieces : List String}
    (h : ∀ piece ∈ pieces, Tight piece.toList ∧ piece.toList ≠ [] ∧ ',' ∉ piece.toList) :
    commaEntries (", ".intercalate pieces) = pieces := by
  unfold commaEntries
  rw [String.toList_intercalate]
  cases pieces with
  | nil => decide
  | cons first rest =>
    have hcomma : ∀ cs ∈ first.toList :: rest.map String.toList, ',' ∉ cs := by
      intro cs hcs
      rw [← List.map_cons] at hcs
      obtain ⟨piece, hpiece, rfl⟩ := List.mem_map.mp hcs
      exact (h piece hpiece).2.2
    have hfirst : trim (String.ofList first.toList) = first := by
      rw [String.ofList_toList]
      exact trim_of_tight (h first List.mem_cons_self).1
    have hrest : ((rest.map String.toList).map (' ' :: ·)).map
        (fun cs => trim (String.ofList cs)) = rest := by
      rw [List.map_map, List.map_map]
      refine (List.map_congr_left fun piece hpiece => ?_).trans (List.map_id rest)
      have htight := (h piece (List.mem_cons_of_mem first hpiece)).1
      show trim (String.ofList (' ' :: piece.toList)) = piece
      unfold trim
      rw [String.toList_ofList, trimChars_blank_cons htight, String.ofList_toList]
    have hsplit := splitOn_commaBlank hcomma
    rw [List.map_cons, show ", ".toList = [',', ' '] from rfl, hsplit, List.map_cons, hfirst, hrest]
    refine List.filter_eq_self.mpr fun piece hpiece => ?_
    have hne := (h piece hpiece).2.1
    rw [decide_eq_true_eq]
    rintro rfl
    exact hne rfl

theorem mem_commaEntries {s entry : String} (h : entry ∈ commaEntries s) :
    ',' ∉ entry.toList ∧ ∀ c ∈ entry.toList, c ∈ s.toList := by
  unfold commaEntries at h
  obtain ⟨cs, hcs, rfl⟩ := List.mem_map.mp (List.mem_of_mem_filter h)
  obtain ⟨hcomma, hsub⟩ := mem_of_mem_splitOn hcs
  have hback : ∀ c ∈ (trim (String.ofList cs)).toList, c ∈ cs := by
    intro c hc
    rw [toList_trim, String.toList_ofList] at hc
    exact mem_of_mem_trimChars hc
  exact ⟨fun hmem => hcomma (hback ',' hmem), fun c hc => hsub c (hback c hc)⟩

namespace SubSlot

/-! ## Declarations -/

/-- The declaration can be written in a list so that it is read back. -/
structure Writable (slot : SubSlot) : Prop where
  clean : Ini.Clean slot.name
  ne_nil : slot.name.toList ≠ []
  unlisted : ',' ∉ slot.name.toList ∧ ':' ∉ slot.name.toList
  legal : slot.type.legal = true

/-- The part of a declaration from the colon on. -/
theorem isNameChar_behind (type : SlotType) :
    ∀ c ∈ (":" ++ type.text).toList, c = ':' ∨ isNameChar c = true := by
  intro c hc
  rw [String.toList_append, List.mem_append] at hc
  refine hc.imp (fun hc => ?_) (type.isNameChar_text c)
  simpa using hc

theorem Writable.clean_text {slot : SubSlot} (h : slot.Writable) :
    Ini.Clean slot.text ∧ slot.text.toList ≠ [] ∧ ',' ∉ slot.text.toList := by
  have htext : slot.text = slot.name ++ (":" ++ slot.type.text) := String.append_assoc
  have hbehind : Ini.Clean (":" ++ slot.type.text) := by
    refine Ini.clean_of_forall fun c hc => ?_
    rcases isNameChar_behind slot.type c hc with rfl | hname
    · decide
    · exact ⟨isBlank_of_isNameChar hname, (Ini.signs_of_isNameChar hname).1⟩
  rw [htext]
  refine ⟨h.clean.append h.ne_nil hbehind (by simp), by simp, ?_⟩
  rw [String.toList_append, List.mem_append, not_or]
  refine ⟨h.unlisted.1, fun hmem => ?_⟩
  rcases isNameChar_behind slot.type ',' hmem with hcolon | hname
  · exact absurd hcolon (by decide)
  · exact ne_of_isNameChar hname isNameChar_comma rfl

theorem read_text {slot : SubSlot} (h : slot.Writable) : SubSlot.read slot.text = .ok slot := by
  have hsplit : splitAtFirst? ':' slot.text = some (slot.name, slot.type.text) :=
    splitAtFirst?_append h.unlisted.2
  have hne : slot.name ≠ "" := fun heq => h.ne_nil (by rw [heq]; rfl)
  unfold SubSlot.read
  rw [hsplit]
  dsimp only
  rw [trim_of_tight h.clean.tight, if_neg hne, SlotType.read_text_eq_ok_iff.mpr ⟨rfl, h.legal⟩]

theorem writable_of_read {entry : String} {slot : SubSlot} (h : SubSlot.read entry = .ok slot)
    (hcomma : ',' ∉ entry.toList)
    (hplain : ∀ c ∈ entry.toList, c ≠ '\n' ∧ Ini.isCommentSign c = false) : slot.Writable := by
  unfold SubSlot.read at h
  cases hsplit : splitAtFirst? ':' entry with
  | none =>
    rw [hsplit] at h
    cases h
  | some parts =>
    obtain ⟨name, type⟩ := parts
    obtain ⟨hcolon, hentry⟩ := of_splitAtFirst? hsplit
    rw [hsplit] at h
    dsimp only at h
    split at h
    · cases h
    · next hne =>
      split at h
      · next type' htype =>
        cases h
        have hname : ∀ c ∈ (trim name).toList, c ∈ name.toList := by
          intro c hc
          rw [toList_trim] at hc
          exact mem_of_mem_trimChars hc
        have hsub : ∀ c ∈ (trim name).toList, c ∈ entry.toList := by
          intro c hc
          rw [hentry]
          exact List.mem_append_left _ (hname c hc)
        refine ⟨⟨?_, fun c hc => hplain c (hsub c hc)⟩, ?_, ?_, SlotType.legal_of_read htype⟩
        · rw [toList_trim]
          exact tight_trimChars name.toList
        · exact fun hnil => hne (String.toList_eq_nil_iff.mp hnil)
        · exact ⟨fun hmem => hcomma (hsub ',' hmem), fun hmem => hcolon (hname ':' hmem)⟩
      · cases h

/-! ## Lists -/

/-- Declarations as they are listed. -/
def listText (slots : List SubSlot) : String :=
  ", ".intercalate (slots.map SubSlot.text)

theorem clean_listText {slots : List SubSlot} (h : ∀ slot ∈ slots, slot.Writable) :
    Ini.Clean (listText slots) := by
  refine Ini.clean_intercalate fun piece hpiece => ?_
  obtain ⟨slot, hslot, rfl⟩ := List.mem_map.mp hpiece
  obtain ⟨hclean, hne, -⟩ := (h slot hslot).clean_text
  exact ⟨hclean, hne⟩

theorem readList_listText {slots : List SubSlot} (h : ∀ slot ∈ slots, slot.Writable) :
    SubSlot.readList (listText slots) = .ok slots := by
  have hentries : commaEntries (listText slots) = slots.map SubSlot.text := by
    refine commaEntries_intercalate fun piece hpiece => ?_
    obtain ⟨slot, hslot, rfl⟩ := List.mem_map.mp hpiece
    obtain ⟨hclean, hne, hcomma⟩ := (h slot hslot).clean_text
    exact ⟨hclean.tight, hne, hcomma⟩
  unfold SubSlot.readList
  rw [hentries, mapM_eq_ok, List.forall₂_map_left_iff, List.forall₂_same]
  exact fun slot hslot => read_text (h slot hslot)

theorem writable_of_readList {s : String} {slots : List SubSlot}
    (h : SubSlot.readList s = .ok slots) (hs : Ini.Clean s) : ∀ slot ∈ slots, slot.Writable := by
  intro slot hslot
  obtain ⟨entry, hentry, hread⟩ := exists_of_mem_right (mapM_eq_ok.mp h) hslot
  obtain ⟨hcomma, hsub⟩ := mem_commaEntries hentry
  exact writable_of_read hread hcomma fun c hc => hs.plain c (hsub c hc)

end SubSlot

end Autopilot
