/-
  Files of strategies that come from bytes: which describe the strategy that they are written for.

  Bytes carry any name, but a line of a file leaves of a name only what stands in front of a
  comment sign, without the blanks at its ends. So a file may be read as that of another strategy
  (`withNameLeft`), and no file says for itself that it is.

  Proved here: a decoded strategy is built again from its file exactly if it can be written, and
  otherwise not at all or as another; if only its name is at fault, as the one under the name that
  is left (`rebuilt_of_decode`).
-/
import Autopilot.Proofs.StrategyFile.RoundTrip
import Mathlib.Data.String.Basic

namespace Autopilot.StrategyFile

open Ini (Line valueLeft clean_valueLeft)

/-! ## The name that is left -/

/-- The strategy under the name that a line of its file leaves. -/
def withNameLeft (s : Strategy) : Strategy :=
  { s with name := valueLeft s.name }

/-- What a line leaves of a text is not longer than the text. -/
theorem utf8ByteSize_valueLeft (value : String) :
    (valueLeft value).utf8ByteSize ≤ value.utf8ByteSize := by
  have hsublist : (valueLeft value).toList.Sublist value.toList := by
    unfold valueLeft
    rw [String.toList_ofList]
    exact (Text.trimChars_sublist _).trans (List.takeWhile_prefix _).sublist
  rw [← String.utf8Len_toList, ← String.utf8Len_toList]
  exact String.utf8Len_le_of_sublist hsublist

theorem built_withNameLeft {s : Strategy} (h : s.Built) (hline : '\n' ∉ s.name.toList)
    (hleft : valueLeft s.name ≠ "") : (withNameLeft s).Built := by
  have hne : (valueLeft s.name).toList ≠ [] := fun hnil => hleft (String.toList_eq_nil_iff.mp hnil)
  refine h.rename ⟨_, List.head_mem hne, ?_⟩ ?_
  · exact (clean_valueLeft hline).tight.1 _ (List.head_mem_head? hne)
  · exact Nat.le_trans (utf8ByteSize_valueLeft s.name) h.wellFormed.name_bytes

/-! ## Reading it -/

/-- The lines of a strategy's file behind its name. -/
def linesBehindName (s : Strategy) : List Line :=
  .entry "continuous" (some (flavorText s.flavor)) ::
    ((slotEntries s.subSlots).map fun e => Line.entry e.1 (some e.2)) ++
      (operationSections s .trigger ++ operationSections s .action).flatMap
        fun w => .nothing :: w.lines

theorem linesOf_sections (s : Strategy) :
    Ini.linesOf (sections s) =
      .heading "strategy" :: .entry "name" (some s.name) :: linesBehindName s := rfl

theorem linesBehindName_withNameLeft (s : Strategy) :
    linesBehindName (withNameLeft s) = linesBehindName s := by
  simp only [linesBehindName, operationSections, Strategy.ofKind, withNameLeft]

/-- A file whose name is at fault reads as the one with the name that is left. -/
theorem read_render_withNameLeft {s : Strategy} (hline : '\n' ∉ s.name.toList)
    (h : Writable (withNameLeft s)) (hs : (withNameLeft s).Built) :
    Ini.read (render s) = Ini.read (render (withNameLeft s)) := by
  have hleft := Ini.readsAs_of_writable (Ini.writable_linesOf (writable_sections h hs))
  have hlines : List.Forall₂ Line.ReadsAs (Ini.linesOf (sections s))
      (Ini.linesOf (sections (withNameLeft s))) := by
    have hkey : Ini.CleanKey "name" := cleanKey "name" (by simp)
    rw [linesOf_sections, linesBehindName_withNameLeft] at hleft
    rw [linesOf_sections s, linesOf_sections (withNameLeft s), linesBehindName_withNameLeft]
    obtain ⟨hheading, hrest⟩ := List.forall₂_cons.mp hleft
    exact .cons hheading (.cons (hkey.readsAs hline) (List.forall₂_cons.mp hrest).2)
  rw [render_eq_write, render_eq_write]
  unfold Ini.write
  rw [Ini.read_lines hlines, Ini.read_lines hleft]

theorem rebuilt_withNameLeft {s : Strategy} (h : Writable (withNameLeft s)) (hs : s.Built)
    (hline : '\n' ∉ s.name.toList) (hleft : valueLeft s.name ≠ "") :
    ∃ ini, Ini.read (render s) = .ok ini ∧ build ini = .ok (withNameLeft s) := by
  have hbuilt := built_withNameLeft hs hline hleft
  rw [read_render_withNameLeft hline h hbuilt]
  exact read_render h hbuilt

/-- **Files of decoded strategies.** A decoded strategy is built again from its file exactly if
    it can be written, and whatever is built from the file is this strategy exactly if it can be.
    If all but its name can be written, and the name stands on one line, then what is built is the
    strategy under the name that is left, unless nothing is left of it. -/
theorem rebuilt_of_decode {bytes : List UInt8} {s : Strategy} (h : Wire.decode bytes = .ok s) :
    ((∃ ini, Ini.read (render s) = .ok ini ∧ build ini = .ok s) ↔ Writable s) ∧
    (∀ ini s', Ini.read (render s) = .ok ini → build ini = .ok s' → (s' = s ↔ Writable s)) ∧
    (Writable (withNameLeft s) → '\n' ∉ s.name.toList → valueLeft s.name ≠ "" →
      ∃ ini, Ini.read (render s) = .ok ini ∧ build ini = .ok (withNameLeft s)) := by
  have hs : s.Built := (Wire.decode_eq_ok_iff.mp h).1
  have hwritable : ∀ ini, Ini.read (render s) = .ok ini → build ini = .ok s → Writable s :=
    fun ini hread hbuild => writable_of_build (Ini.cleanValues_of_read hread) hbuild
  refine ⟨⟨?_, ?_⟩, ?_, ?_⟩
  · rintro ⟨ini, hread, hbuild⟩
    exact hwritable ini hread hbuild
  · intro hwrite
    exact read_render hwrite hs
  · intro ini s' hread hbuild
    constructor
    · rintro rfl
      exact hwritable ini hread hbuild
    · intro hwrite
      obtain ⟨ini', hread', hbuild'⟩ := read_render hwrite hs
      cases hread.symm.trans hread'
      exact Except.ok.inj (hbuild.symm.trans hbuild')
  · exact fun hleft hline hne => rebuilt_withNameLeft hleft hs hline hne

/-! ## A strategy under another name -/

/-- The strategy `draw` under a name with a comment sign in it. -/
def weekly : Strategy :=
  { draw with name := "draw ; weekly" }

theorem build_weekly : { drawDraft with name := "draw ; weekly" }.build = .ok weekly := rfl

theorem decode_weekly : Wire.decode (Wire.encode weekly) = .ok weekly :=
  Wire.decode_eq_ok_iff.mpr ⟨(build_eq_ok_iff.mp build_weekly).2,
    ⟨Wire.encodable_draw.consts_fit, Wire.encodable_draw.slots_legal⟩, rfl⟩

theorem withNameLeft_weekly : withNameLeft weekly = draw := by decide +kernel

theorem writable_withNameLeft_weekly : Writable (withNameLeft weekly) := by
  rw [withNameLeft_weekly]
  exact writable_of_build (Ini.cleanValues_of_read read_drawText) build_drawIni

theorem not_writable_weekly : ¬ Writable weekly := by
  intro h
  exact absurd (h.name.plain ';' (by decide +kernel)).2 (by decide)

/-- The file of a decoded strategy may describe another one. -/
theorem weekly_rebuilt_as_draw :
    Wire.decode (Wire.encode weekly) = .ok weekly ∧
      (∃ ini, Ini.read (render weekly) = .ok ini ∧ build ini = .ok draw) ∧ draw ≠ weekly := by
  refine ⟨decode_weekly, ?_, by decide +kernel⟩
  have hrebuilt := rebuilt_withNameLeft writable_withNameLeft_weekly
    (Wire.decode_eq_ok_iff.mp decode_weekly).1 (by decide +kernel) (by decide +kernel)
  rwa [withNameLeft_weekly] at hrebuilt

theorem rebuilt_of_decode_weekly :
    (∃ ini, Ini.read (render weekly) = .ok ini ∧ build ini = .ok (withNameLeft weekly)) ∧
      ¬ ∃ ini, Ini.read (render weekly) = .ok ini ∧ build ini = .ok weekly := by
  obtain ⟨hiff, -, hleft⟩ := rebuilt_of_decode decode_weekly
  exact ⟨hleft writable_withNameLeft_weekly (by decide +kernel) (by decide +kernel),
    fun hsame => not_writable_weekly (hiff.mp hsame)⟩

end Autopilot.StrategyFile
