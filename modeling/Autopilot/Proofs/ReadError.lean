/-
  Where the errors of the two text readers stand, and where their carets are drawn.

  Every place that a reader comes to is where a character of the text starts or where the text ends,
  and so is the position of every error. The position counts bytes, and the caret is drawn behind as
  many blanks. So it is below the character that the error is about exactly if all characters in
  front of that one are ASCII, and too far right otherwise.
-/
import Autopilot.Proofs.Binding.ByOffset
import Autopilot.Proofs.Outcome
import Autopilot.Proofs.Predicate.ByOffset

namespace Autopilot

open Text

/-! ## Positions -/

theorem isBoundary_of_read_error {text : String} {types : List SlotType} {e : ReadError}
    (h : Predicate.read text = .error e ∨ Binding.readList types text = .error e) :
    IsBoundary text e.position := by
  rcases h with hpredicate | hbindings
  · exact (Predicate.follows_read text).isBoundary_position hpredicate
  · exact (Binding.follows_list text types).isBoundary_position hbindings

/-- Both readers stand on boundaries all the way, with any text and any types, and find a slice
    wherever they ask for one: what they end with by offset is what they end with. The errors are on
    boundaries as well. -/
theorem readers_stay_on_boundaries (text : String) (types : List SlotType) :
    (∃ last : Head,
      Predicate.ByOffset.read text ⟨0, []⟩ = ((Predicate.read text).mapError .refused, last) ∧
        ∀ offset ∈ last.places, IsBoundary text offset ∧ offset ≤ text.utf8ByteSize) ∧
    (∃ last : Head,
      Binding.ByOffset.list types text ⟨0, []⟩ =
          ((Binding.readList types text).mapError .refused, last) ∧
        ∀ offset ∈ last.places, IsBoundary text offset ∧ offset ≤ text.utf8ByteSize) ∧
    ∀ e, Predicate.read text = .error e ∨ Binding.readList types text = .error e →
      IsBoundary text e.position ∧ e.position ≤ text.utf8ByteSize := by
  refine ⟨(Predicate.follows_read text).run_start, (Binding.follows_list text types).run_start, ?_⟩
  intro e herror
  have hposition := isBoundary_of_read_error herror
  exact ⟨hposition, hposition.le⟩

/-- The key of two bytes is passed as a whole. -/
theorem readers_stay_on_boundaries_accent :
    (∀ offset ∈ [14, 13, 12, 10, 9, 8, 0], IsBoundary "AT_LEAST(@é, x)" offset ∧ offset ≤ 16) ∧
      ¬ IsBoundary "AT_LEAST(@é, x)" 11 ∧
      Binding.readList [.bool] "%é, x" = .error ⟨.tooMany 1, 5⟩ ∧
      IsBoundary "%é, x" 5 ∧ 5 ≤ "%é, x".utf8ByteSize := by
  have herror : Binding.readList [.bool] "%é, x" = .error ⟨.tooMany 1, 5⟩ := by decide +kernel
  have hposition := (readers_stay_on_boundaries "%é, x" [.bool]).2.2 ⟨.tooMany 1, 5⟩ (.inr herror)
  refine ⟨?_, by decide +kernel, herror, hposition⟩
  obtain ⟨last, hrun, hplaces⟩ := (readers_stay_on_boundaries "AT_LEAST(@é, x)" []).1
  have hlast : last.places = [14, 13, 12, 10, 9, 8, 0] := by
    have hstood : (Predicate.ByOffset.read "AT_LEAST(@é, x)" ⟨0, []⟩).2.places =
        [14, 13, 12, 10, 9, 8, 0] := by decide +kernel
    rwa [hrun] at hstood
  rw [hlast] at hplaces
  exact hplaces

/-! ## Carets -/

/-- How many characters stand in front of the caret, in the second line of what is shown. -/
def caretColumn (shown : String) : Option Nat :=
  (shown.toList.splitOn '\n')[1]?.bind fun line => line.findIdx? (· == '^')

/-- Below a single line, one blank for each byte. -/
theorem caretColumn_withContext {source : String} (h : '\n' ∉ source.toList) (e : ReadError) :
    caretColumn (e.withContext source) = some e.position := by
  have hcaret : e.caretLine.toList = List.replicate e.position ' ' ++ ['^'] := by
    rw [ReadError.caretLine, String.toList_append, String.toList_ofList]
    rfl
  have hplain : '\n' ∉ e.caretLine.toList := by
    rw [hcaret]
    simp
  have hshown : (e.withContext source).toList =
      source.toList ++ '\n' :: (e.caretLine.toList ++ '\n' :: e.message.toList) := by
    simp [ReadError.withContext]
  rw [caretColumn, hshown, List.splitOn_append_cons_self_of_not_mem h,
    List.splitOn_append_cons_self_of_not_mem hplain, hcaret]
  simp [List.findIdx?_append, List.findIdx?_replicate]

/-- The caret is as far right as the text in front of the error is long in bytes. This is below the
    character at the error exactly if that text is ASCII. -/
theorem caretColumn_of_read_error (text : String) (types : List SlotType) (e : ReadError)
    (hline : '\n' ∉ text.toList)
    (herror : Predicate.read text = .error e ∨ Binding.readList types text = .error e) :
    ∃ front : String, slice? text 0 e.position = some front ∧
      caretColumn (e.withContext text) = some front.utf8ByteSize ∧
      (caretColumn (e.withContext text) = some front.length ↔
        ∀ c ∈ front.toList, c.toNat < 128) := by
  obtain ⟨front, hfront, hbytes⟩ := (isBoundary_of_read_error herror).slice?_front
  have hcolumn : caretColumn (e.withContext text) = some front.utf8ByteSize := by
    rw [caretColumn_withContext hline, hbytes]
  refine ⟨front, hfront, hcolumn, ?_⟩
  rw [hcolumn, Option.some_inj]
  exact utf8ByteSize_eq_length_iff

theorem caretColumn_of_read_error_accent :
    '\n' ∉ "%é, x".toList ∧ Binding.readList [.bool] "%é, x" = .error ⟨.tooMany 1, 5⟩ ∧
      ∃ front : String, slice? "%é, x" 0 5 = some front ∧
        caretColumn (ReadError.withContext ⟨.tooMany 1, 5⟩ "%é, x") = some front.utf8ByteSize ∧
        (caretColumn (ReadError.withContext ⟨.tooMany 1, 5⟩ "%é, x") = some front.length ↔
          ∀ c ∈ front.toList, c.toNat < 128) := by
  have hline : '\n' ∉ "%é, x".toList := by decide
  have herror : Binding.readList [.bool] "%é, x" = .error ⟨.tooMany 1, 5⟩ := by decide +kernel
  exact ⟨hline, herror,
    caretColumn_of_read_error "%é, x" [.bool] ⟨.tooMany 1, 5⟩ hline (.inr herror)⟩

/-- There are thirteen characters in front of the operand that cannot be read, and fourteen blanks
    in front of the caret. -/
theorem caretColumn_behind_accent :
    '\n' ∉ "AT_LEAST(@é, x)".toList ∧
      Predicate.read "AT_LEAST(@é, x)" = .error ⟨.operandExpected "x", 14⟩ ∧
      slice? "AT_LEAST(@é, x)" 0 14 = some "AT_LEAST(@é, " ∧ "AT_LEAST(@é, ".length = 13 ∧
      caretColumn (ReadError.withContext ⟨.operandExpected "x", 14⟩ "AT_LEAST(@é, x)") =
        some 14 := by
  have hline : '\n' ∉ "AT_LEAST(@é, x)".toList := by decide
  have herror : (Predicate.read "AT_LEAST(@é, x)").map (fun _ => ()) =
      .error ⟨.operandExpected "x", 14⟩ := by decide +kernel
  refine ⟨hline, map_eq_error.mp herror, ?_, by decide, caretColumn_withContext hline _⟩
  rw [slice?_eq_some_iff]
  exact ⟨"", "x)", by decide, by decide, by decide⟩

end Autopilot
