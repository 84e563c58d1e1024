/-
  Offsets into a text that are boundaries of characters, and slices between them.

  A text is held in UTF-8, and an offset counts bytes. It is a boundary if what stands in front of
  it is a text of its own; a slice may be cut only between boundaries (`slice?`). Both are said
  again of the characters: a boundary is where the bytes of some first characters end, and a slice
  is the characters between two boundaries. So a cursor that counts the bytes of the characters
  behind it stands on a boundary, and the slice from there to the end is what it has left.
-/
import Autopilot.Text.Cursor

namespace Autopilot.Text

/-! ## Bytes of characters -/

theorem utf8ByteSize_ofList (cs : List Char) : (String.ofList cs).utf8ByteSize = byteLength cs := by
  induction cs with
  | nil => rfl
  | cons c cs ih =>
    have hsize : (String.ofList (c :: cs)).utf8ByteSize =
        c.utf8Size + (String.ofList cs).utf8ByteSize := by simp
    rw [hsize, ih]
    rfl

theorem utf8ByteSize_eq (text : String) : text.utf8ByteSize = byteLength text.toList := by
  rw [← utf8ByteSize_ofList, String.ofList_toList]

theorem length_le_byteLength (cs : List Char) : cs.length ≤ byteLength cs := by
  induction cs with
  | nil => exact Nat.le_refl 0
  | cons c cs ih =>
    have hsize := c.utf8Size_pos
    have hlength : byteLength (c :: cs) = c.utf8Size + byteLength cs := rfl
    rw [List.length_cons, hlength]
    omega

theorem length_le_utf8ByteSize (s : String) : s.toList.length ≤ s.utf8ByteSize := by
  rw [utf8ByteSize_eq]
  exact length_le_byteLength s.toList

theorem byteLength_eq_zero_iff {cs : List Char} : byteLength cs = 0 ↔ cs = [] := by
  constructor
  · intro hzero
    have hlength := length_le_byteLength cs
    exact List.eq_nil_of_length_eq_zero (by omega)
  · rintro rfl
    rfl

/-- There are as many bytes as characters exactly if all characters are ASCII. -/
theorem byteLength_eq_length_iff {cs : List Char} :
    byteLength cs = cs.length ↔ ∀ c ∈ cs, c.toNat < 128 := by
  induction cs with
  | nil => simp [byteLength]
  | cons c cs ih =>
    have hsize := c.utf8Size_pos
    have hlength := length_le_byteLength cs
    have hone : c.utf8Size = 1 ↔ c.toNat < 128 := by
      rw [Char.utf8Size_eq_one_iff, UInt32.le_iff_toNat_le]
      exact Nat.lt_succ_iff.symm
    have hbytes : byteLength (c :: cs) = c.utf8Size + byteLength cs := rfl
    rw [List.forall_mem_cons, ← ih, ← hone, hbytes, List.length_cons]
    omega

theorem utf8ByteSize_eq_length_iff {text : String} :
    text.utf8ByteSize = text.length ↔ ∀ c ∈ text.toList, c.toNat < 128 := by
  rw [utf8ByteSize_eq, ← String.length_toList]
  exact byteLength_eq_length_iff

/-! ## Boundaries -/

/-- The offset is that of a place between two characters of the text, or of one of its ends. -/
abbrev IsBoundary (text : String) (offset : Nat) : Prop :=
  (⟨offset⟩ : String.Pos.Raw).IsValid text

variable {text : String} {offset start stop : Nat}

theorem IsBoundary.le (h : IsBoundary text offset) : offset ≤ text.utf8ByteSize :=
  h.le_rawEndPos

theorem isBoundary_iff :
    IsBoundary text offset ↔
      ∃ front back, text.toList = front ++ back ∧ offset = byteLength front := by
  rw [IsBoundary, String.Pos.Raw.isValid_iff_exists_append]
  constructor
  · rintro ⟨front, back, rfl, hoffset⟩
    refine ⟨front.toList, back.toList, String.toList_append, ?_⟩
    rw [← utf8ByteSize_eq]
    exact congrArg String.Pos.Raw.byteIdx hoffset
  · rintro ⟨front, back, htext, rfl⟩
    refine ⟨String.ofList front, String.ofList back, ?_, ?_⟩
    · rw [← String.ofList_append, ← htext, String.ofList_toList]
    · rw [← utf8ByteSize_ofList]
      rfl

theorem isBoundary_of_reaches {c : Cursor} (h : c.Reaches text.toList) : IsBoundary text c.pos := by
  obtain ⟨front, htext, hpos⟩ := h
  exact isBoundary_iff.mpr ⟨front, c.rest, htext, hpos⟩

/-! ## Slices -/

/-- The part of a text between two offsets, if they are boundaries in this order. -/
def slice? (text : String) (start stop : Nat) : Option String :=
  if h : (IsBoundary text start ∧ IsBoundary text stop) ∧ start ≤ stop then
    some (text.slice ⟨⟨start⟩, h.1.1⟩ ⟨⟨stop⟩, h.1.2⟩ h.2).copy
  else none

theorem slice?_eq_some_iff {piece : String} :
    slice? text start stop = some piece ↔ ∃ front back : String, text = front ++ (piece ++ back) ∧
      start = front.utf8ByteSize ∧ stop = start + piece.utf8ByteSize := by
  constructor
  · intro h
    unfold slice? at h
    split at h
    · next hends =>
      obtain ⟨front, back, hstart, hstop⟩ :=
        String.copy_slice_eq_iff_splits.mp ⟨hends.2, Option.some.inj h⟩
      have hfirst : start = front.utf8ByteSize :=
        congrArg String.Pos.Raw.byteIdx hstart.offset_eq_rawEndPos
      have hlast : stop = (front ++ piece).utf8ByteSize :=
        congrArg String.Pos.Raw.byteIdx hstop.offset_eq_rawEndPos
      refine ⟨front, back, hstart.eq_append, hfirst, ?_⟩
      rw [hlast, String.utf8ByteSize_append, hfirst]
    · cases h
  · rintro ⟨front, back, htext, rfl, rfl⟩
    have htext' : text = front ++ piece ++ back := by rw [htext, String.append_assoc]
    have hstart : IsBoundary text front.utf8ByteSize :=
      String.Pos.Raw.isValid_iff_exists_append.mpr ⟨front, piece ++ back, htext, rfl⟩
    have hend : (⟨front.utf8ByteSize + piece.utf8ByteSize⟩ : String.Pos.Raw) =
        (front ++ piece).rawEndPos := by
      simp [String.Pos.Raw.ext_iff]
    have hstop : IsBoundary text (front.utf8ByteSize + piece.utf8ByteSize) :=
      String.Pos.Raw.isValid_iff_exists_append.mpr ⟨front ++ piece, back, htext', hend⟩
    have hfirst : (⟨_, hstart⟩ : text.Pos).Splits front (piece ++ back) := ⟨htext, rfl⟩
    have hlast : (⟨_, hstop⟩ : text.Pos).Splits (front ++ piece) back := ⟨htext', hend⟩
    obtain ⟨hle, hcopy⟩ := String.copy_slice_eq_iff_splits.mpr ⟨front, back, hfirst, hlast⟩
    unfold slice?
    rw [dif_pos ⟨⟨hstart, hstop⟩, hle⟩, hcopy]

/-- Up to a boundary there is a slice, of as many bytes. -/
theorem IsBoundary.slice?_front (h : IsBoundary text offset) :
    ∃ front, slice? text 0 offset = some front ∧ offset = front.utf8ByteSize := by
  obtain ⟨front, back, htext, hoffset⟩ := isBoundary_iff.mp h
  rw [← utf8ByteSize_ofList] at hoffset
  refine ⟨String.ofList front, ?_, hoffset⟩
  refine slice?_eq_some_iff.mpr ⟨"", String.ofList back, ?_, rfl, ?_⟩
  · rw [String.empty_append, ← String.ofList_append, ← htext, String.ofList_toList]
  · rw [hoffset, Nat.zero_add]

end Autopilot.Text
