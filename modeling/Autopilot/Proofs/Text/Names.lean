/-
  Texts of letters, digits and underscores.

  A character of a name is neither blank nor a comma, on ASCII by evaluation and elsewhere because
  none of the wide blanks is a letter. Digits of any radix are characters of names, and so are all
  characters of the texts of values and types, whatever the case that a checksum asks for.
-/
import Autopilot.Proofs.Value
import Autopilot.Text.Alphanumeric
import Mathlib.Data.Bool.AllAny

namespace Autopilot

namespace Text

/-! ## Blanks and signs -/

/-- The blanks outside ASCII. -/
def wideBlanks : List Nat :=
  [133, 160, 5760, 8192, 8193, 8194, 8195, 8196, 8197, 8198, 8199, 8200, 8201, 8202, 8232, 8233,
    8239, 8287, 12288]

theorem mem_wideBlanks {c : Char} (h : isBlank c = true) (hwide : ¬ c.toNat < 128) :
    c.toNat ∈ wideBlanks := by
  simp only [isBlank, Bool.or_eq_true, Bool.and_eq_true, decide_eq_true_eq, beq_iff_eq] at h
  simp only [wideBlanks, List.mem_cons, List.not_mem_nil, or_false]
  omega

/-- No character of a name is blank. -/
theorem isBlank_of_isNameChar {c : Char} (h : isNameChar c = true) : isBlank c = false := by
  rw [Bool.eq_false_iff]
  intro hblank
  by_cases hsmall : c.toNat < 128
  · have hascii : ∀ n < 128, isBlank (Char.ofNat n) = true →
        ((Char.ofNat n).isAlphanum || Char.ofNat n == '_') = false := by decide +kernel
    rw [isNameChar_of_lt_128 hsmall] at h
    have hnot := hascii c.toNat hsmall
    rw [Char.ofNat_toNat] at hnot
    rw [hnot hblank] at h
    cases h
  · have hnone : ∀ n ∈ wideBlanks, alphanumerics.containsPoint n = false := by decide +kernel
    have hunderscore : c ≠ '_' := by
      rintro rfl
      exact hsmall (by decide)
    have hmem := hnone c.toNat (mem_wideBlanks hblank hsmall)
    simp [isNameChar, isAlphanumeric, CodePointSet.contains, hsmall, hunderscore, hmem] at h

/-- A character of a name is no sign that ends names. -/
theorem ne_of_isNameChar {c sign : Char} (h : isNameChar c = true)
    (hsign : isNameChar sign = false) : c ≠ sign := by
  rintro rfl
  rw [h] at hsign
  cases hsign

/-- A comma ends a name. -/
theorem isNameChar_comma : isNameChar ',' = false := by
  decide +kernel

/-! ## Digits -/

theorem isNameChar_of_digitBelow? {radix n : Nat} {c : Char}
    (h : digitBelow? radix c = some n) : isNameChar c = true := by
  have hrange := toNat_lt_of_digitBelow? h
  have hall : ∀ n < 128, (digit? (Char.ofNat n)).isSome = true →
      isNameChar (Char.ofNat n) = true := by decide +kernel
  have hdigit : (digit? c).isSome = true := by
    unfold digitBelow? at h
    rw [(Option.filter_eq_some_iff.mp h).1]
    rfl
  have hname := hall c.toNat (by omega)
  rw [Char.ofNat_toNat] at hname
  exact hname hdigit

theorem isNameChar_of_isDigit {c : Char} (h : c.isDigit = true) : isNameChar c = true := by
  have hrange := toNat_of_isDigit h
  rw [isNameChar_of_lt_128 (by omega)]
  simp [Char.isAlphanum, h]

/-- Digits in either case behind the marker. -/
theorem isNameChar_marked {cs : List Char} {ns : List Nat}
    (h : cs.map (digitBelow? 16) = ns.map some) :
    ∀ c ∈ ("0x" ++ String.ofList cs).toList, isNameChar c = true := by
  intro c hc
  rw [String.toList_append, String.toList_ofList (l := cs), List.mem_append] at hc
  rcases hc with hc | hc
  · have hmarker : ∀ d ∈ "0x".toList, isNameChar d = true :=
      List.all_iff_forall_prop.mp (by decide +kernel)
    exact hmarker c hc
  · have hmem := List.mem_map_of_mem (f := digitBelow? 16) hc
    rw [h] at hmem
    obtain ⟨n, -, hn⟩ := List.mem_map.mp hmem
    exact isNameChar_of_digitBelow? hn.symm

end Text

open Text

/-! ## Values and types -/

/-- A value is written with letters and digits. -/
theorem AbiValue.isNameChar_text (v : AbiValue) : ∀ c ∈ v.text.toList, isNameChar c = true := by
  cases v with
  | uint value bits =>
    intro c hc
    have htext : c ∈ (toString value.toNat).toList := hc
    exact isNameChar_of_isDigit (isDigit_toString htext)
  | address value => exact isNameChar_marked (digits_addressText value)
  | bool value =>
    cases value with
    | false => exact List.all_iff_forall_prop.mp (by decide +kernel)
    | true => exact List.all_iff_forall_prop.mp (by decide +kernel)
  | bytes32 value =>
    have hdigits : (hexChars (wordBytes value)).map (digitBelow? 16) =
        (nibbles (wordBytes value)).map some := by
      rw [hexChars_eq_map, List.map_map]
      exact List.map_congr_left fun n hn => digitBelow?_hexDigit (nibbles_lt hn)
    exact isNameChar_marked hdigits

theorem AbiValue.text_ne_nil (v : AbiValue) : v.text.toList ≠ [] := by
  cases v with
  | uint value bits =>
    show (toString value.toNat).toList ≠ []
    rw [Nat.toString_eq_ofList_toDigits, String.toList_ofList]
    exact Nat.toDigits_ne_nil
  | address value =>
    show ("0x" ++ String.ofList _).toList ≠ []
    simp
  | bool value =>
    cases value with
    | false => decide
    | true => decide
  | bytes32 value =>
    show ("0x" ++ String.ofList _).toList ≠ []
    simp

theorem SlotType.isNameChar_text (type : SlotType) :
    ∀ c ∈ type.text.toList, isNameChar c = true := by
  cases type with
  | uint bits =>
    intro c hc
    rw [toList_text_uint, List.mem_append] at hc
    rcases hc with hc | hc
    · have hstem : ∀ d ∈ ['u', 'i', 'n', 't'], isNameChar d = true :=
        List.all_iff_forall_prop.mp (by decide +kernel)
      exact hstem c hc
    · exact isNameChar_of_isDigit (isDigit_toDigits hc)
  | address => exact List.all_iff_forall_prop.mp (by decide +kernel)
  | bool => exact List.all_iff_forall_prop.mp (by decide +kernel)
  | bytes32 => exact List.all_iff_forall_prop.mp (by decide +kernel)

end Autopilot
