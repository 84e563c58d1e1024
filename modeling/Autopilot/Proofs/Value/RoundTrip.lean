/-
  Values written and read again, as text and as bytes.

  A literal behind the name of its type is cut at the first colon, as the name of no type has one
  (`colon_not_mem_text`), so it is read back exactly if the type is legal and the value fits
  (`AbiValue.readTyped_typedText_iff`). What a reader of texts or of bytes returns has the type that
  was asked for, or that stands in the bytes in front of it, and fits (`values_roundTrip`).
-/
import Autopilot.Proofs.Text.Names
import Autopilot.Proofs.Wire.Format

namespace Autopilot

/-! ## Behind the name of the type -/

theorem colon_not_mem_text (type : SlotType) : ':' ∉ type.text.toList :=
  fun h => Text.ne_of_isNameChar (type.isNameChar_text ':' h) (by decide) rfl

theorem AbiValue.readTyped_eq_ok_iff {s : String} {v : AbiValue} :
    AbiValue.readTyped s = .ok v ↔ ∃ name literal type, splitAtFirst? ':' s = some (name, literal) ∧
      SlotType.read name = .ok type ∧ AbiValue.read type literal = .ok v := by
  unfold AbiValue.readTyped
  cases splitAtFirst? ':' s with
  | none => simp
  | some parts =>
    obtain ⟨name, literal⟩ := parts
    cases htype : SlotType.read name with
    | error cause => simp [htype]
    | ok type => simp [htype]

theorem AbiValue.splitAtFirst?_typedText (v : AbiValue) :
    splitAtFirst? ':' v.typedText = some (v.slotType.text, v.text) :=
  splitAtFirst?_append (colon_not_mem_text v.slotType)

theorem AbiValue.readTyped_typedText_iff {v v' : AbiValue} :
    AbiValue.readTyped v.typedText = .ok v' ↔
      v' = v ∧ v.slotType.legal = true ∧ v.fits = true := by
  rw [AbiValue.readTyped_eq_ok_iff, AbiValue.splitAtFirst?_typedText]
  constructor
  · rintro ⟨name, literal, type, hparts, htype, hread⟩
    cases hparts
    obtain ⟨rfl, hlegal⟩ := SlotType.read_text_eq_ok_iff.mp htype
    obtain ⟨rfl, hfits⟩ := AbiValue.read_text_eq_ok_iff.mp hread
    exact ⟨rfl, hlegal, hfits⟩
  · rintro ⟨rfl, hlegal, hfits⟩
    exact ⟨_, _, _, rfl, SlotType.read_text_eq_ok_iff.mpr ⟨rfl, hlegal⟩,
      AbiValue.read_text_eq_ok_iff.mpr ⟨rfl, hfits⟩⟩

/-! ## From bytes -/

theorem Wire.of_readValue {input next : Wire.Input} {v : AbiValue}
    (h : Wire.Reader.value input = .ok (v, next)) :
    (∃ mid, Wire.Reader.slotType input = .ok (v.slotType, mid)) ∧
      v.slotType.legal = true ∧ v.fits = true := by
  obtain ⟨_, ⟨⟨hlegal, hfits⟩, -⟩, -⟩ := (Wire.recognizes_value input v next).mp h
  refine ⟨?_, hlegal, hfits⟩
  obtain ⟨type, mid, htype, hrest⟩ := state_bind_eq_ok.mp h
  obtain ⟨start, mid', hstart, hpayload⟩ := state_bind_eq_ok.mp hrest
  obtain ⟨_, ⟨⟨hsame, -⟩, -⟩, -⟩ := (Wire.recognizes_payload type start mid' v next).mp hpayload
  rw [hsame]
  exact ⟨mid, htype⟩

/-- **Values written and read.** A value of a legal type that fits its width is read back from its
    text, and from its text behind the name of its type. A value that is read from a text has the
    type that was asked for and fits, and one that is read from bytes has the legal type that
    stands in front of it and fits. -/
theorem values_roundTrip :
    (∀ v : AbiValue, v.slotType.legal = true → v.fits = true →
      AbiValue.read v.slotType v.text = .ok v ∧ AbiValue.readTyped v.typedText = .ok v) ∧
    (∀ type s v, AbiValue.read type s = .ok v → v.slotType = type ∧ v.fits = true) ∧
    (∀ input v next, Wire.Reader.value input = .ok (v, next) →
      (∃ mid, Wire.Reader.slotType input = .ok (v.slotType, mid)) ∧
        v.slotType.legal = true ∧ v.fits = true) := by
  refine ⟨fun v hlegal hfits => ⟨?_, ?_⟩, fun _ _ _ => AbiValue.of_read,
    fun _ _ _ => Wire.of_readValue⟩
  · exact AbiValue.read_text_eq_ok_iff.mpr ⟨rfl, hfits⟩
  · exact AbiValue.readTyped_typedText_iff.mpr ⟨rfl, hlegal, hfits⟩

/-- The largest amount of 16 bits. -/
theorem values_roundTrip_largest :
    AbiValue.read (.uint 16) "65535" = .ok (.uint 65535 16) ∧
      AbiValue.readTyped "uint16:65535" = .ok (.uint 65535 16) := by
  have htext : (AbiValue.uint 65535 16).text = "65535" := by decide +kernel
  have htyped : (AbiValue.uint 65535 16).typedText = "uint16:65535" := by decide +kernel
  have hread := values_roundTrip.1 (.uint 65535 16) (by decide) (by decide +kernel)
  rw [htext, htyped] at hread
  exact hread

end Autopilot
