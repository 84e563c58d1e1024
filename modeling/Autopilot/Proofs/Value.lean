/-
  Types and values read back from their texts.

  A word and an address read as themselves. The name of a type is read back if the type is
  legal, and the text of a value if the value fits its width; otherwise it is refused
  (`SlotType.read_text_eq_ok_iff`, `AbiValue.read_text_eq_ok_iff`). Conversely a type that was
  read is legal and a value that was read fits, whatever the text.
-/
import Autopilot.Proofs.Outcome
import Autopilot.Proofs.Text.Literals
import Autopilot.Proofs.Text.Pieces
import Autopilot.Value

namespace Autopilot

open Text

/-! ## Words and addresses -/

theorem readHex_hex0x (bytes : List UInt8) : readHex bytes.length (hex0x bytes) = .ok bytes := by
  unfold hex0x hex
  refine readHex_of_digits ?_
  rw [hexChars_eq_map, List.map_map]
  exact List.map_congr_left fun n hn => digitBelow?_hexDigit (nibbles_lt hn)

theorem readWord_wordText (w : Word) : readWord (wordText w) = .ok w := by
  have h := readHex_hex0x (wordBytes w)
  rw [length_wordBytes] at h
  unfold readWord wordText
  rw [h]
  show Except.ok (wordOfBytes (wordBytes w)) = _
  rw [wordOfBytes_wordBytes]

/-- The checksum changes no digit's value. -/
theorem map_checksumCase {ns : List Nat} (h : ∀ n ∈ ns, n < 16) {hash : List Char}
    (hlength : ns.length ≤ hash.length) :
    (checksumCase (ns.map hexDigit) hash).map (digitBelow? 16) = ns.map some := by
  unfold checksumCase
  induction ns generalizing hash with
  | nil => rfl
  | cons n ns ih =>
    cases hash with
    | nil => simp at hlength
    | cons c hash =>
      have hn := h n List.mem_cons_self
      have hdigit : digitBelow? 16 (if '8' ≤ c then (hexDigit n).toUpper else hexDigit n) =
          some n := by
        split
        · exact digitBelow?_hexDigit_toUpper hn
        · exact digitBelow?_hexDigit hn
      have hrest :=
        ih (fun m hm => h m (List.mem_cons_of_mem _ hm)) (Nat.le_of_succ_le_succ hlength)
      rw [List.map_cons, List.zipWith_cons_cons, List.map_cons, List.map_cons, hdigit, hrest]

theorem digits_addressText (a : Address) :
    (checksumCase (hexChars (addressBytes a)) (hexChars (wordBytes
      (Keccak.digest (utf8 (String.ofList (hexChars (addressBytes a)))))))).map (digitBelow? 16) =
      (nibbles (addressBytes a)).map some := by
  generalize Keccak.digest (utf8 (String.ofList (hexChars (addressBytes a)))) = hash
  rw [hexChars_eq_map (addressBytes a)]
  refine map_checksumCase (fun n => nibbles_lt) ?_
  rw [length_nibbles, length_hexChars, length_addressBytes, length_wordBytes]
  decide

theorem readAddress_addressText (a : Address) : readAddress (addressText a) = .ok a := by
  have h := readHex_of_digits (digits_addressText a)
  rw [length_addressBytes] at h
  unfold readAddress addressText
  dsimp only
  rw [h]
  show Except.ok (addressOfBytes (addressBytes a)) = _
  rw [addressOfBytes_addressBytes]

/-- A text of digits behind the marker has no blank. -/
theorem trim_marked {cs : List Char} {ns : List Nat}
    (h : cs.map (digitBelow? 16) = ns.map some) :
    trim ("0x" ++ String.ofList cs) = "0x" ++ String.ofList cs := by
  refine trim_of_tight (tight_of_forall fun c hc => ?_)
  rw [String.toList_append, String.toList_ofList (l := cs), List.mem_append] at hc
  rcases hc with hc | hc
  · have hmarker : c = '0' ∨ c = 'x' := by simpa using hc
    rcases hmarker with rfl | rfl
    · rfl
    · rfl
  · have hmem := List.mem_map_of_mem (f := digitBelow? 16) hc
    rw [h] at hmem
    obtain ⟨n, -, hn⟩ := List.mem_map.mp hmem
    exact isBlank_of_digitBelow? hn.symm

theorem trim_wordText (w : Word) : trim (wordText w) = wordText w := by
  unfold wordText hex0x hex
  apply trim_marked
  rw [hexChars_eq_map, List.map_map]
  exact List.map_congr_left fun n hn => digitBelow?_hexDigit (nibbles_lt hn)

theorem trim_addressText (a : Address) : trim (addressText a) = addressText a :=
  trim_marked (digits_addressText a)

/-! ## Types -/

theorem toList_text_uint (bits : UInt16) :
    (SlotType.uint bits).text.toList = ['u', 'i', 'n', 't'] ++ Nat.toDigits 10 bits.toNat := by
  show ("uint" ++ String.ofList (Nat.toDigits 10 bits.toNat)).toList = _
  rw [String.toList_append, String.toList_ofList (l := Nat.toDigits 10 bits.toNat)]
  rfl

theorem trim_text_uint (bits : UInt16) :
    trim (SlotType.uint bits).text = (SlotType.uint bits).text := by
  refine trim_of_tight (tight_of_forall fun c hc => ?_)
  rw [toList_text_uint, List.mem_append] at hc
  rcases hc with hc | hc
  · have hstem : c = 'u' ∨ c = 'i' ∨ c = 'n' ∨ c = 't' := by simpa using hc
    rcases hstem with rfl | rfl | rfl | rfl
    · rfl
    · rfl
    · rfl
    · rfl
  · exact isBlank_of_isDigit (isDigit_toDigits hc)

theorem readUint_text (bits : UInt16) :
    SlotType.readUint (SlotType.uint bits).text =
      if (SlotType.uint bits).legal then .ok (.uint bits) else .error (.width bits) := by
  have hwidth : unsigned? (bitBound 16) (String.ofList (Nat.toDigits 10 bits.toNat)) =
      some bits.toNat := unsigned?_toDigits bits.toNat_lt
  have hstem : List.isPrefixOf? "uint".toList (SlotType.uint bits).text.toList =
      some (Nat.toDigits 10 bits.toNat) := by
    rw [toList_text_uint]
    rfl
  unfold SlotType.readUint
  rw [hstem]
  dsimp only
  rw [hwidth]
  dsimp only
  rw [ofNat_toNat_uint16, show (SlotType.uint bits).legal = SlotType.legalBits bits from rfl]
  unfold SlotType.uint?
  cases SlotType.legalBits bits with
  | true => rfl
  | false => rfl

theorem SlotType.read_text (type : SlotType) :
    ∃ cause, SlotType.read type.text = if type.legal then .ok type else .error cause := by
  cases type with
  | uint bits =>
    have hne : ∀ name : String, ¬ ['u', 'i', 'n', 't'] <+: name.toList →
        (SlotType.uint bits).text ≠ name := by
      rintro name hname rfl
      exact hname ⟨_, (toList_text_uint bits).symm⟩
    have hstem : (SlotType.uint bits).text ≠ "uint" := by
      intro heq
      have hlist := congrArg String.toList heq
      rw [toList_text_uint] at hlist
      have hlength := congrArg List.length hlist
      have hdigits := Nat.length_toDigits_pos (b := 10) (n := bits.toNat)
      rw [List.length_append, show "uint".toList.length = 4 from rfl] at hlength
      simp only [List.length_cons, List.length_nil] at hlength
      omega
    refine ⟨.width bits, ?_⟩
    unfold SlotType.read
    dsimp only
    rw [trim_text_uint, if_neg (hne _ (by decide)), if_neg (hne _ (by decide)),
      if_neg (hne _ (by decide)), if_neg hstem, readUint_text]
  | address => exact ⟨.unknown "", by decide⟩
  | bool => exact ⟨.unknown "", by decide⟩
  | bytes32 => exact ⟨.unknown "", by decide⟩

theorem SlotType.read_text_eq_ok_iff {type type' : SlotType} :
    SlotType.read type.text = .ok type' ↔ type' = type ∧ type.legal = true := by
  obtain ⟨cause, h⟩ := SlotType.read_text type
  rw [h]
  split
  · next hlegal =>
    rw [Except.ok.injEq]
    exact ⟨fun heq => ⟨heq.symm, hlegal⟩, fun heq => heq.1.symm⟩
  · next hlegal => simp [hlegal]

/-! ## Values -/

theorem trim_toString (n : Nat) : trim (toString n) = toString n := by
  exact trim_of_tight (tight_of_forall fun c hc => isBlank_of_isDigit (isDigit_toString hc))

theorem readUint_toString (bits : UInt16) (w : Word) :
    ∃ cause, AbiValue.readUint bits (toString w.toNat) =
      if (AbiValue.uint w bits).fits then .ok (.uint w bits) else .error cause := by
  have hamount : amount? (toString w.toNat) = some w := by
    rw [Nat.toString_eq_ofList_toDigits, amount?_toDigits w.isLt, BitVec.ofNat_toNat,
      BitVec.setWidth_eq]
  refine ⟨.tooWide (toString w.toNat) bits, ?_⟩
  unfold AbiValue.readUint AbiValue.fits
  rw [hamount]
  simp

theorem AbiValue.read_text (v : AbiValue) :
    ∃ cause, AbiValue.read v.slotType v.text = if v.fits then .ok v else .error cause := by
  cases v with
  | uint w bits =>
    obtain ⟨cause, h⟩ := readUint_toString bits w
    refine ⟨cause, ?_⟩
    show AbiValue.readUint bits (trim (toString w.toNat)) = _
    rw [trim_toString, h]
  | address a =>
    refine ⟨.untyped "", ?_⟩
    simp only [AbiValue.read, AbiValue.slotType, AbiValue.text, trim_addressText,
      readAddress_addressText]
    rfl
  | bool flag =>
    refine ⟨.untyped "", ?_⟩
    cases flag with
    | false => decide
    | true => decide
  | bytes32 w =>
    refine ⟨.untyped "", ?_⟩
    simp only [AbiValue.read, AbiValue.slotType, AbiValue.text, trim_wordText, readWord_wordText]
    rfl

theorem AbiValue.read_text_eq_ok_iff {v v' : AbiValue} :
    AbiValue.read v.slotType v.text = .ok v' ↔ v' = v ∧ v.fits = true := by
  obtain ⟨cause, h⟩ := AbiValue.read_text v
  rw [h]
  split
  · next hfits =>
    rw [Except.ok.injEq]
    exact ⟨fun heq => ⟨heq.symm, hfits⟩, fun heq => heq.1.symm⟩
  · next hfits => simp [hfits]

/-! ## What is read -/

theorem SlotType.legal_of_read {s : String} {type : SlotType} (h : SlotType.read s = .ok type) :
    type.legal = true := by
  unfold SlotType.read at h
  dsimp only at h
  split_ifs at h
  · cases h
    rfl
  · cases h
    rfl
  · cases h
    rfl
  · cases h
    rfl
  · unfold SlotType.readUint at h
    split at h
    · cases h
    · split at h
      · cases h
      · split at h
        · cases h
        · next type' huint =>
          cases h
          unfold SlotType.uint? at huint
          split at huint
          · next hlegal =>
            cases huint
            exact hlegal
          · cases huint

/-- A literal is read as a value of the type that fits its width. -/
theorem AbiValue.of_read {type : SlotType} {s : String} {v : AbiValue}
    (h : AbiValue.read type s = .ok v) : v.slotType = type ∧ v.fits = true := by
  cases type with
  | uint bits =>
    have hread : AbiValue.readUint bits (trim s) = .ok v := h
    unfold AbiValue.readUint at hread
    split at hread
    · cases hread
    · split at hread
      · next hfits =>
        cases hread
        exact ⟨rfl, decide_eq_true hfits⟩
      · cases hread
  | address =>
    obtain ⟨a, -, rfl⟩ := map_eq_ok.mp (mapError_eq_ok.mp h)
    exact ⟨rfl, rfl⟩
  | bool =>
    have hread : AbiValue.readBool (trim s) = .ok v := h
    unfold AbiValue.readBool at hread
    dsimp only at hread
    split_ifs at hread
    · cases hread
      exact ⟨rfl, rfl⟩
    · cases hread
      exact ⟨rfl, rfl⟩
  | bytes32 =>
    obtain ⟨w, -, rfl⟩ := map_eq_ok.mp (mapError_eq_ok.mp h)
    exact ⟨rfl, rfl⟩

end Autopilot
