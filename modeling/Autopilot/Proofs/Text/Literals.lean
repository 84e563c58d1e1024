/-
  Literals that are printed and read again.

  What is read as a decimal number below a bound are its digits, perhaps behind zeros and a plus
  sign (`unsigned?_eq_some_iff`); in particular a number that is printed reads as itself
  (`unsigned?_toString`, `amount?_toDigits`). Bytes that are printed as hexadecimal digits read as
  these bytes, whatever the case of each letter (`readHex_of_digits`).
-/
import Autopilot.Proofs.Bytes
import Autopilot.Text.Blank
import Autopilot.Text.Hex
import Mathlib.Data.List.Forall2
import Mathlib.Data.List.Induction

namespace Autopilot.Text

/-! ## Decimal numbers -/

theorem toNat_of_isDigit {c : Char} (h : c.isDigit = true) : 48 ≤ c.toNat ∧ c.toNat ≤ 57 := by
  simpa [Char.isDigit, UInt32.le_iff_toNat_le] using h

theorem isBlank_of_isDigit {c : Char} (h : c.isDigit = true) : isBlank c = false := by
  have hrange := toNat_of_isDigit h
  simp only [isBlank, Bool.or_eq_false_iff, Bool.and_eq_false_iff, decide_eq_false_iff_not,
    beq_eq_false_iff_ne]
  omega

theorem isDigit_toDigits {n : Nat} {c : Char} (h : c ∈ Nat.toDigits 10 n) : c.isDigit = true :=
  Nat.isDigit_of_mem_toDigits (by decide) (by decide) h

theorem isDigit_toString {n : Nat} {c : Char} (h : c ∈ (toString n).toList) : c.isDigit = true := by
  rw [Nat.toString_eq_ofList_toDigits, String.toList_ofList] at h
  exact isDigit_toDigits h

theorem toNat_lt_of_digitBelow? {radix n : Nat} {c : Char} (h : digitBelow? radix c = some n) :
    48 ≤ c.toNat ∧ c.toNat ≤ 122 := by
  have hle : ∀ a b : Char, a ≤ b ↔ a.toNat ≤ b.toNat := fun _ _ => Iff.rfl
  unfold digitBelow? digit? at h
  rw [Option.filter_eq_some_iff] at h
  obtain ⟨h, -⟩ := h
  simp only [Bool.and_eq_true, decide_eq_true_eq, hle] at h
  split_ifs at h with h0 h1 h2
  · exact ⟨h0.1, Nat.le_trans h0.2 (by decide)⟩
  · exact ⟨Nat.le_trans (by decide) h1.1, h1.2⟩
  · exact ⟨Nat.le_trans (by decide) h2.1, Nat.le_trans h2.2 (by decide)⟩

theorem digitBelow?_digitChar {n : Nat} (h : n < 10) :
    digitBelow? 10 (Nat.digitChar n) = some n := by
  have hall : ∀ n < 10, digitBelow? 10 (Nat.digitChar n) = some n := by decide
  exact hall n h

theorem digits?_append (radix bound : Nat) (front : List Char) (c : Char) :
    digits? radix bound (front ++ [c]) =
      (digits? radix bound front).bind fun n =>
        ((digitBelow? radix c).map (n * radix + ·)).filter (· < bound) := by
  unfold digits?
  rw [List.foldlM_append, Option.bind_eq_bind]
  congr 1
  funext n
  rw [List.foldlM_cons]
  cases ((digitBelow? radix c).map (n * radix + ·)).filter (· < bound) with
  | none => rfl
  | some m => rfl

theorem digits?_toDigits {bound n : Nat} (h : n < bound) :
    digits? 10 bound (Nat.toDigits 10 n) = some n := by
  induction n using Nat.strongRecOn with
  | _ n ih =>
    have hlast : ∀ front, digits? 10 bound front = some (n / 10) →
        digits? 10 bound (front ++ [Nat.digitChar (n % 10)]) = some n := by
      intro front hfront
      have hsplit : n / 10 * 10 + n % 10 = n := by omega
      rw [digits?_append, hfront, Option.bind_some,
        digitBelow?_digitChar (Nat.mod_lt n (by decide)), Option.map_some, hsplit]
      exact Option.filter_some_pos (decide_eq_true h)
    rw [Nat.toDigits_eq_if (by decide)]
    by_cases hn : n < 10
    · rw [if_pos hn]
      have hfirst := hlast [] (by rw [Nat.div_eq_of_lt hn]; rfl)
      rwa [Nat.mod_eq_of_lt hn] at hfirst
    · rw [if_neg hn]
      exact hlast _ (ih (n / 10) (by omega) (by omega))

theorem lt_of_decimal? {bound n : Nat} {cs : List Char} (h : decimal? bound cs = some n) :
    n < bound := by
  cases cs with
  | nil => cases h
  | cons c cs =>
    have hne : c :: cs ≠ [] := List.cons_ne_nil c cs
    have hdigits : digits? 10 bound ((c :: cs).dropLast ++ [(c :: cs).getLast hne]) = some n := by
      rw [List.dropLast_append_getLast]
      exact h
    rw [digits?_append] at hdigits
    obtain ⟨m, -, hlast⟩ := Option.bind_eq_some_iff.mp hdigits
    simpa using (Option.filter_eq_some_iff.mp hlast).2

/-! ### All decimal numerals -/

/-- The digits of the number, perhaps behind zeros. -/
def IsNumeral (n : Nat) (cs : List Char) : Prop :=
  ∃ zeros, cs = List.replicate zeros '0' ++ Nat.toDigits 10 n

/-- A numeral, perhaps behind a plus sign. -/
def IsUnsigned (n : Nat) (s : String) : Prop :=
  IsNumeral n s.toList ∨ ∃ cs, s.toList = '+' :: cs ∧ IsNumeral n cs

theorem isDigit_of_isNumeral {n : Nat} {cs : List Char} (h : IsNumeral n cs) :
    ∀ c ∈ cs, c.isDigit = true := by
  obtain ⟨zeros, rfl⟩ := h
  intro c hc
  rcases List.mem_append.mp hc with hc | hc
  · rw [List.eq_of_mem_replicate hc]
    rfl
  · exact isDigit_toDigits hc

theorem digitChar_of_digitBelow? {c : Char} {d : Nat} (h : digitBelow? 10 c = some d) :
    d < 10 ∧ c = Nat.digitChar d := by
  have hall : ∀ n < 128, ∀ d ∈ digitBelow? 10 (Char.ofNat n),
      d < 10 ∧ Char.ofNat n = Nat.digitChar d := by decide +kernel
  have hrange := toNat_lt_of_digitBelow? h
  have hchar := hall c.toNat (by omega)
  rw [Char.ofNat_toNat] at hchar
  exact hchar d h

theorem digits?_replicate_zero {bound : Nat} (h : 0 < bound) (zeros : Nat) :
    digits? 10 bound (List.replicate zeros '0') = some 0 := by
  induction zeros with
  | zero => rfl
  | succ zeros ih =>
    rw [List.replicate_succ', digits?_append, ih, Option.bind_some,
      show digitBelow? 10 '0' = some 0 by decide, Option.map_some]
    exact Option.filter_some_pos (decide_eq_true h)

theorem digits?_of_isNumeral {bound n : Nat} {cs : List Char} (hn : n < bound)
    (h : IsNumeral n cs) : digits? 10 bound cs = some n := by
  obtain ⟨zeros, rfl⟩ := h
  have hzeros := digits?_replicate_zero (Nat.zero_lt_of_lt hn) zeros
  have hdigits := digits?_toDigits hn
  unfold digits? at hzeros hdigits ⊢
  rw [List.foldlM_append, hzeros]
  exact hdigits

/-- Digits that are read as a number are a numeral for it, by the last digit and those in front. -/
theorem isNumeral_of_digits? {bound n : Nat} {cs : List Char} (hne : cs ≠ [])
    (h : digits? 10 bound cs = some n) : IsNumeral n cs := by
  induction cs using List.reverseRecOn generalizing n with
  | nil => exact absurd rfl hne
  | append_singleton front c ih =>
    rw [digits?_append] at h
    obtain ⟨m, hfront, hlast⟩ := Option.bind_eq_some_iff.mp h
    obtain ⟨d, hd, rfl⟩ := Option.map_eq_some_iff.mp (Option.filter_eq_some_iff.mp hlast).1
    obtain ⟨hlt, rfl⟩ := digitChar_of_digitBelow? hd
    have hdigit : Nat.toDigits 10 d = [Nat.digitChar d] := Nat.toDigits_of_lt_base hlt
    by_cases hnil : front = []
    · obtain rfl : m = 0 := by
        rw [hnil] at hfront
        exact (Option.some.inj hfront).symm
      exact ⟨0, by rw [hnil, Nat.zero_mul, Nat.zero_add, hdigit]; rfl⟩
    · obtain ⟨zeros, hzeros⟩ := ih hnil hfront
      rcases Nat.eq_zero_or_pos m with rfl | hm
      · -- the digit of a zero in front is one more zero
        refine ⟨zeros + 1, ?_⟩
        rw [hzeros, Nat.zero_mul, Nat.zero_add, hdigit, List.replicate_succ']
        rfl
      · refine ⟨zeros, ?_⟩
        rw [hzeros, List.append_assoc, ← hdigit, Nat.toDigits_append_toDigits (by decide) hm hlt,
          Nat.mul_comm]

theorem decimal?_eq_some_iff {bound n : Nat} {cs : List Char} :
    decimal? bound cs = some n ↔ n < bound ∧ IsNumeral n cs := by
  constructor
  · intro h
    refine ⟨lt_of_decimal? h, ?_⟩
    cases cs with
    | nil => cases h
    | cons c cs => exact isNumeral_of_digits? (List.cons_ne_nil c cs) h
  · rintro ⟨hn, hnumeral⟩
    have hdigits := digits?_of_isNumeral hn hnumeral
    cases cs with
    | nil =>
      obtain ⟨zeros, hnil⟩ := hnumeral
      exact absurd (List.append_eq_nil_iff.mp hnil.symm).2 Nat.toDigits_ne_nil
    | cons c cs => exact hdigits

theorem unsigned?_eq_some_iff {bound n : Nat} {s : String} :
    unsigned? bound s = some n ↔ n < bound ∧ IsUnsigned n s := by
  unfold unsigned? IsUnsigned
  split
  · next cs hcs =>
    have hsign : ¬ IsNumeral n ('+' :: cs) := fun h =>
      absurd (isDigit_of_isNumeral h '+' List.mem_cons_self) (by decide)
    rw [decimal?_eq_some_iff]
    simp [hcs, hsign]
  · next hno =>
    have hnone : ¬ ∃ cs, s.toList = '+' :: cs ∧ IsNumeral n cs := fun h => by
      obtain ⟨cs, hcs, -⟩ := h
      exact hno cs hcs
    rw [decimal?_eq_some_iff, or_iff_left hnone]

theorem isUnsigned_toString (n : Nat) : IsUnsigned n (toString n) := by
  refine .inl ⟨0, ?_⟩
  rw [Nat.toString_eq_ofList_toDigits, String.toList_ofList]
  rfl

theorem unsigned?_toString {n bound : Nat} (h : n < bound) :
    unsigned? bound (toString n) = some n :=
  unsigned?_eq_some_iff.mpr ⟨h, isUnsigned_toString n⟩

theorem unsigned?_toDigits {bound n : Nat} (h : n < bound) :
    unsigned? bound (String.ofList (Nat.toDigits 10 n)) = some n := by
  rw [← Nat.toString_eq_ofList_toDigits]
  exact unsigned?_toString h

theorem toString_injective : Function.Injective (toString : Nat → String) := by
  intro m n h
  have hread : unsigned? (m + n + 1) (toString m) = some m := unsigned?_toString (by omega)
  rw [h, unsigned?_toString (by omega)] at hread
  exact (Option.some.inj hread).symm

/-- No marker of a radix consists of digits and underscores. -/
theorem radixAndDigits_of_isDigit {cs : List Char}
    (h : ∀ c ∈ cs, c.isDigit = true ∨ c = '_') : radixAndDigits cs = (10, cs) := by
  unfold radixAndDigits
  split
  all_goals first
    | rfl
    | exact absurd (h _ (List.mem_cons_of_mem _ List.mem_cons_self)) (by decide)

theorem amount?_toDigits {n : Nat} (h : n < bitBound 256) :
    amount? (String.ofList (Nat.toDigits 10 n)) = some (BitVec.ofNat 256 n) := by
  have hfilter : (Nat.toDigits 10 n).filter (· != '_') = Nat.toDigits 10 n := by
    refine List.filter_eq_self.mpr fun c hc => ?_
    have hdigit := isDigit_toDigits hc
    rw [bne_iff_ne]
    rintro rfl
    exact absurd hdigit (by decide)
  unfold amount?
  rw [String.toList_ofList, radixAndDigits_of_isDigit fun c hc => .inl (isDigit_toDigits hc)]
  dsimp only
  rw [hfilter, digits?_toDigits h]
  rfl

/-! ## Hexadecimal digits -/

/-- The values of the digits of a byte string. -/
def nibbles (bytes : List UInt8) : List Nat :=
  bytes.flatMap fun b => [b.toNat / 16, b.toNat % 16]

theorem hexChars_eq_map (bytes : List UInt8) : hexChars bytes = (nibbles bytes).map hexDigit := by
  unfold hexChars nibbles
  rw [List.map_flatMap]
  rfl

theorem nibbles_lt {bytes : List UInt8} {n : Nat} (h : n ∈ nibbles bytes) : n < 16 := by
  unfold nibbles at h
  obtain ⟨b, -, hb⟩ := List.mem_flatMap.mp h
  have hlt := b.toNat_lt
  simp only [List.mem_cons, List.not_mem_nil, or_false] at hb
  omega

theorem length_nibbles (bytes : List UInt8) : (nibbles bytes).length = 2 * bytes.length := by
  have h := length_hexChars bytes
  rwa [hexChars_eq_map, List.length_map] at h

theorem digitBelow?_hexDigit {n : Nat} (h : n < 16) : digitBelow? 16 (hexDigit n) = some n := by
  have hall : ∀ n < 16, digitBelow? 16 (hexDigit n) = some n := by decide
  exact hall n h

theorem digitBelow?_hexDigit_toUpper {n : Nat} (h : n < 16) :
    digitBelow? 16 (hexDigit n).toUpper = some n := by
  have hall : ∀ n < 16, digitBelow? 16 (hexDigit n).toUpper = some n := by decide
  exact hall n h

theorem isBlank_of_digitBelow? {radix n : Nat} {c : Char} (h : digitBelow? radix c = some n) :
    isBlank c = false := by
  have hrange := toNat_lt_of_digitBelow? h
  simp only [isBlank, Bool.or_eq_false_iff, Bool.and_eq_false_iff, decide_eq_false_iff_not,
    beq_eq_false_iff_ne]
  omega

/-- The UTF-8 bytes of a text of small characters are their numbers. -/
theorem utf8_ofList {cs : List Char} (h : ∀ c ∈ cs, c.toNat < 128) :
    utf8 (String.ofList cs) = cs.map fun c => UInt8.ofNat c.toNat := by
  have hone : ∀ c ∈ cs, String.utf8EncodeChar c = [UInt8.ofNat c.toNat] := by
    intro c hc
    have hsize : c.utf8Size = 1 := by
      have hlt := h c hc
      have hle : c.toNat ≤ 127 := by omega
      exact Char.utf8Size_eq_one_iff.mpr hle
    exact String.utf8EncodeChar_eq_singleton hsize
  unfold utf8
  rw [String.toByteArray_ofList]
  unfold List.utf8Encode
  rw [List.data_toByteArray, List.flatMap_congr hone, ← List.map_eq_flatMap]

/-- Digits that have the values of the digits of some bytes are read as these bytes. -/
theorem readHexPairs_of_digits {digits bytes : List UInt8}
    (h : digits.map hexValue? = (nibbles bytes).map some) (position : Nat) :
    readHexPairs position digits = .ok bytes := by
  induction bytes generalizing digits position with
  | nil =>
    cases digits with
    | nil => rfl
    | cons d digits => cases h
  | cons b bytes ih =>
    have hsplit : nibbles (b :: bytes) = b.toNat / 16 :: b.toNat % 16 :: nibbles bytes := rfl
    rw [hsplit] at h
    match digits, h with
    | [], h => simp at h
    | [_], h => simp at h
    | high :: low :: rest, h =>
      simp only [List.map_cons, List.cons.injEq] at h
      obtain ⟨hhigh, hlow, hrest⟩ := h
      have hbyte : 16 * (b.toNat / 16) + b.toNat % 16 = b.toNat := by omega
      unfold readHexPairs
      rw [hhigh, hlow]
      dsimp only
      rw [ih hrest (position + 2), hbyte, UInt8.ofNat_toNat]
      rfl

theorem readHex_of_digits {cs : List Char} {bytes : List UInt8}
    (h : cs.map (digitBelow? 16) = (nibbles bytes).map some) :
    readHex bytes.length ("0x" ++ String.ofList cs) = .ok bytes := by
  have hsmall : ∀ c ∈ cs, c.toNat < 128 := by
    intro c hc
    have hmem := List.mem_map_of_mem (f := digitBelow? 16) hc
    rw [h] at hmem
    obtain ⟨n, -, hn⟩ := List.mem_map.mp hmem
    have hrange := toNat_lt_of_digitBelow? hn.symm
    omega
  have hlength : cs.length = 2 * bytes.length := by
    have hlengths := congrArg List.length h
    rwa [List.length_map, List.length_map, length_nibbles] at hlengths
  have htext : ("0x" ++ String.ofList cs) = String.ofList ('0' :: 'x' :: cs) := by
    rw [← String.toList_inj, String.toList_append, String.toList_ofList, String.toList_ofList]
    simp
  have hbytes : utf8 ("0x" ++ String.ofList cs) =
      48 :: 120 :: cs.map fun c => UInt8.ofNat c.toNat := by
    rw [htext, utf8_ofList]
    · rfl
    · intro c hc
      rcases List.mem_cons.mp hc with rfl | hc
      · decide
      · rcases List.mem_cons.mp hc with rfl | hc
        · decide
        · exact hsmall c hc
  have hvalues : (cs.map fun c => UInt8.ofNat c.toNat).map hexValue? =
      (nibbles bytes).map some := by
    rw [← h, List.map_map]
    refine List.map_congr_left fun c hc => ?_
    have hlt := hsmall c hc
    show digitBelow? 16 (Char.ofNat (UInt8.ofNat c.toNat).toNat) = _
    rw [toNat_ofNat_of_le (by omega), Char.ofNat_toNat]
  unfold readHex
  rw [hbytes]
  have heven : ¬ ((48 :: 120 :: cs.map fun c => UInt8.ofNat c.toNat).length % 2 == 1) = true := by
    rw [beq_iff_eq, List.length_cons, List.length_cons, List.length_map, hlength]
    omega
  dsimp only
  rw [if_neg heven]
  show (if ((cs.map fun c => UInt8.ofNat c.toNat).length != 2 * bytes.length) = true then _
    else _) = _
  rw [if_neg]
  · exact readHexPairs_of_digits hvalues 0
  · rw [List.length_map, hlength]
    simp

end Autopilot.Text
