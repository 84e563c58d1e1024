/-
  The texts that are read as amounts.

  Digits of a radix spell one number (`digits?_eq_some_iff`), and a text is read as an amount
  exactly if behind one of the markers, underscores left out, its digits spell it (`amount?_eq_some_iff`).
  Among these texts are those that are written plainly, in decimal digits or in hexadecimal ones
  behind `0x`. The others are told apart by their shape alone: they have no digit, an underscore, or
  a further marker (`isPlainAmount_iff`). The ones without digits are all read as zero
  (`isAmount_zero_of_digitless`).
-/
import Autopilot.Proofs.Text.Literals
import Mathlib.Data.Nat.Digits.Defs

namespace Autopilot.Text

/-! ## Digits of a radix -/

/-- The characters are digits of the radix and spell the number, the first weighing most. -/
def Spells (radix : Nat) (cs : List Char) (n : Nat) : Prop :=
  ∃ ds : List Nat, cs.map (digitBelow? radix) = ds.map some ∧ n = Nat.ofDigits radix ds.reverse

theorem spells_nil {radix n : Nat} : Spells radix [] n ↔ n = 0 := by
  unfold Spells
  constructor
  · rintro ⟨ds, hds, rfl⟩
    rw [List.map_nil, eq_comm, List.map_eq_nil_iff] at hds
    rw [hds]
    rfl
  · rintro rfl
    exact ⟨[], rfl, rfl⟩

theorem spells_append_singleton {radix n : Nat} {front : List Char} {c : Char} :
    Spells radix (front ++ [c]) n ↔
      ∃ m d, Spells radix front m ∧ digitBelow? radix c = some d ∧ n = m * radix + d := by
  constructor
  · rintro ⟨ds, hds, rfl⟩
    rw [List.map_append, eq_comm, List.map_eq_append_iff] at hds
    obtain ⟨high, low, rfl, hhigh, hlow⟩ := hds
    obtain ⟨d, rfl, hd⟩ := List.map_eq_singleton_iff.mp hlow
    refine ⟨_, d, ⟨high, hhigh.symm, rfl⟩, hd.symm, ?_⟩
    rw [List.reverse_append, List.reverse_singleton, List.singleton_append, Nat.ofDigits_cons,
      Nat.add_comm, Nat.mul_comm]
  · rintro ⟨m, d, ⟨ds, hds, rfl⟩, hd, rfl⟩
    refine ⟨ds ++ [d], ?_, ?_⟩
    · rw [List.map_append, List.map_append, hds, List.map_singleton, List.map_singleton, hd]
    · rw [List.reverse_append, List.reverse_singleton, List.singleton_append, Nat.ofDigits_cons,
        Nat.add_comm, Nat.mul_comm]

theorem lt_of_digitBelow? {radix d : Nat} {c : Char} (h : digitBelow? radix c = some d) :
    d < radix := by
  unfold digitBelow? at h
  simpa using (Option.filter_eq_some_iff.mp h).2

/-- By the last digit: a number below the bound has only such numbers in front of it. -/
theorem digits?_eq_some_iff {radix bound n : Nat} {cs : List Char} (h : 0 < bound) :
    digits? radix bound cs = some n ↔ Spells radix cs n ∧ n < bound := by
  induction cs using List.reverseRecOn generalizing n with
  | nil =>
    have hnil : digits? radix bound [] = some 0 := rfl
    rw [hnil, spells_nil, Option.some.injEq, eq_comm]
    constructor
    · rintro rfl
      exact ⟨rfl, h⟩
    · exact And.left
  | append_singleton front c ih =>
    rw [digits?_append, Option.bind_eq_some_iff, spells_append_singleton]
    simp only [Option.filter_eq_some_iff, Option.map_eq_some_iff, decide_eq_true_eq, ih]
    constructor
    · rintro ⟨m, ⟨hm, -⟩, ⟨d, hd, rfl⟩, hlt⟩
      exact ⟨⟨m, d, hm, hd, rfl⟩, hlt⟩
    · rintro ⟨⟨m, d, hm, hd, rfl⟩, hlt⟩
      have hradix : 0 < radix := Nat.zero_lt_of_lt (lt_of_digitBelow? hd)
      have hle : m ≤ m * radix := Nat.le_mul_of_pos_right m hradix
      exact ⟨m, ⟨hm, by omega⟩, ⟨d, hd, rfl⟩, hlt⟩

theorem Spells.digit {radix n : Nat} {cs : List Char} (h : Spells radix cs n) {c : Char}
    (hc : c ∈ cs) : ∃ d, digitBelow? radix c = some d := by
  obtain ⟨ds, hds, -⟩ := h
  have hmem := List.mem_map_of_mem (f := digitBelow? radix) hc
  rw [hds] at hmem
  obtain ⟨d, -, hd⟩ := List.mem_map.mp hmem
  exact ⟨d, hd.symm⟩

/-- An underscore is no digit. -/
theorem Spells.underscore_not_mem {radix n : Nat} {cs : List Char} (h : Spells radix cs n) :
    '_' ∉ cs := by
  intro hmem
  obtain ⟨d, hd⟩ := h.digit hmem
  have hnone : digit? '_' = none := by decide
  unfold digitBelow? at hd
  rw [hnone] at hd
  cases hd

/-! ## Markers -/

/-- The markers of amounts with the radix that each of them chooses; without one it is ten. -/
def markers : List (Nat × List Char) :=
  [(10, []), (16, ['0', 'x']), (16, ['0', 'X']), (8, ['0', 'o']), (8, ['0', 'O']),
    (2, ['0', 'b']), (2, ['0', 'B'])]

theorem exists_marker (cs : List Char) :
    ∃ radix marker digits, radixAndDigits cs = (radix, digits) ∧ (radix, marker) ∈ markers ∧
      cs = marker ++ digits := by
  unfold radixAndDigits
  split
  · exact ⟨16, ['0', 'x'], _, rfl, by decide, rfl⟩
  · exact ⟨16, ['0', 'X'], _, rfl, by decide, rfl⟩
  · exact ⟨8, ['0', 'o'], _, rfl, by decide, rfl⟩
  · exact ⟨8, ['0', 'O'], _, rfl, by decide, rfl⟩
  · exact ⟨2, ['0', 'b'], _, rfl, by decide, rfl⟩
  · exact ⟨2, ['0', 'B'], _, rfl, by decide, rfl⟩
  · exact ⟨10, [], _, rfl, by decide, rfl⟩

/-- Behind its marker the digits of an amount are found again: decimal digits and underscores
    look like no further marker. -/
theorem radixAndDigits_append {radix n : Nat} {marker digits : List Char}
    (h : (radix, marker) ∈ markers) (hdigits : Spells radix (digits.filter (· != '_')) n) :
    radixAndDigits (marker ++ digits) = (radix, digits) := by
  unfold markers at h
  simp only [List.mem_cons, List.not_mem_nil, or_false, Prod.mk.injEq] at h
  obtain ⟨rfl, rfl⟩ | ⟨rfl, rfl⟩ | ⟨rfl, rfl⟩ | ⟨rfl, rfl⟩ | ⟨rfl, rfl⟩ | ⟨rfl, rfl⟩ |
    ⟨rfl, rfl⟩ := h
  · refine radixAndDigits_of_isDigit fun c hc => ?_
    by_cases hunderscore : c = '_'
    · exact .inr hunderscore
    · have hmem : c ∈ digits.filter (· != '_') :=
        List.mem_filter.mpr ⟨hc, bne_iff_ne.mpr hunderscore⟩
      obtain ⟨d, hd⟩ := hdigits.digit hmem
      obtain ⟨hlt, rfl⟩ := digitChar_of_digitBelow? hd
      exact .inl (Nat.isDigit_digitChar.trans (decide_eq_true hlt))
  all_goals rfl

/-- The text of an amount: a marker, and then digits of its radix that spell the amount, with
    underscores anywhere among them. -/
def IsAmount (n : Nat) (cs : List Char) : Prop :=
  ∃ radix marker digits, (radix, marker) ∈ markers ∧ cs = marker ++ digits ∧
    Spells radix (digits.filter (· != '_')) n

theorem amount?_eq_some_iff {s : String} {w : BitVec 256} :
    amount? s = some w ↔ IsAmount w.toNat s.toList := by
  have hbound : 0 < bitBound 256 := Nat.two_pow_pos 256
  have hread : ∀ radix digits, radixAndDigits s.toList = (radix, digits) →
      (amount? s = some w ↔ Spells radix (digits.filter (· != '_')) w.toNat) := by
    intro radix digits hsplit
    unfold amount?
    rw [hsplit]
    simp only [Option.map_eq_some_iff, digits?_eq_some_iff hbound]
    constructor
    · rintro ⟨n, ⟨hn, hlt⟩, rfl⟩
      have hmod : n % 2 ^ 256 = n := Nat.mod_eq_of_lt hlt
      rwa [BitVec.toNat_ofNat, hmod]
    · intro hw
      exact ⟨w.toNat, ⟨hw, w.isLt⟩, BitVec.ofNat_toNat ..⟩
  constructor
  · intro h
    obtain ⟨radix, marker, digits, hsplit, hmarker, htext⟩ := exists_marker s.toList
    exact ⟨radix, marker, digits, hmarker, htext, (hread radix digits hsplit).mp h⟩
  · rintro ⟨radix, marker, digits, hmarker, htext, hdigits⟩
    refine (hread radix digits ?_).mpr hdigits
    rw [htext]
    exact radixAndDigits_append hmarker hdigits

/-! ## Plain amounts -/

/-- The plain text of an amount: decimal digits, or `0x` and hexadecimal digits, at least one. -/
def IsPlainAmount (n : Nat) (cs : List Char) : Prop :=
  (cs ≠ [] ∧ Spells 10 cs n) ∨
    ∃ digits, digits ≠ [] ∧ cs = '0' :: 'x' :: digits ∧ Spells 16 digits n

/-- A marker, perhaps the empty one, and underscores. -/
def IsDigitless (cs : List Char) : Prop :=
  ∃ entry ∈ markers, ∃ k, cs = entry.2 ++ List.replicate k '_'

/-- The text is not empty nor a marker alone, and has no underscore and no marker but `0x`. -/
def IsPlain (cs : List Char) : Prop :=
  cs ≠ [] ∧ cs ≠ ['0', 'x'] ∧ '_' ∉ cs ∧
    ∀ entry ∈ markers, entry.2 <+: cs → entry.2 = [] ∨ entry.2 = ['0', 'x']

theorem spells_filter {radix n : Nat} {cs : List Char} (h : '_' ∉ cs) :
    Spells radix (cs.filter (· != '_')) n ↔ Spells radix cs n := by
  have hall : ∀ c ∈ cs, (c != '_') = true := by
    intro c hc
    rw [bne_iff_ne]
    rintro rfl
    exact h hc
  rw [List.filter_eq_self.mpr hall]

theorem IsPlainAmount.isAmount {n : Nat} {cs : List Char} (h : IsPlainAmount n cs) :
    IsAmount n cs := by
  rcases h with ⟨-, hdigits⟩ | ⟨digits, -, rfl, hdigits⟩
  · exact ⟨10, [], cs, by decide, rfl, (spells_filter hdigits.underscore_not_mem).mpr hdigits⟩
  · exact ⟨16, ['0', 'x'], digits, by decide, rfl,
      (spells_filter hdigits.underscore_not_mem).mpr hdigits⟩

theorem IsPlainAmount.isPlain {n : Nat} {cs : List Char} (h : IsPlainAmount n cs) :
    IsPlain cs := by
  rcases h with ⟨hne, hdigits⟩ | ⟨digits, hne, rfl, hdigits⟩
  · -- every marker but the empty one has a character that is no decimal digit
    have hletter : ∀ entry ∈ markers,
        (entry.2.all fun c => (digitBelow? 10 c).isSome) = true → entry.2 = [] := by decide
    have hmarker : ∀ entry ∈ markers, entry.2 <+: cs → entry.2 = [] := by
      intro entry hentry hfront
      refine hletter entry hentry (List.all_eq_true.mpr fun c hc => ?_)
      exact Option.isSome_iff_exists.mpr (hdigits.digit (List.IsPrefix.subset hfront hc))
    refine ⟨hne, ?_, hdigits.underscore_not_mem, fun entry hentry hfront =>
      .inl (hmarker entry hentry hfront)⟩
    rintro rfl
    have hnil := hmarker (16, ['0', 'x']) (by decide) (List.prefix_refl _)
    cases hnil
  · have hunderscore : '_' ∉ '0' :: 'x' :: digits := by
      simp [hdigits.underscore_not_mem]
    have hlength : ∀ entry ∈ markers, entry.2.length = 0 ∨ entry.2.length = 2 := by decide
    refine ⟨by simp, by simpa using hne, hunderscore, fun entry hentry hfront => ?_⟩
    rw [List.prefix_iff_eq_take] at hfront
    rcases hlength entry hentry with hzero | htwo
    · exact .inl (List.eq_nil_of_length_eq_zero hzero)
    · rw [htwo] at hfront
      exact .inr hfront

theorem IsAmount.isPlainAmount {n : Nat} {cs : List Char} (h : IsAmount n cs)
    (hplain : IsPlain cs) : IsPlainAmount n cs := by
  obtain ⟨hne, halone, hunderscore, hmarkers⟩ := hplain
  obtain ⟨radix, marker, digits, hmarker, rfl, hdigits⟩ := h
  have hnone : '_' ∉ digits := fun hmem => hunderscore (List.mem_append_right marker hmem)
  rw [spells_filter hnone] at hdigits
  have hdecimal : ∀ entry ∈ markers, entry.2 = [] → entry.1 = 10 := by decide
  have hhexadecimal : ∀ entry ∈ markers, entry.2 = ['0', 'x'] → entry.1 = 16 := by decide
  rcases hmarkers _ hmarker (List.prefix_append _ _) with hnil | hhex
  · obtain rfl : marker = [] := hnil
    obtain rfl : radix = 10 := hdecimal _ hmarker rfl
    exact .inl ⟨hne, hdigits⟩
  · obtain rfl : marker = ['0', 'x'] := hhex
    obtain rfl : radix = 16 := hhexadecimal _ hmarker rfl
    refine .inr ⟨digits, ?_, rfl, hdigits⟩
    rintro rfl
    exact halone rfl

/-- The plain texts of an amount are those among its texts that are plain. -/
theorem isPlainAmount_iff {n : Nat} {cs : List Char} :
    IsPlainAmount n cs ↔ IsAmount n cs ∧ IsPlain cs :=
  ⟨fun h => ⟨h.isAmount, h.isPlain⟩, fun h => h.1.isPlainAmount h.2⟩

theorem isAmount_zero_of_digitless {cs : List Char} (h : IsDigitless cs) : IsAmount 0 cs := by
  obtain ⟨⟨radix, marker⟩, hmarker, k, rfl⟩ := h
  have hnone : (List.replicate k '_').filter (· != '_') = [] := by simp
  refine ⟨radix, marker, _, hmarker, rfl, ?_⟩
  rw [hnone]
  exact spells_nil.mpr rfl

example : amount? "" = some 0 ∧ amount? "0x" = some 0 ∧ amount? "_" = some 0 := by
  decide +kernel

end Autopilot.Text
