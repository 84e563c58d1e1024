/-
  Numbered sections: which are counted, and which are found by their numbers.

  The entries of a stem are what stands behind it in the headings, where nothing more is dotted off.
  They are counted exactly if they are numerals for one, two and so on (`countNumbered_eq_ok_iff`).
  A numeral may have zeros or a plus sign in front, but who asks for the section of a number
  writes the plain one, so the sections that are asked for are there exactly if all of the
  numerals are plain (`counted_sections`).

  Headings that are written with plain numbers, in whatever order the file has them, are found in
  the order of their numbers (`numberedHeadings_of_perm`).
-/
import Autopilot.Ini.Numbered
import Autopilot.Proofs.Outcome
import Autopilot.Proofs.Text.Literals
import Mathlib.Data.List.Nodup
import Mathlib.Data.List.Perm.Subperm

namespace Autopilot.Ini

/-- The number in the heading of a section of a stem. -/
def number? (stem heading : String) : Option Nat :=
  (numberText? stem heading).bind (Text.unsigned? (bitBound 64))

/-! ## One heading -/

theorem numberText?_eq_some_iff {stem heading text : String} :
    numberText? stem heading = some text ↔ heading = stem ++ "." ++ text ∧ '.' ∉ text.toList := by
  have hfront : ∀ text : String, (stem.toList ++ ['.']).isPrefixOf? heading.toList =
      some text.toList ↔ heading = stem ++ "." ++ text := by
    intro text
    rw [List.isPrefixOf?_eq_some_iff_append_eq, ← String.toList_inj]
    simp [eq_comm]
  unfold numberText?
  constructor
  · intro h
    split at h
    · next rest hrest =>
      split at h
      · cases h
      · next hdot =>
        cases h
        rw [← hfront, String.toList_ofList]
        exact ⟨hrest, by simpa using hdot⟩
    · cases h
  · rintro ⟨hheading, hdot⟩
    rw [(hfront text).mpr hheading]
    dsimp only
    rw [if_neg (by simpa using hdot), String.ofList_toList]

theorem numberText?_numbered (stem : String) (n : Nat) :
    numberText? stem (numbered stem n) = some (toString n) := by
  refine numberText?_eq_some_iff.mpr ⟨rfl, fun hdot => ?_⟩
  exact absurd (Text.isDigit_toString hdot) (by decide)

theorem number?_numbered {stem : String} {n : Nat} (h : n < bitBound 64) :
    number? stem (numbered stem n) = some n := by
  unfold number?
  rw [numberText?_numbered]
  exact Text.unsigned?_toString h

/-- A heading that starts with another character than the stem is no section of it. -/
theorem numberText?_of_head? {stem heading : String} {c d : Char}
    (hstem : stem.toList.head? = some c) (hheading : heading.toList.head? = some d) (hne : c ≠ d) :
    numberText? stem heading = none := by
  unfold numberText?
  cases hfront : List.isPrefixOf? (stem.toList ++ ['.']) heading.toList with
  | none => rfl
  | some rest =>
    have happend := List.isPrefixOf?_eq_some_iff_append_eq.mp hfront
    rw [← happend, List.append_assoc, List.head?_append, hstem] at hheading
    exact absurd (Option.some.inj hheading) hne

theorem head?_numbered {stem : String} {c : Char} (h : stem.toList.head? = some c) (n : Nat) :
    (numbered stem n).toList.head? = some c := by
  unfold numbered
  simp [List.head?_append, h]

theorem numbered_injective (stem : String) : Function.Injective (numbered stem) := by
  intro m n h
  have hnumbers : some (toString m) = some (toString n) := by
    rw [← numberText?_numbered stem m, h, numberText?_numbered]
  exact Text.toString_injective (Option.some.inj hnumbers)

/-! ## All headings -/

theorem sectionNumbers_eq_ok_iff {stem : String} {headings : List String} {numbers : List Nat} :
    sectionNumbers stem headings = .ok numbers ↔
      List.Forall₂ (fun text n => Text.unsigned? (bitBound 64) text = some n)
        (headings.filterMap (numberText? stem)) numbers := by
  induction headings generalizing numbers with
  | nil => simp [sectionNumbers, eq_comm]
  | cons heading rest ih =>
    unfold sectionNumbers
    cases htext : numberText? stem heading with
    | none =>
      rw [List.filterMap_cons_none htext]
      exact ih
    | some text =>
      rw [List.filterMap_cons_some htext, List.forall₂_cons_left_iff]
      dsimp only
      cases hnumber : Text.unsigned? (bitBound 64) text with
      | none => simp
      | some n =>
        dsimp only
        rw [map_eq_ok]
        constructor
        · rintro ⟨others, hothers, rfl⟩
          exact ⟨n, others, rfl, ih.mp hothers, rfl⟩
        · rintro ⟨first, others, hfirst, hothers, rfl⟩
          cases hfirst
          exact ⟨others, ih.mpr hothers, rfl⟩

/-- Where every item has an image, the images are those of the items one by one. -/
theorem forall₂_filterMap {α β : Type} {f : α → Option β} {xs : List α}
    (h : ∀ x ∈ xs, ∃ y, f x = some y) :
    List.Forall₂ (fun x y => f x = some y) xs (xs.filterMap f) := by
  induction xs with
  | nil => exact .nil
  | cons x xs ih =>
    obtain ⟨⟨y, hy⟩, hrest⟩ := List.forall_mem_cons.mp h
    rw [List.filterMap_cons_some hy]
    exact .cons hy (ih hrest)

theorem sectionNumbers_eq {stem : String} {headings : List String}
    (h : ∀ heading ∈ headings, ∀ text, numberText? stem heading = some text →
      ∃ n, Text.unsigned? (bitBound 64) text = some n) :
    sectionNumbers stem headings = .ok (headings.filterMap (number? stem)) := by
  have hsplit : headings.filterMap (number? stem) =
      (headings.filterMap (numberText? stem)).filterMap (Text.unsigned? (bitBound 64)) :=
    (List.filterMap_filterMap ..).symm
  rw [sectionNumbers_eq_ok_iff, hsplit]
  refine forall₂_filterMap fun text htext => ?_
  obtain ⟨heading, hheading, hsome⟩ := List.mem_filterMap.mp htext
  exact h heading hheading text hsome

/-- Numbers pass as a run exactly if they are one. -/
theorem checkRun_eq_ok_iff {stem : String} {first : Nat} {numbers : List Nat} :
    checkRun stem first numbers = .ok () ↔ numbers = List.range' first numbers.length := by
  induction numbers generalizing first with
  | nil => simp [checkRun]
  | cons found rest ih =>
    unfold checkRun
    rw [List.length_cons, List.range'_succ, List.cons.injEq]
    by_cases hfound : found = first
    · rw [if_pos hfound, ih]
      simp [hfound]
    · rw [if_neg hfound]
      simp [hfound]

/-- Numbers in any order are put into theirs. -/
theorem mergeSort_of_perm {ns : List Nat} {first n : Nat} (h : ns.Perm (List.range' first n)) :
    ns.mergeSort (· ≤ ·) = List.range' first n := by
  have hsorted : (ns.mergeSort (· ≤ ·)).Pairwise fun a b => decide (a ≤ b) = true :=
    List.pairwise_mergeSort (by simp; omega) (by simp; omega) ns
  have hrange : (List.range' first n).Pairwise fun a b => decide (a ≤ b) = true :=
    (List.pairwise_le_range' 1).imp fun hle => decide_eq_true hle
  refine List.Perm.eq_of_pairwise ?_ hsorted hrange ((List.mergeSort_perm ns _).trans h)
  intro a b _ _ hab hba
  exact Nat.le_antisymm (of_decide_eq_true hab) (of_decide_eq_true hba)

/-- The entries of a stem are counted exactly if they are numerals whose numbers run from one on,
    in whatever order. -/
theorem countNumbered_eq_ok_iff_numbers {ini : Ini} {stem : String} {n : Nat} :
    ini.countNumbered stem = .ok n ↔ ∃ numbers,
      sectionNumbers stem ini.headings = .ok numbers ∧ numbers.Perm (List.range' 1 n) := by
  unfold countNumbered
  rw [bind_eq_ok]
  refine exists_congr fun numbers => and_congr_right fun _ => ?_
  constructor
  · intro h
    obtain ⟨u, hrun, hcount⟩ := bind_eq_ok.mp h
    have hcount : (numbers.mergeSort (· ≤ ·)).length = n := Except.ok.inj hcount
    have hordered := checkRun_eq_ok_iff.mp hrun
    rw [hcount] at hordered
    exact hordered ▸ (List.mergeSort_perm numbers _).symm
  · intro hperm
    dsimp only
    rw [mergeSort_of_perm hperm]
    refine bind_eq_ok.mpr ⟨(), checkRun_eq_ok_iff.mpr ?_, ?_⟩
    · rw [List.length_range']
    · show Except.ok (List.range' 1 n).length = _
      rw [List.length_range']

/-- Sections of a stem whose numbers run from one on are found in order. -/
theorem numberedHeadings_of_numbers {ini : Ini} {stem : String} {numbers : List Nat} {n : Nat}
    (hread : sectionNumbers stem ini.headings = .ok numbers)
    (hperm : numbers.Perm (List.range' 1 n)) :
    ini.numberedHeadings stem = .ok ((List.range n).map fun i => numbered stem (i + 1)) := by
  unfold numberedHeadings
  rw [countNumbered_eq_ok_iff_numbers.mpr ⟨numbers, hread, hperm⟩]
  rfl

/-- Sections of a stem that are numbered from one on are found in order, wherever they stand. -/
theorem numberedHeadings_of_perm {ini : Ini} {stem : String} {headings : List String} {n : Nat}
    (hperm : ini.headings.Perm headings)
    (hread : ∀ heading ∈ headings, ∀ text, numberText? stem heading = some text →
      ∃ n, Text.unsigned? (bitBound 64) text = some n)
    (hnumbers : headings.filterMap (number? stem) = List.range' 1 n) :
    ini.numberedHeadings stem = .ok ((List.range n).map fun i => numbered stem (i + 1)) := by
  have hread' := sectionNumbers_eq fun heading hheading =>
    hread heading (hperm.mem_iff.mp hheading)
  have hperm' : (ini.headings.filterMap (number? stem)).Perm (List.range' 1 n) :=
    hnumbers ▸ hperm.filterMap (number? stem)
  exact numberedHeadings_of_numbers hread' hperm'

/-! ## Entries -/

/-- What stands behind the stem and a dot in the headings, where nothing more is dotted off. -/
def entries (ini : Ini) (stem : String) : List String :=
  ini.headings.filterMap (numberText? stem)

theorem mem_entries {ini : Ini} {stem text : String} :
    text ∈ ini.entries stem ↔ stem ++ "." ++ text ∈ ini.headings ∧ '.' ∉ text.toList := by
  unfold entries
  rw [List.mem_filterMap]
  simp only [numberText?_eq_some_iff]
  constructor
  · rintro ⟨heading, hheading, rfl, hdot⟩
    exact ⟨hheading, hdot⟩
  · rintro ⟨hheading, hdot⟩
    exact ⟨_, hheading, rfl, hdot⟩

theorem toString_mem_entries {ini : Ini} {stem : String} {n : Nat} :
    toString n ∈ ini.entries stem ↔ numbered stem n ∈ ini.headings := by
  have hdot : '.' ∉ (toString n).toList := fun h =>
    absurd (Text.isDigit_toString h) (by decide)
  rw [mem_entries, and_iff_left hdot]
  rfl

/-- The plain numerals of the numbers from one on. -/
def plainNumerals (n : Nat) : List String :=
  (List.range' 1 n).map toString

theorem nodup_plainNumerals (n : Nat) : (plainNumerals n).Nodup :=
  List.Nodup.map Text.toString_injective List.nodup_range'

/-- The entries of a stem are counted exactly if they are numerals for the numbers from one on. -/
theorem countNumbered_eq_ok_iff {ini : Ini} {stem : String} {n : Nat} :
    ini.countNumbered stem = .ok n ↔ n < bitBound 64 ∧ ∃ texts, (ini.entries stem).Perm texts ∧
      List.Forall₂ Text.IsUnsigned (List.range' 1 n) texts := by
  have hbound : (∀ number ∈ List.range' 1 n, number < bitBound 64) ↔ n < bitBound 64 := by
    simp only [List.mem_range'_1]
    constructor
    · intro h
      rcases Nat.eq_zero_or_pos n with rfl | hn
      · decide
      · exact h n (by omega)
    · intro h number hnumber
      omega
  have hread : ∀ texts, List.Forall₂ (fun text number =>
      Text.unsigned? (bitBound 64) text = some number) texts (List.range' 1 n) ↔
      n < bitBound 64 ∧ List.Forall₂ Text.IsUnsigned (List.range' 1 n) texts := by
    intro texts
    rw [← hbound, ← List.forall₂_and_left]
    simp only [Text.unsigned?_eq_some_iff]
    exact ⟨List.Forall₂.flip, List.Forall₂.flip⟩
  -- reading the entries and ordering their numbers is ordering the entries and reading them
  have hswap := iff_of_eq (congrFun₂ (List.forall₂_comp_perm_eq_perm_comp_forall₂
    (r := fun text number => Text.unsigned? (bitBound 64) text = some number))
    (ini.entries stem) (List.range' 1 n))
  rw [countNumbered_eq_ok_iff_numbers]
  simp only [sectionNumbers_eq_ok_iff]
  refine hswap.trans ?_
  unfold Relation.Comp
  simp only [hread]
  exact ⟨fun ⟨texts, hperm, hn, htexts⟩ => ⟨hn, texts, hperm, htexts⟩,
    fun ⟨hn, texts, hperm, htexts⟩ => ⟨texts, hperm, hn, htexts⟩⟩

theorem length_entries {ini : Ini} {stem : String} {n : Nat}
    (h : ini.countNumbered stem = .ok n) : (ini.entries stem).length = n := by
  obtain ⟨-, texts, hperm, htexts⟩ := countNumbered_eq_ok_iff.mp h
  rw [hperm.length_eq, ← htexts.length_eq, List.length_range']

/-- **Numbered sections.** The entries of a stem are counted exactly if they are numerals for one,
    two and so on. Plain numerals are such, and where the count is `n`, the sections of the
    numbers up to `n` are all there only if the entries are the plain numerals. -/
theorem counted_sections {ini : Ini} {stem : String} {n : Nat} :
    (ini.countNumbered stem = .ok n ↔ n < bitBound 64 ∧ ∃ texts,
      (ini.entries stem).Perm texts ∧ List.Forall₂ Text.IsUnsigned (List.range' 1 n) texts) ∧
    ((ini.entries stem).Perm (plainNumerals n) → n < bitBound 64 →
      ini.countNumbered stem = .ok n) ∧
    (ini.countNumbered stem = .ok n →
      ((∀ k, 1 ≤ k → k ≤ n → numbered stem k ∈ ini.headings) ↔
        (ini.entries stem).Perm (plainNumerals n))) := by
  refine ⟨countNumbered_eq_ok_iff, fun hperm hn => ?_, fun hcount => ?_⟩
  · refine countNumbered_eq_ok_iff.mpr ⟨hn, plainNumerals n, hperm, ?_⟩
    unfold plainNumerals
    rw [List.forall₂_map_right_iff, List.forall₂_same]
    exact fun k _ => Text.isUnsigned_toString k
  · constructor
    · intro hall
      have hsub : plainNumerals n ⊆ ini.entries stem := by
        intro text htext
        obtain ⟨k, hk, rfl⟩ := List.mem_map.mp htext
        rw [List.mem_range'_1] at hk
        exact toString_mem_entries.mpr (hall k hk.1 (by omega))
      have hlength : (ini.entries stem).length ≤ (plainNumerals n).length := by
        rw [length_entries hcount, plainNumerals, List.length_map, List.length_range']
      exact (((nodup_plainNumerals n).subperm hsub).perm_of_length_le hlength).symm
    · intro hperm k hk hkn
      refine toString_mem_entries.mp (hperm.mem_iff.mpr (List.mem_map.mpr ⟨k, ?_, rfl⟩))
      rw [List.mem_range'_1]
      omega

/-- A file with two actions, the second one first, and a part of the first. -/
def twoActions : Ini :=
  ⟨NameMap.ofList [("action.2", .empty), ("action.1", .empty), ("action.1.notes", .empty)]⟩

theorem counted_sections_twoActions :
    twoActions.countNumbered "action" = .ok 2 ∧
      ∀ k, 1 ≤ k → k ≤ 2 → numbered "action" k ∈ twoActions.headings := by
  have hplain : (twoActions.entries "action").Perm (plainNumerals 2) := by decide
  have hcount := counted_sections.2.1 hplain (by decide)
  exact ⟨hcount, (counted_sections.2.2 hcount).mpr hplain⟩

/-- A file with one action, whose number has a zero in front. -/
def zeroPadded : Ini :=
  ⟨NameMap.ofList [("action.01", NameMap.ofList [("op", some "MakerRatio")])]⟩

/-- The action is counted, and there is no section under its number. -/
theorem counted_zeroPadded :
    Ini.read "[action.01]\nop = MakerRatio\n" = .ok zeroPadded ∧
      zeroPadded.countNumbered "action" = .ok 1 ∧
      ¬ (zeroPadded.entries "action").Perm (plainNumerals 1) ∧
      numbered "action" 1 ∉ zeroPadded.headings := by
  refine ⟨rfl, countNumbered_eq_ok_iff.mpr ⟨by decide, ["01"], ?_, ?_⟩, by decide, by decide⟩
  · decide
  · exact .cons (.inl ⟨1, rfl⟩) .nil

end Autopilot.Ini
