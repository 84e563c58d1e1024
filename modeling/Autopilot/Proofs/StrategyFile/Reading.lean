/-
  Strategy files that are read as the strategy they were written from.

  The sections of the operations are found in order: a heading starts with another letter than
  those of the other kind and of the strategy's own section, and its number is read back
  (`numberedHeadings_ofSections`). Each section is read as its operation, the strategy's own as
  its name, flavor and sub-slots, so the file describes the strategy (`draft_ofSections`), and a
  built strategy that can be written is built from its file again (`read_render`).
-/
import Autopilot.Proofs.Ini.Numbered
import Autopilot.Proofs.StrategyFile.Writing

namespace Autopilot.StrategyFile

open Ini (Written Clean numbered)

variable {s : Strategy} (h : Writable s) (hs : s.Built)

/-! ## The numbered sections -/

/-- The character that the headings of a kind start with. -/
def initial : OperationKind → Char
  | .trigger => 't'
  | .action => 'a'

theorem head?_stem (kind : OperationKind) : (stem kind).toList.head? = some (initial kind) := by
  cases kind with
  | trigger => simp [stem, initial]
  | action => simp [stem, initial]

theorem initial_inj {kind kind' : OperationKind} (h : initial kind = initial kind') :
    kind = kind' := by
  cases kind with
  | trigger =>
    cases kind' with
    | trigger => rfl
    | action => exact absurd h (by decide)
  | action =>
    cases kind' with
    | trigger => exact absurd h (by decide)
    | action => rfl

theorem initial_ne_strategy (kind : OperationKind) : initial kind ≠ 's' := by
  cases kind with
  | trigger => decide
  | action => decide

/-- The headings of the operations of a kind. -/
def operationHeadings (s : Strategy) (kind : OperationKind) : List String :=
  (s.ofKind kind).zipIdx.map fun p => numbered (stem kind) (p.2 + 1)

theorem map_heading_operationSections (s : Strategy) (kind : OperationKind) :
    (operationSections s kind).map (·.heading) = operationHeadings s kind := by
  unfold operationSections operationHeadings
  rw [List.map_map]
  rfl

theorem map_heading_sections (s : Strategy) :
    (sections s).map (·.heading) =
      "strategy" :: (operationHeadings s .trigger ++ operationHeadings s .action) := by
  unfold sections
  rw [List.map_cons, List.map_append, map_heading_operationSections,
    map_heading_operationSections]
  rfl

theorem operationHeadings_eq_range (s : Strategy) (kind : OperationKind) :
    operationHeadings s kind =
      (List.range (s.ofKind kind).length).map fun i => numbered (stem kind) (i + 1) := by
  have hplaces := List.zipIdx_map_snd 0 (s.ofKind kind)
  unfold operationHeadings
  rw [List.range_eq_range', ← hplaces, List.map_map]
  rfl

theorem mem_operationHeadings {kind : OperationKind} {heading : String}
    (h : heading ∈ operationHeadings s kind) :
    ∃ i < (s.ofKind kind).length, heading = numbered (stem kind) (i + 1) := by
  rw [operationHeadings_eq_range] at h
  obtain ⟨i, hi, rfl⟩ := List.mem_map.mp h
  exact ⟨i, List.mem_range.mp hi, rfl⟩

include hs in
/-- The numbers of the operations have 64 bits. -/
theorem lt_of_place {kind : OperationKind} {i : Nat} (hi : i < (s.ofKind kind).length) :
    i + 1 < bitBound 64 := by
  have hbound : bitBound 64 = 2 ^ 64 := rfl
  have hcount : (s.ofKind kind).length ≤ 255 := by
    cases kind with
    | trigger => exact hs.triggers_le
    | action => exact Nat.le_trans hs.actions_le (by decide)
  omega

theorem numberText?_strategy (kind : OperationKind) :
    Ini.numberText? (stem kind) "strategy" = none :=
  Ini.numberText?_of_head? (head?_stem kind) (by simp) (initial_ne_strategy kind)

theorem numberText?_other {kind kind' : OperationKind} (hne : kind ≠ kind') (n : Nat) :
    Ini.numberText? (stem kind) (numbered (stem kind') n) = none :=
  Ini.numberText?_of_head? (head?_stem kind) (Ini.head?_numbered (head?_stem kind') n)
    fun heq => hne (initial_inj heq)

theorem nodup_operationHeadings (s : Strategy) (kind : OperationKind) :
    (operationHeadings s kind).Nodup := by
  rw [operationHeadings_eq_range]
  refine List.Nodup.map (fun i j heq => ?_) List.nodup_range
  exact Nat.succ.inj (Ini.numbered_injective (stem kind) heq)

theorem nodup_headings (s : Strategy) : ((sections s).map (·.heading)).Nodup := by
  have hinitial : ∀ kind, ∀ heading ∈ operationHeadings s kind,
      heading.toList.head? = some (initial kind) := by
    intro kind heading hheading
    obtain ⟨i, -, rfl⟩ := mem_operationHeadings hheading
    exact Ini.head?_numbered (head?_stem kind) (i + 1)
  rw [map_heading_sections, List.nodup_cons, List.nodup_append]
  refine ⟨?_, nodup_operationHeadings s .trigger, nodup_operationHeadings s .action, ?_⟩
  · intro hmem
    have hhead : "strategy".toList.head? = some 's' := by simp
    rcases List.mem_append.mp hmem with hmem | hmem
    · rw [hinitial .trigger _ hmem] at hhead
      exact initial_ne_strategy .trigger (Option.some.inj hhead)
    · rw [hinitial .action _ hmem] at hhead
      exact initial_ne_strategy .action (Option.some.inj hhead)
  · rintro heading htrigger _ haction rfl
    have hhead := hinitial .trigger heading htrigger
    rw [hinitial .action heading haction] at hhead
    exact absurd (Option.some.inj hhead) (by decide)

include hs in
theorem filterMap_number?_own (kind : OperationKind) :
    (operationHeadings s kind).filterMap (Ini.number? (stem kind)) =
      List.range' 1 (s.ofKind kind).length := by
  rw [operationHeadings_eq_range, List.filterMap_map, List.range'_eq_map_range,
    ← List.filterMap_eq_map]
  refine List.filterMap_congr fun i hi => ?_
  show Ini.number? (stem kind) (numbered (stem kind) (i + 1)) = some (1 + i)
  rw [Ini.number?_numbered (lt_of_place hs (List.mem_range.mp hi)), Nat.add_comm]

theorem filterMap_number?_other {kind kind' : OperationKind} (hne : kind ≠ kind') :
    (operationHeadings s kind').filterMap (Ini.number? (stem kind)) = [] := by
  refine List.filterMap_eq_nil_iff.mpr fun heading hheading => ?_
  obtain ⟨i, -, rfl⟩ := mem_operationHeadings hheading
  rw [Ini.number?, numberText?_other hne]
  rfl

include hs in
/-- The sections of a kind are found in the order of the operations. -/
theorem numberedHeadings_ofSections (kind : OperationKind) :
    (Ini.ofSections (sections s)).numberedHeadings (stem kind) =
      .ok (operationHeadings s kind) := by
  have hstrategy : Ini.number? (stem kind) "strategy" = none := by
    rw [Ini.number?, numberText?_strategy]
    rfl
  rw [operationHeadings_eq_range]
  refine Ini.numberedHeadings_of_perm (Ini.headings_perm_ofSections (nodup_headings s)) ?_ ?_
  · intro heading hheading text htext
    rw [map_heading_sections, List.mem_cons, List.mem_append] at hheading
    have hnumbered : ∀ kind', heading ∈ operationHeadings s kind' →
        ∃ n, Text.unsigned? (bitBound 64) text = some n := by
      intro kind' hmem
      obtain ⟨i, hi, rfl⟩ := mem_operationHeadings hmem
      by_cases hkind : kind = kind'
      · rw [hkind, Ini.numberText?_numbered] at htext
        cases htext
        exact ⟨_, Text.unsigned?_toString (lt_of_place hs hi)⟩
      · rw [numberText?_other hkind] at htext
        cases htext
    rcases hheading with rfl | htrigger | haction
    · rw [numberText?_strategy] at htext
      cases htext
    · exact hnumbered .trigger htrigger
    · exact hnumbered .action haction
  · rw [map_heading_sections, List.filterMap_cons_none hstrategy, List.filterMap_append]
    cases kind with
    | trigger =>
      rw [filterMap_number?_own hs, filterMap_number?_other (by decide), List.append_nil]
    | action =>
      rw [filterMap_number?_own hs, filterMap_number?_other (by decide), List.nil_append]

/-! ## Reading the sections -/

theorem mem_sections {kind : OperationKind} {w : Written} (hw : w ∈ operationSections s kind) :
    w ∈ sections s := by
  refine List.mem_cons_of_mem _ (List.mem_append.mpr ?_)
  cases kind with
  | trigger => exact .inl hw
  | action => exact .inr hw

include h hs in
theorem operation_ofSections {kind : OperationKind} {p : Operation × Nat}
    (hp : p ∈ (s.ofKind kind).zipIdx) :
    operation (Ini.ofSections (sections s)) kind (numbered (stem kind) (p.2 + 1)) =
      .ok p.1.toDraft := by
  have hop : p.1 ∈ s.ofKind kind := List.fst_mem_of_mem_zipIdx hp
  have hsection : operationSection kind p ∈ sections s :=
    mem_sections (List.mem_map_of_mem hp)
  have hkeys : ((operationSection kind p).entries.map (·.1)).Nodup := by
    simp [operationSection]
  have hname : (Ini.ofSections (sections s)).valueD (numbered (stem kind) (p.2 + 1)) "op" =
      p.1.name :=
    Ini.valueD_ofSections (nodup_headings s) hsection hkeys (by simp [operationSection])
  have hparams : (Ini.ofSections (sections s)).valueD (numbered (stem kind) (p.2 + 1)) "params" =
      paramsText p.1 :=
    Ini.valueD_ofSections (nodup_headings s) hsection hkeys (by simp [operationSection])
  have hfind : Catalogue.find? kind p.1.name = some p.1.signature := hs.catalogued kind p.1 hop
  have htrim : Text.trim p.1.name = p.1.name :=
    Text.trim_of_tight (Ini.clean_of_isNameChar (isNameChar_of_find? hfind)).tight
  unfold operation
  rw [hname, hparams, htrim]
  dsimp only
  rw [hfind]
  dsimp only
  rw [show paramsText p.1 = ", ".intercalate (p.1.bindings.map Binding.text) from rfl,
    Binding.readList_text (h.bindings kind p.1 hop)]
  rfl

include h hs in
theorem operations_ofSections (kind : OperationKind) :
    operations (Ini.ofSections (sections s)) kind (stem kind) =
      .ok ((s.ofKind kind).map Operation.toDraft) := by
  have hfst := List.zipIdx_map_fst 0 (s.ofKind kind)
  have hdrafts : (s.ofKind kind).map Operation.toDraft =
      (s.ofKind kind).zipIdx.map fun p => p.1.toDraft := by
    conv_lhs => rw [← hfst]
    rw [List.map_map]
    rfl
  have hread : (operationHeadings s kind).mapM
      (operation (Ini.ofSections (sections s)) kind) =
        .ok ((s.ofKind kind).map Operation.toDraft) := by
    unfold operationHeadings
    rw [hdrafts, mapM_eq_ok, List.forall₂_map_left_iff, List.forall₂_map_right_iff,
      List.forall₂_same]
    exact fun p hp => operation_ofSections h hs hp
  unfold operations
  rw [numberedHeadings_ofSections hs]
  exact hread

theorem nodup_strategyKeys (s : Strategy) : ((strategySection s).entries.map (·.1)).Nodup := by
  unfold strategySection slotEntries
  cases s.subSlots.isEmpty with
  | true => simp
  | false => simp

include h in
theorem subSlots_ofSections : subSlots (Ini.ofSections (sections s)) = .ok s.subSlots := by
  have hvalue : (Ini.ofSections (sections s)).valueD "strategy" "sub_slots" =
      SubSlot.listText s.subSlots := by
    cases hslots : s.subSlots with
    | nil =>
      have hnone : ∀ value, (Ini.ofSections (sections s)).value? "strategy" "sub_slots" ≠
          some value := by
        intro value hvalue
        have hmem := (Ini.value?_ofSections (nodup_headings s) List.mem_cons_self
          (nodup_strategyKeys s)).mp hvalue
        simp [strategySection, slotEntries, hslots] at hmem
      unfold Ini.valueD
      rw [Option.eq_none_iff_forall_ne_some.mpr hnone]
      rfl
    | cons slot slots =>
      rw [← hslots]
      refine Ini.valueD_ofSections (nodup_headings s) List.mem_cons_self
        (nodup_strategyKeys s) ?_
      simp [strategySection, slotEntries, hslots]
  unfold subSlots
  rw [hvalue, SubSlot.readList_listText h.slots]
  rfl

theorem flavor_ofSections (s : Strategy) :
    (if (Ini.ofSections (sections s)).bool "strategy" "continuous" true then Flavor.continuous
      else .oneShot) = s.flavor := by
  have hvalue : (Ini.ofSections (sections s)).value? "strategy" "continuous" =
      some (flavorText s.flavor) :=
    (Ini.value?_ofSections (nodup_headings s) List.mem_cons_self (nodup_strategyKeys s)).mpr
      (by simp [strategySection])
  have hflag : ∀ flavor, Ini.flag? (flavorText flavor) = some (decide (flavor = .continuous)) := by
    intro flavor
    cases flavor with
    | continuous => decide
    | oneShot => decide
  unfold Ini.bool
  rw [hvalue, Option.bind_some, hflag]
  cases s.flavor with
  | continuous => rfl
  | oneShot => rfl

include h hs in
/-- The sections of a strategy describe it. -/
theorem draft_ofSections : draft (Ini.ofSections (sections s)) = .ok s.toDraft := by
  have hname : (Ini.ofSections (sections s)).valueD "strategy" "name" = s.name :=
    Ini.valueD_ofSections (nodup_headings s) List.mem_cons_self (nodup_strategyKeys s)
      (by simp [strategySection])
  have htriggers := operations_ofSections h hs .trigger
  have hactions := operations_ofSections h hs .action
  unfold draft
  refine bind_eq_ok.mpr ⟨_, subSlots_ofSections h, bind_eq_ok.mpr ⟨_, htriggers,
    bind_eq_ok.mpr ⟨_, hactions, ?_⟩⟩⟩
  rw [hname, Text.trim_of_tight h.name.tight, flavor_ofSections s]
  rfl

include h hs in
/-- A strategy that can be written is built again from its file. -/
theorem read_render : ∃ ini, Ini.read (render s) = .ok ini ∧ build ini = .ok s := by
  refine ⟨Ini.ofSections (sections s), ?_, ?_⟩
  · rw [render_eq_write]
    exact Ini.read_write (writable_sections h hs) (nodup_headings s)
  · exact bind_eq_ok.mpr ⟨s.toDraft, draft_ofSections h hs, build_eq_ok_iff.mpr ⟨rfl, hs⟩⟩

end Autopilot.StrategyFile
