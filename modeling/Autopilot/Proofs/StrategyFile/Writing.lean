/-
  Strategy files that are written from a strategy.

  What is written is a file of sections (`render_eq_write`): the strategy's own, one for each
  trigger and one for each action, numbered from one. If the names of the strategy are clean, its
  types legal and its bindings writable for their parameters (`Writable`), the sections can be
  written (`writable_sections`): keys and headings are names, and so are the names of operations.
-/
import Autopilot.Ini.Numbered
import Autopilot.Proofs.Binding
import Autopilot.Proofs.Ini.Sections
import Autopilot.Proofs.Strategy.Built
import Autopilot.Proofs.StrategyFile.SlotList

namespace Autopilot.StrategyFile

open Ini (Written Clean CleanKey numbered)

/-! ## The sections of a strategy -/

/-- The stem of the sections of a kind. -/
def stem : OperationKind → String
  | .trigger => "trigger"
  | .action => "action"

/-- The parameters of an operation as they are listed. -/
def paramsText (op : Operation) : String :=
  ", ".intercalate (op.bindings.map Binding.text)

/-- The section of the operation at a place. -/
def operationSection (kind : OperationKind) (p : Operation × Nat) : Written :=
  ⟨numbered (stem kind) (p.2 + 1), [("op", p.1.name), ("params", paramsText p.1)]⟩

/-- The sections of the operations of a kind. -/
def operationSections (s : Strategy) (kind : OperationKind) : List Written :=
  (s.ofKind kind).zipIdx.map (operationSection kind)

/-- The flag of a flavor. -/
def flavorText (flavor : Flavor) : String :=
  if flavor = .continuous then "true" else "false"

/-- The entry that declares the sub-slots, if there are any. -/
def slotEntries (slots : List SubSlot) : List (String × String) :=
  if slots.isEmpty then [] else [("sub_slots", SubSlot.listText slots)]

/-- The strategy's own section. -/
def strategySection (s : Strategy) : Written :=
  ⟨"strategy", ("name", s.name) :: ("continuous", flavorText s.flavor) :: slotEntries s.subSlots⟩

/-- All sections of a strategy. -/
def sections (s : Strategy) : List Written :=
  strategySection s :: (operationSections s .trigger ++ operationSections s .action)

/-! ## The text -/

theorem joined_strategySection (s : Strategy) :
    (Ini.Line.joined (strategySection s).lines) =
      ("[strategy]\nname = " ++ s.name ++ "\ncontinuous = " ++
        (if s.flavor = .continuous then "true" else "false") ++ "\n" ++
        renderSubSlots s.subSlots).toList := by
  unfold strategySection slotEntries flavorText renderSubSlots SubSlot.listText
  cases s.subSlots.isEmpty with
  | true => simp [Ini.Line.joined, Written.lines, Ini.Line.chars]
  | false => simp [Ini.Line.joined, Written.lines, Ini.Line.chars]

theorem joined_operationSection (kind : OperationKind) (p : Operation × Nat) :
    Ini.Line.joined (.nothing :: (operationSection kind p).lines) =
      (renderOperation (stem kind) (p.2 + 1) p.1).toList := by
  unfold operationSection renderOperation paramsText
  simp [Ini.Line.joined, Written.lines, Ini.Line.chars]

theorem joined_operationSections (s : Strategy) (kind : OperationKind) :
    Ini.Line.joined ((operationSections s kind).flatMap fun w => .nothing :: w.lines) =
      (renderOperations (stem kind) (s.ofKind kind)).toList := by
  unfold renderOperations operationSections
  rw [String.toList_join, List.flatMap_map, List.flatMap_map]
  unfold Ini.Line.joined
  rw [List.flatMap_assoc]
  exact List.flatMap_congr fun p _ => joined_operationSection kind p

/-- A strategy is written as a file of its sections. -/
theorem render_eq_write (s : Strategy) : render s = Ini.write (sections s) := by
  have hlines : Ini.Line.joined (Ini.linesOf (sections s)) =
      Ini.Line.joined (strategySection s).lines ++
        (Ini.Line.joined ((operationSections s .trigger).flatMap fun w => .nothing :: w.lines) ++
          Ini.Line.joined
            ((operationSections s .action).flatMap fun w => .nothing :: w.lines)) := by
    unfold sections Ini.linesOf Ini.Line.joined
    rw [List.flatMap_append, List.flatMap_append, List.flatMap_append]
  have htriggers := joined_operationSections s .trigger
  have hactions := joined_operationSections s .action
  rw [← String.toList_inj]
  unfold Ini.write render
  rw [String.toList_ofList, hlines, joined_strategySection, htriggers, hactions]
  simp only [String.toList_append, List.append_assoc]
  rfl

/-! ## Strategies that can be written -/

/-- The strategy can be written so that it is read back. -/
structure Writable (s : Strategy) : Prop where
  name : Clean s.name
  slots : ∀ slot ∈ s.subSlots, slot.Writable
  bindings : ∀ kind, ∀ op ∈ s.ofKind kind,
    List.Forall₂ Binding.WritableAt (op.signature.params.map (·.type)) op.bindings

theorem isNameChar_of_find? {kind : OperationKind} {name : String} {signature : Signature}
    (h : Catalogue.find? kind name = some signature) :
    ∀ c ∈ name.toList, Text.isNameChar c = true := by
  have hall : ∀ kind, ∀ s ∈ Catalogue.entries kind,
      s.name.toList.all Text.isNameChar = true := by
    intro kind
    cases kind with
    | action => decide +kernel
    | trigger => decide +kernel
  rw [← Catalogue.name_of_find? h]
  exact List.all_eq_true.mp (hall kind signature (List.mem_of_find?_eq_some h))

theorem cleanKey : ∀ key ∈ ["name", "continuous", "sub_slots", "op", "params"], CleanKey key := by
  have hall : ∀ key ∈ ["name", "continuous", "sub_slots", "op", "params"],
      key.toList ≠ [] ∧ key.toList.all Text.isNameChar = true := by decide +kernel
  intro key hkey
  obtain ⟨hne, hname⟩ := hall key hkey
  exact Ini.cleanKey_of_isNameChar hne (List.all_eq_true.mp hname)

theorem clean_numbered (kind : OperationKind) (n : Nat) : Clean (numbered (stem kind) n) := by
  refine Ini.clean_of_forall fun c hc => ?_
  have hstem : ∀ d ∈ (stem kind ++ ".").toList,
      Text.isBlank d = false ∧ Ini.isCommentSign d = false := by
    cases kind with
    | trigger => exact List.all_iff_forall_prop.mp (by decide)
    | action => exact List.all_iff_forall_prop.mp (by decide)
  unfold numbered at hc
  rw [String.toList_append, List.mem_append] at hc
  rcases hc with hc | hc
  · exact hstem c hc
  · have hname := Text.isNameChar_of_isDigit (Text.isDigit_toString hc)
    exact ⟨Text.isBlank_of_isNameChar hname, (Ini.signs_of_isNameChar hname).1⟩

theorem clean_paramsText {types : List SlotType} {op : Operation}
    (h : List.Forall₂ Binding.WritableAt types op.bindings) : Clean (paramsText op) := by
  refine Ini.clean_intercalate fun piece hpiece => ?_
  obtain ⟨b, hb, rfl⟩ := List.mem_map.mp hpiece
  obtain ⟨type, -, hwritable⟩ := exists_of_mem_right h hb
  refine ⟨Ini.clean_of_forall fun c hc => ?_, hwritable.chars.1⟩
  obtain ⟨hblank, hsign⟩ := hwritable.plain c hc
  refine ⟨hblank, ?_⟩
  simp at hsign
  simp [Ini.isCommentSign, hsign]

variable {s : Strategy} (h : Writable s) (hs : s.Built)

include hs in
theorem writable_operationSection {kind : OperationKind} {p : Operation × Nat}
    (hop : p.1 ∈ s.ofKind kind)
    (h : List.Forall₂ Binding.WritableAt (p.1.signature.params.map (·.type)) p.1.bindings) :
    (operationSection kind p).Writable where
  heading := clean_numbered kind (p.2 + 1)
  entries := by
    have hname : Clean p.1.name :=
      Ini.clean_of_isNameChar (isNameChar_of_find? (hs.catalogued kind p.1 hop))
    intro e he
    simp only [operationSection, List.mem_cons, List.not_mem_nil, or_false] at he
    rcases he with rfl | rfl
    · exact ⟨cleanKey "op" (by simp), hname⟩
    · exact ⟨cleanKey "params" (by simp), clean_paramsText h⟩

include h in
theorem writable_strategySection : (strategySection s).Writable where
  heading := by
    have hname : "strategy".toList.all Text.isNameChar = true := by decide +kernel
    exact Ini.clean_of_isNameChar (List.all_eq_true.mp hname)
  entries := by
    have hname : (flavorText s.flavor).toList.all Text.isNameChar = true := by
      cases s.flavor with
      | continuous => decide +kernel
      | oneShot => decide +kernel
    have hflag : Clean (flavorText s.flavor) :=
      Ini.clean_of_isNameChar (List.all_eq_true.mp hname)
    intro e he
    simp only [strategySection, slotEntries, List.mem_cons] at he
    rcases he with rfl | rfl | he
    · exact ⟨cleanKey "name" (by simp), h.name⟩
    · exact ⟨cleanKey "continuous" (by simp), hflag⟩
    · split at he
      · cases he
      · rw [List.mem_singleton.mp he]
        exact ⟨cleanKey "sub_slots" (by simp), SubSlot.clean_listText h.slots⟩

include h hs in
theorem writable_sections : ∀ w ∈ sections s, w.Writable := by
  have hoperations : ∀ kind, ∀ w ∈ operationSections s kind, w.Writable := by
    intro kind w hw
    obtain ⟨p, hp, rfl⟩ := List.mem_map.mp hw
    have hop := List.fst_mem_of_mem_zipIdx hp
    exact writable_operationSection hs hop (h.bindings kind p.1 hop)
  intro w hw
  rcases List.mem_cons.mp hw with rfl | hw
  · exact writable_strategySection h
  · exact (List.mem_append.mp hw).elim (hoperations .trigger w) (hoperations .action w)

end Autopilot.StrategyFile
