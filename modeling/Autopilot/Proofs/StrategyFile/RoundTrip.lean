/-
  From a file to bytes and back, and from a file to a file.

  What reading a file returns can be written (`writable_of_build`): its values are clean, so the
  names in it are, and the readers of types and of parameters return legal types and constants
  that fit. A strategy of this sort can be encoded (`encodable_of_writable`), and it is built
  again from the file it is written as. So both round trips go from any text that describes a
  strategy.
-/
import Autopilot.Proofs.StrategyFile.Reading
import Autopilot.Proofs.Wire.RoundTrip

namespace Autopilot.StrategyFile

open Ini (Clean CleanValues)

/-! ## What is read can be written -/

/-- The operation has a signature, and its bindings can be written for the parameters. -/
def WritableOperation (kind : OperationKind) (op : DraftOperation) : Prop :=
  ∃ signature, Catalogue.find? kind op.name = some signature ∧
    List.Forall₂ Binding.WritableAt (signature.params.map (·.type)) op.bindings

theorem writable_of_operation {ini : Ini} {kind : OperationKind} {heading : String}
    {op : DraftOperation} (h : operation ini kind heading = .ok op) :
    WritableOperation kind op := by
  unfold operation at h
  dsimp only at h
  split at h
  · cases h
  · next signature hfind =>
    split at h
    · next bindings hread =>
      cases h
      exact ⟨signature, hfind, Binding.writableAt_of_readList hread⟩
    · cases h

theorem writable_of_operations {ini : Ini} {kind : OperationKind} {stem : String}
    {ops : List DraftOperation} (h : operations ini kind stem = .ok ops) :
    ∀ op ∈ ops, WritableOperation kind op := by
  obtain ⟨headings, -, hread⟩ := bind_eq_ok.mp h
  intro op hop
  obtain ⟨heading, -, hone⟩ := exists_of_mem_right (mapM_eq_ok.mp hread) hop
  exact writable_of_operation hone

theorem writable_of_subSlots {ini : Ini} (hclean : CleanValues ini) {slots : List SubSlot}
    (h : subSlots ini = .ok slots) : ∀ slot ∈ slots, slot.Writable :=
  SubSlot.writable_of_readList (mapError_eq_ok.mp h) (hclean.valueD "strategy" "sub_slots")

/-- A strategy that was built from a file of clean values can be written. -/
theorem writable_of_build {ini : Ini} {s : Strategy} (hclean : CleanValues ini)
    (h : build ini = .ok s) : Writable s := by
  obtain ⟨d, hdraft, hbuild⟩ := bind_eq_ok.mp h
  obtain ⟨rfl, hs⟩ := build_eq_ok_iff.mp hbuild
  obtain ⟨slots, hslots, hdraft⟩ := bind_eq_ok.mp hdraft
  obtain ⟨triggers, htriggers, hdraft⟩ := bind_eq_ok.mp hdraft
  obtain ⟨actions, hactions, hdraft⟩ := bind_eq_ok.mp hdraft
  have hparts := Except.ok.inj hdraft
  have hname : Text.trim (ini.valueD "strategy" "name") = s.name := congrArg Draft.name hparts
  have hslots' : slots = s.subSlots := congrArg Draft.subSlots hparts
  have hoperations : ∀ kind, ∀ op ∈ s.toDraft.operations kind, WritableOperation kind op := by
    intro kind
    rw [← hparts]
    cases kind with
    | trigger => exact writable_of_operations htriggers
    | action => exact writable_of_operations hactions
  have hvalue : Clean (ini.valueD "strategy" "name") := hclean.valueD "strategy" "name"
  refine ⟨?_, ?_, ?_⟩
  · rwa [← hname, Text.trim_of_tight hvalue.tight]
  · rw [← hslots']
    exact writable_of_subSlots hclean hslots
  · intro kind op hop
    obtain ⟨signature, hfind, hbindings⟩ :=
      hoperations kind op.toDraft (Strategy.toDraft_mem_operations hop)
    -- the operation has one signature in the catalogue, the one that it was built with
    have hsame : Catalogue.find? kind op.name = some op.signature := hs.catalogued kind op hop
    have heq : signature = op.signature := Option.some.inj (hfind.symm.trans hsame)
    rwa [heq] at hbindings

/-! ## What can be written can be encoded -/

theorem encodable_of_writable {s : Strategy} (h : Writable s) : Wire.Encodable s where
  consts_fit := by
    refine Wire.consts_fit_iff.mpr fun kind op hop b hb => ?_
    obtain ⟨type, -, hwritable⟩ := exists_of_mem_right (h.bindings kind op hop) hb
    rintro value rfl
    exact hwritable.2
  slots_legal := fun slot hslot => (h.slots slot hslot).legal

/-! ## A file in another hand -/

/-- A file of `draw` that is not written as `render` writes it: with comments, the sections in
    another order, a width and a letter case left open and numbers with zeros in front. -/
def drawText : String := "\n".intercalate [
  "; once, while gas is cheap",
  "[strategy]",
  "name:  draw",
  "continuous = No",
  "sub_slots = vault : uint,",
  "[action.2]",
  "op = SendToken",
  "params = 0x0000000000000000000000000000000000000007,&proxy , $01",
  "",
  "[action.1] # the draw",
  "op = MakerGenerate",
  "params = &vault, %amount,&proxy, %manager ; to the owner",
  "[trigger.1]",
  "op = GasPriceTrigger",
  "params = 0050"]

/-- What the file says. -/
def drawIni : Ini := .ofSections [
  ⟨"strategy", [("name", "draw"), ("continuous", "No"), ("sub_slots", "vault : uint,")]⟩,
  ⟨"action.2", [("op", "SendToken"),
    ("params", "0x0000000000000000000000000000000000000007,&proxy , $01")]⟩,
  ⟨"action.1", [("op", "MakerGenerate"), ("params", "&vault, %amount,&proxy, %manager")]⟩,
  ⟨"trigger.1", [("op", "GasPriceTrigger"), ("params", "0050")]⟩]

theorem read_drawText : Ini.read drawText = .ok drawIni := by
  -- the characters of a line are found faster than those of the whole text
  unfold Ini.read drawText
  rw [String.toList_intercalate]
  simp only [List.map_cons, List.map_nil, String.reduceToList]
  decide +kernel

theorem operations_drawIni (kind : OperationKind) :
    operations drawIni kind (stem kind) = .ok (drawDraft.operations kind) := by
  have hheadings : drawIni.numberedHeadings (stem kind) =
      .ok ((List.range (drawDraft.operations kind).length).map fun i =>
        Ini.numbered (stem kind) (i + 1)) := by
    refine Ini.numberedHeadings_of_numbers ?_ (List.Perm.refl _)
    cases kind with
    | trigger => decide +kernel
    | action => decide +kernel
  refine bind_eq_ok.mpr ⟨_, hheadings, ?_⟩
  cases kind with
  | trigger => decide +kernel
  | action => decide +kernel

theorem build_drawIni : build drawIni = .ok draw := by
  have hslots : subSlots drawIni = .ok drawDraft.subSlots := by decide +kernel
  have htriggers := operations_drawIni .trigger
  have hactions := operations_drawIni .action
  refine bind_eq_ok.mpr ⟨drawDraft, ?_, build_draw⟩
  refine bind_eq_ok.mpr ⟨_, hslots, bind_eq_ok.mpr ⟨_, htriggers,
    bind_eq_ok.mpr ⟨_, hactions, ?_⟩⟩⟩
  decide +kernel

/-! ## Round trips -/

/-- **Round trips of a strategy file.** The strategy that a file is built into is read back from
    its encoding, and is built again from the file that it is written as. -/
theorem file_roundTrip {text : String} {ini : Ini} {s : Strategy} (hread : Ini.read text = .ok ini)
    (hbuild : build ini = .ok s) :
    Wire.decode (Wire.encode s) = .ok s ∧
      ∃ again, Ini.read (render s) = .ok again ∧ build again = .ok s := by
  have hwritable : Writable s := writable_of_build (Ini.cleanValues_of_read hread) hbuild
  obtain ⟨d, -, hdraft⟩ := bind_eq_ok.mp hbuild
  have hs : s.Built := (build_eq_ok_iff.mp hdraft).2
  refine ⟨Wire.decode_eq_ok_iff.mpr ⟨hs, encodable_of_writable hwritable, rfl⟩, ?_⟩
  exact read_render hwritable hs

theorem file_roundTrip_draw :
    Wire.decode (Wire.encode draw) = .ok draw ∧
      ∃ again, Ini.read (render draw) = .ok again ∧ build again = .ok draw :=
  file_roundTrip read_drawText build_drawIni

end Autopilot.StrategyFile
