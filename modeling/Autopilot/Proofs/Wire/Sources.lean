/-
  The encoding and the mapping name one source.

  A binding is translated twice: `encodeBinding` writes its kind and what belongs to it, and
  `sourceByte` the byte by which the interpreter finds the parameter. `SameSource` sets the two
  side by side. They agree at every parameter of a built strategy's actions, since every bound
  sub-slot has a place and every number that is cut to bytes fits (`Lossless`).

  The parameters of an operation are written one behind the other (`exists_chunks`), and the
  number of a variable is counted along the way in one byte. That the byte does not run over is
  an invariant of the pass: what it has counted and the parameters that are left are at most 255.
-/
import Autopilot.Proofs.Wire.RoundTrip

namespace Autopilot.Wire

/-! ## Numbers of variables -/

/-- The number of the next variable, behind some parameters. -/
def numberBehind (number : UInt8) (bs : List Binding) : UInt8 :=
  bs.foldl (fun next b => if b.placeholder?.isSome then next + 1 else next) number

/-- The placeholders among some parameters, in order. -/
def variablesOf (bs : List Binding) : List String :=
  bs.filterMap Binding.placeholder?

/-- The byte counts the variables, as long as there are few parameters. -/
theorem toNat_numberBehind {bs : List Binding} {number : UInt8}
    (h : number.toNat + bs.length ≤ 255) :
    (numberBehind number bs).toNat = number.toNat + (variablesOf bs).length := by
  induction bs generalizing number with
  | nil => rfl
  | cons b rest ih =>
    rw [List.length_cons] at h
    have hrest := ih (room_behind b h)
    unfold numberBehind variablesOf at hrest ⊢
    rw [List.foldl_cons, hrest]
    cases hb : b.placeholder? with
    | none =>
      rw [List.filterMap_cons_none hb, Option.isSome_none, if_neg Bool.false_ne_true]
    | some name =>
      rw [List.filterMap_cons_some hb, Option.isSome_some, if_pos rfl, List.length_cons,
        UInt8.toNat_add, show (1 : UInt8).toNat = 1 from rfl, Nat.mod_eq_of_lt (by omega)]
      omega

/-- The parameters are written one behind the other, each behind the number of variables before
    it. -/
theorem exists_chunks (s : Strategy) (bs : List Binding) (number : UInt8) :
    ∃ chunks : List (List UInt8), encodeBindings s number bs = chunks.flatten ∧
      chunks.length = bs.length ∧ ∀ (j : Nat) (b : Binding), bs[j]? = some b →
        chunks[j]? = some (encodeBinding s (numberBehind number (bs.take j)) b) := by
  induction bs generalizing number with
  | nil => exact ⟨[], rfl, rfl, nofun⟩
  | cons b rest ih =>
    obtain ⟨chunks, hflatten, hlength, hchunks⟩ :=
      ih (if b.placeholder?.isSome then number + 1 else number)
    refine ⟨encodeBinding s number b :: chunks, ?_, ?_, ?_⟩
    · rw [encodeBindings, hflatten, List.flatten_cons]
    · rw [List.length_cons, List.length_cons, hlength]
    · intro j b' hb'
      cases j with
      | zero =>
        cases hb'
        rfl
      | succ j => exact hchunks j b' hb'

/-! ## Sources -/

theorem sourceByte_place {s : Strategy} {name : String} (hproxy : name ≠ proxySlot) {i : Nat}
    (hi : i < 126) (hindex : s.subSlotIndex? name = some i) :
    (sourceByte s (.subSlot name)).toNat = 128 + i := by
  have hbyte : (UInt8.ofNat i).toNat = i := toNat_ofNat_of_le (by omega)
  have hne : UInt8.ofNat i ≠ proxyIndex := by
    intro heq
    rw [heq, show proxyIndex.toNat = 255 from rfl] at hbyte
    omega
  have hplace : slotByte? s name = some (UInt8.ofNat i) := by
    unfold slotByte?
    rw [if_neg hproxy, hindex]
    rfl
  unfold sourceByte
  dsimp only
  rw [hplace]
  dsimp only
  rw [if_neg hne, UInt8.toNat_add, hbyte, show slotMappingBase.toNat = 128 from rfl,
    Nat.mod_eq_of_lt (by omega)]

/-- What the encoding writes for a parameter, and the byte that the mapping has for it. The action
    stands at `position`, counted from one, with `number` variables before the parameter. A value
    is mapped to zero, a pipe to the earlier action it comes from, a sub-slot of the table to 128
    and its place, which is the only one where its name stands, and the owner's slot to 255. -/
inductive SameSource (s : Strategy) (position number : Nat) :
    Binding → List UInt8 → UInt8 → Prop where
  | const (value : AbiValue) : SameSource s position number (.const value)
    (Binding.Kind.const.tag :: encodeValue value) 0
  | variable (name : String) {slot : UInt8} : slot.toNat = number →
    SameSource s position number (.placeholder name)
      (Binding.Kind.placeholder.tag :: slot :: shortText name) 0
  | piped {index : UInt8} : 1 ≤ index.toNat → index.toNat ≤ 126 → index.toNat < position →
    SameSource s position number (.piped index.toNat) [Binding.Kind.piped.tag, index] index
  | slot {name : String} {place source : UInt8} : name ≠ proxySlot → place.toNat ≤ 125 →
    (∀ i, (s.subSlots.map (·.name))[i]? = some name ↔ i = place.toNat) →
    source.toNat = 128 + place.toNat →
      SameSource s position number (.subSlot name) [Binding.Kind.subSlot.tag, place] source
  | owner : SameSource s position number (.subSlot proxySlot) [Binding.Kind.subSlot.tag, 255] 255

/-- The two translations of a binding name one source. -/
theorem sameSource_binding {s : Strategy} (h : s.Built) {i : Nat} {op : Operation}
    (hop : s.actions[i]? = some op) {b : Binding} (hb : b ∈ op.bindings) (number : UInt8) :
    SameSource s (i + 1) number.toNat b (encodeBinding s number b) (sourceByte s b) := by
  have hmem : op ∈ s.ofKind .action := List.mem_of_getElem? hop
  cases b with
  | const value => exact .const value
  | placeholder name => exact .variable name rfl
  | piped index =>
    obtain ⟨hpos, hle⟩ := h.piped_backwards hop hb
    have hi : i < s.actions.length := (List.getElem?_eq_some_iff.mp hop).1
    have hcount := h.actions_le
    have hbyte : (UInt8.ofNat index).toNat = index := toNat_ofNat_of_le (by omega)
    have hpiped : SameSource s (i + 1) number.toNat (.piped (UInt8.ofNat index).toNat)
        [Binding.Kind.piped.tag, UInt8.ofNat index] (UInt8.ofNat index) :=
      .piped (by omega) (by omega) (by omega)
    rwa [hbyte] at hpiped
  | subSlot name =>
    rcases h.exists_place hmem hb with rfl | ⟨hproxy, place, hplace, hindex⟩
    · exact .owner
    · have hbyte : (UInt8.ofNat place).toNat = place := toNat_ofNat_of_le (by omega)
      have hwritten : encodeBinding s number (.subSlot name) =
          [Binding.Kind.subSlot.tag, UInt8.ofNat place] := by
        unfold encodeBinding slotByte?
        dsimp only
        rw [if_neg hproxy, hindex]
        rfl
      rw [hwritten]
      refine .slot hproxy (by omega) (fun j => ?_) ?_
      · rw [← subSlotIndex?_eq_some_iff h.slots_distinct, hindex, hbyte, Option.some.injEq]
        exact eq_comm
      · rw [sourceByte_place hproxy hplace hindex, hbyte]

/-! ## Numbers that are cut -/

/-- The number survives in one byte. -/
def FitsByte (n : Nat) : Prop :=
  (UInt8.ofNat n).toNat = n

/-- No number of the encoding or of the mapping loses a digit. -/
structure Lossless (s : Strategy) : Prop where
  nameBytes : ofBigEndian (bigEndian 2 s.name.utf8ByteSize) = s.name.utf8ByteSize
  subSlots : FitsByte s.subSlots.length
  triggers : FitsByte s.triggers.length
  actions : FitsByte s.actions.length
  slotNames : ∀ slot ∈ s.subSlots, FitsByte slot.name.utf8ByteSize
  operationNames : ∀ op ∈ s.operations, FitsByte op.name.utf8ByteSize
  parameters : ∀ op ∈ s.operations, FitsByte op.bindings.length
  placeholders : ∀ op ∈ s.operations, ∀ name, .placeholder name ∈ op.bindings →
    FitsByte name.utf8ByteSize
  pipes : ∀ op ∈ s.operations, ∀ index, .piped index ∈ op.bindings → FitsByte index
  places : ∀ name i, s.subSlotIndex? name = some i → FitsByte i
  /-- Counting the variables, up to the last and behind it. -/
  numbers : ∀ op ∈ s.operations, ∀ j,
    (numberBehind 0 (op.bindings.take j)).toNat = (variablesOf (op.bindings.take j)).length
  /-- Adding the place of a sub-slot. -/
  sums : ∀ name place, slotByte? s name = some place → place ≠ proxyIndex →
    (slotMappingBase + place).toNat = slotMappingBase.toNat + place.toNat

theorem numbers_fit {s : Strategy} (h : s.Built) {kind : OperationKind} {op : Operation}
    (hop : op ∈ s.ofKind kind) (j : Nat) :
    (numberBehind 0 (op.bindings.take j)).toNat = (variablesOf (op.bindings.take j)).length := by
  have hle := h.bindings_le hop
  have htake : (op.bindings.take j).length ≤ op.bindings.length := List.length_take_le' j _
  have hzero : (0 : UInt8).toNat = 0 := rfl
  rw [toNat_numberBehind (by omega), hzero, Nat.zero_add]

theorem fitsByte_of_le {n : Nat} (h : n ≤ 255) : FitsByte n :=
  toNat_ofNat_of_le h

theorem place_lt {s : Strategy} (h : s.Built) {name : String} {i : Nat}
    (hindex : s.subSlotIndex? name = some i) : i < 126 := by
  have hle := h.slots_le
  have hlt := (List.findIdx?_eq_some_iff_getElem.mp hindex).1
  omega

/-- What a sub-slot is mapped to stays below 254. -/
theorem sum_fits {s : Strategy} (h : s.Built) {name : String} {place : UInt8}
    (hplace : slotByte? s name = some place) (hproxy : place ≠ proxyIndex) :
    (slotMappingBase + place).toNat = slotMappingBase.toNat + place.toNat := by
  unfold slotByte? at hplace
  split at hplace
  · cases hplace
    exact absurd rfl hproxy
  · obtain ⟨i, hindex, rfl⟩ := Option.map_eq_some_iff.mp hplace
    have hlt := place_lt h hindex
    have hbyte : (UInt8.ofNat i).toNat = i := toNat_ofNat_of_le (by omega)
    have hbase : slotMappingBase.toNat = 128 := rfl
    rw [UInt8.toNat_add, Nat.mod_eq_of_lt (by omega)]

theorem lossless {s : Strategy} (h : s.Built) : Lossless s := by
  have hwidth : s.name.utf8ByteSize < 256 ^ 2 := by
    have hle : s.name.utf8ByteSize ≤ 65535 := h.wellFormed.name_bytes
    omega
  have hslots := h.slots_le
  have hactions := h.actions_le
  exact {
    nameBytes := ofBigEndian_bigEndian hwidth
    subSlots := fitsByte_of_le (by omega)
    triggers := fitsByte_of_le h.triggers_le
    actions := fitsByte_of_le (by omega)
    slotNames := fun slot hslot => fitsByte_of_le (h.wellFormed.slots_named slot hslot).2.2
    operationNames := by
      intro op hop
      obtain ⟨kind, hkind⟩ := s.exists_kind hop
      exact fitsByte_of_le (name_bytes_of_find? (h.catalogued kind op hkind))
    parameters := by
      intro op hop
      obtain ⟨kind, hkind⟩ := s.exists_kind hop
      exact fitsByte_of_le (h.bindings_le hkind)
    placeholders := by
      intro op hop name hbinding
      obtain ⟨kind, hkind⟩ := s.exists_kind hop
      exact fitsByte_of_le (h.placeholder_bytes hkind hbinding)
    pipes := by
      intro op hop index hbinding
      obtain ⟨kind, hkind⟩ := s.exists_kind hop
      have hle := (h.piped_le hkind hbinding).2
      exact fitsByte_of_le (by omega)
    places := by
      intro name i hindex
      have hlt := place_lt h hindex
      exact fitsByte_of_le (by omega)
    numbers := by
      intro op hop j
      obtain ⟨kind, hkind⟩ := s.exists_kind hop
      exact numbers_fit h hkind j
    sums := fun _ _ hplace hproxy => sum_fits h hplace hproxy }

/-! ## Rows -/

/-- Every action has a row in the mapping, with a byte for each of its parameters that names the
    source that is written for it; and whatever is bound can be written. -/
structure NamesSources (s : Strategy) : Prop where
  rows : (paramMapping s).length = s.actions.length
  sources : ∀ (i : Nat) (op : Operation), s.actions[i]? = some op →
    ∃ (chunks : List (List UInt8)) (sources : List UInt8), (paramMapping s)[i]? = some sources ∧
      encodeOperation s op = operationId op.name ++ shortText op.name ++
        UInt8.ofNat op.bindings.length :: chunks.flatten ∧
      chunks.length = op.bindings.length ∧ sources.length = op.bindings.length ∧
      ∀ (j : Nat) (b : Binding), op.bindings[j]? = some b → ∃ chunk source,
        chunks[j]? = some chunk ∧ sources[j]? = some source ∧
          SameSource s (i + 1) (variablesOf (op.bindings.take j)).length b chunk source
  /-- No name of a sub-slot lacks its place, so nothing is written in its stead. -/
  declared : ∀ op ∈ s.operations, ∀ name, .subSlot name ∈ op.bindings →
    ∃ place, slotByte? s name = some place
  lossless : Lossless s

/-- **One source.** For a built strategy the encoding and the mapping name the same source for
    every parameter of every action, and no number is cut off on the way. -/
theorem build_namesSources {d : Draft} {s : Strategy} (hbuild : d.build = .ok s) :
    NamesSources s := by
  have h : s.Built := (build_eq_ok_iff.mp hbuild).2
  refine ⟨List.length_map _, ?_, ?_, lossless h⟩
  · intro i op hop
    have hmem : op ∈ s.ofKind .action := List.mem_of_getElem? hop
    obtain ⟨chunks, hflatten, hlength, hchunks⟩ := exists_chunks s op.bindings 0
    refine ⟨chunks, op.bindings.map (sourceByte s), ?_, ?_, hlength, List.length_map _, ?_⟩
    · unfold paramMapping
      rw [List.getElem?_map, hop]
      rfl
    · rw [encodeOperation, hflatten]
    · intro j b hb
      refine ⟨_, sourceByte s b, hchunks j b hb, ?_, ?_⟩
      · rw [List.getElem?_map, hb]
        rfl
      · rw [← numbers_fit h hmem j]
        exact sameSource_binding h hop (List.mem_of_getElem? hb) _
  · intro op hop name hbinding
    obtain ⟨kind, hkind⟩ := s.exists_kind hop
    exact exists_slotByte h hkind hbinding

theorem build_namesSources_draw : NamesSources draw :=
  build_namesSources build_draw

end Autopilot.Wire
