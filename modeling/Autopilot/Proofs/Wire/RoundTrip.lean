/-
  Encoding and decoding are inverse to each other.

  For a built strategy the grammar of its draft has a single spelling, and that is its
  encoding (`draftSpelled_toDraft_iff`): the table has no two names at one place, the
  variables of an operation are too few for their numbers to stop, and no count or length is
  cut off. With `decode_eq_ok_iff` both directions are read off one equivalence.
-/
import Autopilot.Proofs.Strategy.Built
import Autopilot.Proofs.Wire.Format

namespace Autopilot.Wire

/-! ## Parameters -/

/-- In the table of a built strategy a name has one byte, and it is the one that is written. -/
theorem slotPlace_iff {s : Strategy} (h : s.Built) {name : String} {place : UInt8} :
    SlotPlace (s.subSlots.map (·.name)) name place ↔ slotByte? s name = some place := by
  have hindex : ∀ i : Nat, s.subSlotIndex? name = some i ↔
      (s.subSlots.map (·.name))[i]? = some name :=
    fun _ => subSlotIndex?_eq_some_iff h.slots_distinct
  have hproxy : ∀ i : Nat, (s.subSlots.map (·.name))[i]? = some name → name ≠ proxySlot := by
    intro i hi
    obtain ⟨slot, hslot, rfl⟩ := List.mem_map.mp (List.mem_of_getElem? hi)
    exact h.slot_ne_proxy hslot
  unfold SlotPlace slotByte?
  by_cases hplace : place = proxyIndex
  · rw [if_pos hplace]
    constructor
    · intro hname
      rw [if_pos hname, hplace]
    · intro hbyte
      by_cases hname : name = proxySlot
      · exact hname
      · rw [if_neg hname, Option.map_eq_some_iff] at hbyte
        obtain ⟨i, hi, hbyte⟩ := hbyte
        have hlt := (List.getElem?_eq_some_iff.mp ((hindex i).mp hi)).1
        rw [List.length_map] at hlt
        have hle := h.slots_le
        have htoNat := toNat_ofNat_of_le (n := i) (by omega)
        rw [hbyte, hplace, show proxyIndex.toNat = 255 from rfl] at htoNat
        omega
  · rw [if_neg hplace]
    constructor
    · intro hi
      rw [if_neg (hproxy _ hi), (hindex _).mpr hi, Option.map_some, UInt8.ofNat_toNat]
    · intro hbyte
      by_cases hname : name = proxySlot
      · rw [if_pos hname] at hbyte
        exact absurd (Option.some.inj hbyte).symm hplace
      · rw [if_neg hname, Option.map_eq_some_iff] at hbyte
        obtain ⟨i, hi, rfl⟩ := hbyte
        have hlt := (List.getElem?_eq_some_iff.mp ((hindex i).mp hi)).1
        rw [List.length_map] at hlt
        have hle := h.slots_le
        rw [toNat_ofNat_of_le (by omega)]
        exact (hindex i).mp hi

/-- Every sub-slot that an operation binds has a byte. -/
theorem exists_slotByte {s : Strategy} (h : s.Built) {kind : OperationKind} {op : Operation}
    (hop : op ∈ s.ofKind kind) {name : String} (hbinding : Binding.subSlot name ∈ op.bindings) :
    ∃ place, slotByte? s name = some place := by
  unfold slotByte?
  rcases h.exists_place hop hbinding with hproxy | ⟨hproxy, i, -, hindex⟩
  · exact ⟨_, if_pos hproxy⟩
  · rw [if_neg hproxy, hindex]
    exact ⟨_, rfl⟩

/-- A constant amount that does not fit its width has no spelling. -/
def Writable (b : Binding) : Prop :=
  ∀ value, b = .const value → value.fits = true

theorem bindingSpelled_iff {s : Strategy} (h : s.Built) {kind : OperationKind} {op : Operation}
    (hop : op ∈ s.ofKind kind) {b : Binding} (hb : b ∈ op.bindings) (number : UInt8)
    (bytes : List UInt8) :
    BindingSpelled (s.subSlots.map (·.name)) number b bytes ↔
      Writable b ∧ bytes = encodeBinding s number b := by
  unfold BindingSpelled Writable encodeBinding
  cases b with
  | const value =>
    have hlegal := h.const_legal hop hb
    constructor
    · rintro ⟨_, ⟨⟨-, hfits⟩, rfl⟩, rfl⟩
      refine ⟨?_, rfl⟩
      intro value' heq
      cases heq
      exact hfits
    · rintro ⟨hfits, rfl⟩
      exact ⟨_, ⟨⟨hlegal, hfits value rfl⟩, rfl⟩, rfl⟩
  | subSlot name =>
    obtain ⟨place, hplace⟩ := exists_slotByte h hop hb
    dsimp only
    rw [hplace]
    constructor
    · rintro ⟨_, ⟨place', hplace', rfl⟩, rfl⟩
      rw [slotPlace_iff h, hplace, Option.some.injEq] at hplace'
      rw [← hplace']
      exact ⟨nofun, rfl⟩
    · rintro ⟨-, rfl⟩
      exact ⟨_, ⟨place, (slotPlace_iff h).mpr hplace, rfl⟩, rfl⟩
  | placeholder name =>
    constructor
    · rintro ⟨_, ⟨-, rfl⟩, rfl⟩
      exact ⟨nofun, rfl⟩
    · rintro ⟨-, rfl⟩
      exact ⟨_, ⟨h.placeholder_bytes hop hb, rfl⟩, rfl⟩
  | piped index =>
    constructor
    · rintro ⟨_, ⟨-, rfl⟩, rfl⟩
      exact ⟨nofun, rfl⟩
    · rintro ⟨-, rfl⟩
      have hle := (h.piped_le hop hb).2
      exact ⟨_, ⟨by omega, rfl⟩, rfl⟩

theorem nextNumber_of_lt {number : UInt8} (h : number.toNat < 255) :
    Reader.nextNumber number = number + 1 := by
  unfold Reader.nextNumber
  rw [if_neg]
  rintro rfl
  exact absurd h (by decide)

/-- Each parameter takes at most one number, so there is room for the rest behind it. -/
theorem room_behind (b : Binding) {number : UInt8} {n : Nat} (h : number.toNat + (n + 1) ≤ 255) :
    (if b.placeholder?.isSome then number + 1 else number).toNat + n ≤ 255 := by
  split
  · rw [UInt8.toNat_add, show (1 : UInt8).toNat = 1 from rfl, Nat.mod_eq_of_lt (by omega)]
    omega
  · omega

/-- As long as the numbers of the variables stay below 255, reading counts as writing does. -/
theorem bindingsSpelled_iff {s : Strategy} (h : s.Built) {kind : OperationKind} {op : Operation}
    (hop : op ∈ s.ofKind kind) {bs : List Binding} (hbs : ∀ b ∈ bs, b ∈ op.bindings)
    {number : UInt8} (hnumber : number.toNat + bs.length ≤ 255) (bytes : List UInt8) :
    BindingsSpelled (s.subSlots.map (·.name)) number bs bytes ↔
      (∀ b ∈ bs, Writable b) ∧ bytes = encodeBindings s number bs := by
  induction bs generalizing number bytes with
  | nil =>
    unfold BindingsSpelled encodeBindings
    simp
  | cons b rest ih =>
    rw [List.length_cons] at hnumber
    have hnext : Reader.nextNumber number = number + 1 := nextNumber_of_lt (by omega)
    have hroom := room_behind b hnumber
    have hhead := bindingSpelled_iff h hop (hbs b List.mem_cons_self) number
    have htail := ih (fun x hx => hbs x (List.mem_cons_of_mem _ hx)) hroom
    unfold BindingsSpelled encodeBindings
    rw [hnext, List.forall_mem_cons]
    constructor
    · rintro ⟨front, back, hfront, hback, rfl⟩
      obtain ⟨hb, rfl⟩ := (hhead front).mp hfront
      obtain ⟨hrest, rfl⟩ := (htail back).mp hback
      exact ⟨⟨hb, hrest⟩, rfl⟩
    · rintro ⟨⟨hb, hrest⟩, rfl⟩
      exact ⟨_, _, (hhead _).mpr ⟨hb, rfl⟩, (htail _).mpr ⟨hrest, rfl⟩, rfl⟩

/-! ## Operations and strategies -/

theorem operationSpelled_iff {s : Strategy} (h : s.Built) {kind : OperationKind} {op : Operation}
    (hop : op ∈ s.ofKind kind) (bytes : List UInt8) :
    OperationSpelled kind (s.subSlots.map (·.name)) op.toDraft bytes ↔
      (∀ b ∈ op.bindings, Writable b) ∧ bytes = encodeOperation s op := by
  have hfind : Catalogue.find? kind op.name = some op.signature := h.catalogued kind op hop
  have hname : op.name.utf8ByteSize ≤ 255 := name_bytes_of_find? hfind
  have hcount : op.bindings.length ≤ 255 := h.bindings_le hop
  have hzero : (0 : UInt8).toNat + op.bindings.length ≤ 255 := by
    rw [show (0 : UInt8).toNat = 0 from rfl]
    omega
  have hbindings := bindingsSpelled_iff h hop (fun b hb => hb) hzero
  unfold OperationSpelled encodeOperation
  constructor
  · rintro ⟨-, -, body, hbody, rfl⟩
    obtain ⟨hwritable, rfl⟩ := (hbindings body).mp hbody
    exact ⟨hwritable, rfl⟩
  · rintro ⟨hwritable, rfl⟩
    refine ⟨⟨hname, ?_⟩, hcount, _, (hbindings _).mpr ⟨hwritable, rfl⟩, rfl⟩
    rw [show Catalogue.find? kind op.toDraft.name = some op.signature from hfind]
    rfl

theorem operationsSpelled_iff {s : Strategy} (h : s.Built) (kind : OperationKind)
    (bytes : List UInt8) :
    SpellsCounted (OperationSpelled kind (s.subSlots.map (·.name)))
        ((s.ofKind kind).map Operation.toDraft) bytes ↔
      ((s.ofKind kind).length ≤ 255 ∧ ∀ op ∈ s.ofKind kind, ∀ b ∈ op.bindings, Writable b) ∧
        bytes = counted (encodeOperation s) (s.ofKind kind) := by
  rw [← spellsCounted_iff fun op hop => operationSpelled_iff h hop]
  unfold SpellsCounted SpellsAll
  rw [List.length_map]
  simp only [List.forall₂_map_left_iff]

/-- What a strategy must keep to, beside being built, for its encoding to be read back: the
    constants fit their widths and the types in the table are legal. -/
structure Encodable (s : Strategy) : Prop where
  consts_fit : ∀ op ∈ s.operations, ∀ value, Binding.const value ∈ op.bindings →
    value.fits = true
  slots_legal : ∀ slot ∈ s.subSlots, slot.type.legal = true

theorem consts_fit_iff {s : Strategy} :
    (∀ op ∈ s.operations, ∀ value, Binding.const value ∈ op.bindings → value.fits = true) ↔
      ∀ kind, ∀ op ∈ s.ofKind kind, ∀ b ∈ op.bindings, Writable b := by
  unfold Strategy.operations Writable
  constructor
  · rintro h kind op hop _ hb value rfl
    refine h op ?_ value hb
    rw [List.mem_append]
    cases kind with
    | trigger => exact .inl hop
    | action => exact .inr hop
  · intro h op hop value hb
    rcases List.mem_append.mp hop with hop | hop
    · exact h .trigger op hop _ hb value rfl
    · exact h .action op hop _ hb value rfl

/-- A built strategy is spelled in one way only, as its encoding. -/
theorem draftSpelled_toDraft_iff {s : Strategy} (h : s.Built) (bytes : List UInt8) :
    DraftSpelled s.toDraft bytes ↔ Encodable s ∧ bytes = encode s := by
  have hslots := spellsCounted_iff fun (slot : SubSlot) (_ : slot ∈ s.subSlots) bytes =>
    Iff.rfl (a := (slot.name.utf8ByteSize ≤ 255 ∧ slot.type.legal = true) ∧
      bytes = encodeSubSlot slot)
  have htriggers := operationsSpelled_iff h .trigger
  have hactions := operationsSpelled_iff h .action
  unfold DraftSpelled encode
  constructor
  · rintro ⟨slots, triggers, actions, -, hs, ht, ha, rfl⟩
    obtain ⟨⟨-, hlegal⟩, rfl⟩ := (hslots slots).mp hs
    obtain ⟨⟨-, htriggersFit⟩, rfl⟩ := (htriggers triggers).mp ht
    obtain ⟨⟨-, hactionsFit⟩, rfl⟩ := (hactions actions).mp ha
    refine ⟨⟨consts_fit_iff.mpr ?_, fun slot hslot => (hlegal slot hslot).2⟩, rfl⟩
    intro kind
    cases kind with
    | trigger => exact htriggersFit
    | action => exact hactionsFit
  · rintro ⟨⟨hfit, hlegal⟩, rfl⟩
    have hfit := consts_fit_iff.mp hfit
    have hnamed := h.wellFormed.slots_named
    have hslotCount := h.slots_le
    have htriggerCount := h.triggers_le
    have hactionCount : s.actions.length ≤ 255 := Nat.le_trans h.actions_le (by decide)
    refine ⟨_, _, _, h.wellFormed.name_bytes, (hslots _).mpr ⟨⟨by omega, ?_⟩, rfl⟩,
      (htriggers _).mpr ⟨⟨htriggerCount, hfit .trigger⟩, rfl⟩,
      (hactions _).mpr ⟨⟨hactionCount, hfit .action⟩, rfl⟩, rfl⟩
    exact fun slot hslot => ⟨(hnamed slot hslot).2.2, hlegal slot hslot⟩

/-! ## Decoding -/

theorem decode_eq_ok_iff_spelled {bytes : List UInt8} {s : Strategy} :
    decode bytes = .ok s ↔ ∃ d, DraftSpelled d bytes ∧ d.build = .ok s := by
  rw [decode_eq_parts, bind_eq_ok]
  constructor
  · rintro ⟨⟨d, next⟩, hread, hbuild⟩
    obtain ⟨taken, hspelled, hrest, -⟩ := (recognizes_parts ⟨bytes, 0⟩ d next).mp hread
    split at hbuild
    · next hend =>
      have htaken : bytes = taken := by
        rw [← List.append_nil taken, ← List.isEmpty_iff.mp hend, ← hrest]
      exact ⟨d, htaken ▸ hspelled, hbuild⟩
    · cases hbuild
  · rintro ⟨d, hspelled, hbuild⟩
    refine ⟨(d, ⟨[], bytes.length⟩), ?_, hbuild⟩
    refine (recognizes_parts ⟨bytes, 0⟩ d _).mpr ⟨bytes, hspelled, ?_, ?_⟩
    · exact (List.append_nil bytes).symm
    · exact (Nat.zero_add _).symm

/-- The bytes that decode to a strategy are its encoding, if it is built and can be encoded, and
    none otherwise. -/
theorem decode_eq_ok_iff {bytes : List UInt8} {s : Strategy} :
    decode bytes = .ok s ↔ s.Built ∧ Encodable s ∧ bytes = encode s := by
  rw [decode_eq_ok_iff_spelled]
  constructor
  · rintro ⟨d, hspelled, hbuild⟩
    obtain ⟨rfl, hs⟩ := build_eq_ok_iff.mp hbuild
    exact ⟨hs, (draftSpelled_toDraft_iff hs bytes).mp hspelled⟩
  · rintro ⟨hs, hbytes⟩
    exact ⟨s.toDraft, (draftSpelled_toDraft_iff hs bytes).mpr hbytes,
      build_eq_ok_iff.mpr ⟨rfl, hs⟩⟩

theorem encodable_draw : Encodable draw where
  consts_fit := by
    intro op hop value hvalue
    simp only [Strategy.operations, draw, List.cons_append, List.nil_append, List.mem_cons,
      List.not_mem_nil, or_false] at hop
    rcases hop with rfl | rfl | rfl
    · simp at hvalue
      rw [hvalue]
      decide
    · simp at hvalue
    · simp at hvalue
      rw [hvalue]
      decide
  slots_legal := by decide

/-- **Round trip.** A built strategy whose constants fit and whose table has legal types is read
    back from its encoding as it is. -/
theorem decode_encode {d : Draft} {s : Strategy} (hbuild : d.build = .ok s)
    (hconsts : ∀ op ∈ s.operations, ∀ value, Binding.const value ∈ op.bindings →
      value.fits = true)
    (hslots : ∀ slot ∈ s.subSlots, slot.type.legal = true) :
    decode (encode s) = .ok s := by
  have hs : s.Built := (build_eq_ok_iff.mp hbuild).2
  exact decode_eq_ok_iff.mpr ⟨hs, ⟨hconsts, hslots⟩, rfl⟩

theorem decode_encode_draw : decode (encode draw) = .ok draw :=
  decode_encode build_draw encodable_draw.consts_fit encodable_draw.slots_legal

/-- **Canonicity.** Bytes that decode are the encoding of what they decode to; no other bytes
    decode to the same strategy, and its id is the hash of these bytes. -/
theorem encode_of_decode {bytes : List UInt8} {s : Strategy} (h : decode bytes = .ok s) :
    encode s = bytes ∧ (∀ bytes', decode bytes' = .ok s → bytes' = bytes) ∧
      s.id = ⟨Keccak.digest bytes⟩ := by
  have hbytes : bytes = encode s := (decode_eq_ok_iff.mp h).2.2
  refine ⟨hbytes.symm, ?_, ?_⟩
  · intro bytes' h'
    rw [hbytes]
    exact (decode_eq_ok_iff.mp h').2.2
  · rw [hbytes]
    rfl

theorem encode_of_decode_draw :
    decode (encode draw) = .ok draw ∧
      (∀ bytes, decode bytes = .ok draw → bytes = encode draw) ∧
      draw.id = ⟨Keccak.digest (encode draw)⟩ := by
  have hbuilt : draw.Built := (build_eq_ok_iff.mp build_draw).2
  have h : decode (encode draw) = .ok draw :=
    decode_eq_ok_iff.mpr ⟨hbuilt, encodable_draw, rfl⟩
  exact ⟨h, (encode_of_decode h).2⟩

end Autopilot.Wire
