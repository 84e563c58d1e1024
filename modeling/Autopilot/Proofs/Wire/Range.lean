/-
  Ranges: widths that integer types may have, and amounts that fit them.

  Building compares types only. A constant has the legal type of its parameter, but its amount may
  be too large for it, and a sub-slot that no operation binds may have any width. Reading the
  encoding of a built strategy is followed part by part, as in the grammar, but for bytes that
  need not be in range: a reader takes them if they are, and finds what is out of range if not
  (`Judges`).

  Proved here: an encoding is decoded exactly if the strategy is in range, and refused for a width
  or an amount if not (`decode_encode_or_outOfRange`); what building keeps in range by itself, and
  that bytes and texts describe nothing out of range (`range_of_build`).
-/
import Autopilot.Proofs.StrategyFile.RoundTrip

namespace Autopilot.Wire

variable {α β : Type}

/-! ## Readers that judge ranges -/

/-- The fault is that of a width that no type has, or of an amount too large for its width. -/
def OutOfRange (fault : Fault) : Prop :=
  ∃ offset bits, fault = .undecodable offset (.width bits) ∨
    fault = .undecodable offset (.tooWide bits)

/-- In front of any bytes, the reader takes the bytes for the value if `p` holds, and finds
    something out of range if not. -/
def Judges (r : Reader α) (p : Prop) (a : α) (bytes : List UInt8) : Prop :=
  ∀ offset more,
    p ∧ r ⟨bytes ++ more, offset⟩ = .ok (a, ⟨more, offset + bytes.length⟩) ∨
    ¬ p ∧ ∃ fault, r ⟨bytes ++ more, offset⟩ = .error fault ∧ OutOfRange fault

theorem judges_of_spelled {r : Reader α} {spells : α → List UInt8 → Prop} {p : Prop} {a : α}
    {bytes : List UInt8} (h : Recognizes r spells) (hp : p) (hspells : spells a bytes) :
    Judges r p a bytes := by
  intro offset more
  exact .inl ⟨hp, (h _ _ _).mpr ⟨bytes, hspells, rfl, rfl⟩⟩

theorem judges_pure (a : α) : Judges (pure a) True a [] :=
  judges_of_spelled (recognizes_pure a) trivial ⟨rfl, rfl⟩

theorem judges_fail {offset : Nat} {cause : WireDefect} (h : OutOfRange (.undecodable offset cause))
    {p : Prop} (hp : ¬ p) (a : α) : Judges (Reader.fail offset cause) p a [] :=
  fun _ _ => .inr ⟨hp, _, rfl, h⟩

theorem Judges.congr {r : Reader α} {p q : Prop} {a : α} {bytes : List UInt8}
    (h : Judges r p a bytes) (hpq : p ↔ q) : Judges r q a bytes := by
  intro offset more
  rw [← hpq]
  exact h offset more

theorem Judges.bind {r : Reader α} {f : α → Reader β} {p q : Prop} {a : α} {b : β}
    {front back : List UInt8} (h : Judges r p a front) (hf : Judges (f a) q b back) :
    Judges (r >>= f) (p ∧ q) b (front ++ back) := by
  intro offset more
  rw [List.append_assoc]
  rcases h offset (back ++ more) with ⟨hp, hread⟩ | ⟨hp, fault, hread, hfault⟩
  · rcases hf (offset + front.length) more with ⟨hq, hthen⟩ | ⟨hq, fault, hthen, hfault⟩
    · refine .inl ⟨⟨hp, hq⟩, state_bind_eq_ok.mpr ⟨a, _, hread, ?_⟩⟩
      rw [hthen, List.length_append, Nat.add_assoc]
    · exact .inr ⟨fun hpq => hq hpq.2, fault,
        state_bind_eq_error.mpr (.inr ⟨a, _, hread, hthen⟩), hfault⟩
  · exact .inr ⟨fun hpq => hp hpq.1, fault, state_bind_eq_error.mpr (.inl hread), hfault⟩

/-- Behind bytes that are always in range. -/
theorem Judges.behind {r : Reader α} {f : α → Reader β} {spells : α → List UInt8 → Prop}
    {q : Prop} {a : α} {b : β} {front back : List UInt8} (hf : Judges (f a) q b back)
    (h : Recognizes r spells) (hspells : spells a front) :
    Judges (r >>= f) q b (front ++ back) :=
  ((judges_of_spelled (p := True) h trivial hspells).bind hf).congr (by rw [true_and])

theorem Judges.behind_byte {f : UInt8 → Reader β} {q : Prop} {b : β} {back : List UInt8}
    (first : UInt8) (hf : Judges (f first) q b back) :
    Judges (Reader.byte >>= f) q b (first :: back) :=
  hf.behind recognizes_byte rfl

theorem Judges.map {r : Reader α} {p : Prop} {a : α} {bytes : List UInt8}
    (h : Judges r p a bytes) (f : α → β) :
    Judges (do let a ← r; pure (f a)) p (f a) bytes := by
  have hmap : Judges (do let a ← r; pure (f a)) (p ∧ True) (f a) (bytes ++ []) :=
    h.bind (judges_pure (f a))
  rw [List.append_nil] at hmap
  exact hmap.congr (by rw [and_true])

theorem judges_offset_bind {f : Nat → Reader β} {p : Prop} {b : β} {bytes : List UInt8}
    (h : ∀ start, Judges (f start) p b bytes) : Judges (Reader.offset >>= f) p b bytes :=
  fun offset more => h offset offset more

/-! ## Types and values -/

theorem judges_slotType (type : SlotType) :
    Judges Reader.slotType (type.legal = true) type (encodeType type) := by
  by_cases hlegal : type.legal = true
  · exact judges_of_spelled recognizes_slotType hlegal ⟨hlegal, rfl⟩
  · cases type with
    | uint bits =>
      refine judges_offset_bind fun start => Judges.behind_byte 0 ?_
      rw [if_pos rfl]
      show Judges _ _ _ (bigEndian 2 bits.toNat)
      rw [← List.append_nil (bigEndian 2 bits.toNat)]
      refine Judges.behind ?_ recognizes_short ⟨bits.toNat_lt, rfl⟩
      have hwidth : SlotType.uint? (UInt16.ofNat bits.toNat) = none := by
        rw [ofNat_toNat_uint16]
        exact if_neg hlegal
      dsimp only
      rw [hwidth]
      exact judges_fail ⟨_, _, .inl rfl⟩ hlegal _
    | address => exact absurd rfl hlegal
    | bool => exact absurd rfl hlegal
    | bytes32 => exact absurd rfl hlegal

theorem judges_value (v : AbiValue) :
    Judges Reader.value (v.slotType.legal = true ∧ v.fits = true) v (encodeValue v) := by
  refine (judges_slotType v.slotType).bind (judges_offset_bind fun start => ?_)
  by_cases hfits : v.fits = true
  · exact judges_of_spelled (recognizes_payload v.slotType start) hfits ⟨⟨rfl, hfits⟩, rfl⟩
  · cases v with
    | uint amount bits =>
      show Judges _ _ _ (wordBytes amount)
      rw [← List.append_nil (wordBytes amount)]
      refine Judges.behind ?_ (recognizes_take 32) ⟨length_wordBytes amount, rfl⟩
      have hwide : ¬ amount.toNat < bitBound bits.toNat := fun hlt => hfits (decide_eq_true hlt)
      dsimp only
      rw [wordOfBytes_wordBytes, if_neg hwide]
      exact judges_fail ⟨_, _, .inr rfl⟩ hfits _
    | _ => exact absurd rfl hfits

/-! ## Lists -/

theorem judges_times {r : Reader β} {view : α → β} {write : α → List UInt8} {p : α → Prop}
    {xs : List α} (h : ∀ x ∈ xs, Judges r (p x) (view x) (write x)) :
    Judges (Reader.times r xs.length) (∀ x ∈ xs, p x) (xs.map view) (xs.flatMap write) := by
  induction xs with
  | nil => exact (judges_pure []).congr (by simp)
  | cons x xs ih =>
    have hrest := ih fun y hy => h y (List.mem_cons_of_mem x hy)
    show Judges (do let y ← r; let ys ← Reader.times r xs.length; pure (y :: ys)) _ _ _
    rw [List.flatMap_cons, List.map_cons]
    refine ((h x List.mem_cons_self).bind ?_).congr List.forall_mem_cons.symm
    exact hrest.map (view x :: ·)

theorem judges_counted {r : Reader β} {view : α → β} {write : α → List UInt8} {p : α → Prop}
    {xs : List α} (hle : xs.length ≤ 255) (h : ∀ x ∈ xs, Judges r (p x) (view x) (write x)) :
    Judges (Reader.counted r) (∀ x ∈ xs, p x) (xs.map view) (counted write xs) := by
  have htimes := judges_times h
  rw [← toNat_ofNat_of_le hle] at htimes
  exact htimes.behind_byte (UInt8.ofNat xs.length)

/-! ## Operations -/

section Built

variable {s : Strategy} (h : s.Built) {kind : OperationKind} {op : Operation}
  (hop : op ∈ s.ofKind kind)

include h hop

theorem judges_binding {b : Binding} (hb : b ∈ op.bindings) (number : UInt8) :
    Judges (Reader.binding (s.subSlots.map (·.name)) number) (Writable b) b
      (encodeBinding s number b) := by
  cases b with
  | const value =>
    have hrange : Writable (.const value) ↔ value.slotType.legal = true ∧ value.fits = true := by
      have hlegal := h.const_legal hop hb
      unfold Writable
      constructor
      · intro hfits
        exact ⟨hlegal, hfits value rfl⟩
      · rintro ⟨-, hfits⟩ value' heq
        cases heq
        exact hfits
    have hvalue := ((judges_value value).map Binding.const).congr hrange.symm
    refine judges_offset_bind fun start => Judges.behind_byte Binding.Kind.const.tag ?_
    rw [Binding.Kind.ofTag?_tag]
    exact hvalue
  | _ =>
    refine judges_of_spelled (recognizes_binding _ number) nofun ?_
    exact (bindingSpelled_iff h hop hb number _).mpr ⟨nofun, rfl⟩

theorem judges_bindings {bs : List Binding} (hbs : ∀ b ∈ bs, b ∈ op.bindings) {number : UInt8}
    (hnumber : number.toNat + bs.length ≤ 255) :
    Judges (Reader.bindings (s.subSlots.map (·.name)) number bs.length) (∀ b ∈ bs, Writable b) bs
      (encodeBindings s number bs) := by
  induction bs generalizing number with
  | nil => exact (judges_pure []).congr (by simp)
  | cons b rest ih =>
    rw [List.length_cons] at hnumber
    have hhead := judges_binding h hop (hbs b List.mem_cons_self) number
    have htail := ih (fun x hx => hbs x (List.mem_cons_of_mem _ hx)) (room_behind b hnumber)
    rw [← nextNumber_of_lt (by omega : number.toNat < 255)] at htail
    rw [encodeBindings, ← nextNumber_of_lt (by omega : number.toNat < 255)]
    exact (hhead.bind (htail.map (b :: ·))).congr List.forall_mem_cons.symm

theorem judges_operation :
    Judges (Reader.operation kind (s.subSlots.map (·.name))) (∀ b ∈ op.bindings, Writable b)
      op.toDraft (encodeOperation s op) := by
  have hfind : Catalogue.find? kind op.name = some op.signature := h.catalogued kind op hop
  have hcount : op.bindings.length ≤ 255 := h.bindings_le hop
  have hroom : (0 : UInt8).toNat + op.bindings.length ≤ 255 := by simpa using hcount
  have hbindings := judges_bindings h hop (fun b hb => hb) hroom
  rw [← toNat_ofNat_of_le hcount] at hbindings
  unfold encodeOperation
  rw [List.append_assoc]
  refine judges_offset_bind fun start =>
    Judges.behind ?_ (recognizes_take 4) ⟨length_operationId op.name, rfl⟩
  refine Judges.behind ?_ recognizes_shortText ⟨name_bytes_of_find? hfind, rfl⟩
  rw [if_neg (not_not.mpr rfl), hfind, if_neg (by simp)]
  exact (hbindings.map (DraftOperation.mk op.name)).behind_byte (UInt8.ofNat op.bindings.length)

end Built

/-! ## Strategies -/

theorem judges_subSlot {slot : SubSlot} (h : slot.name.utf8ByteSize ≤ 255) :
    Judges Reader.subSlot (slot.type.legal = true) slot (encodeSubSlot slot) :=
  Judges.behind ((judges_slotType slot.type).map (SubSlot.mk slot.name)) recognizes_shortText
    ⟨h, rfl⟩

theorem encodable_iff {s : Strategy} :
    Encodable s ↔ (∀ slot ∈ s.subSlots, slot.type.legal = true) ∧
      (∀ op ∈ s.triggers, ∀ b ∈ op.bindings, Writable b) ∧
        ∀ op ∈ s.actions, ∀ b ∈ op.bindings, Writable b := by
  constructor
  · intro h
    have hfit := consts_fit_iff.mp h.consts_fit
    exact ⟨h.slots_legal, hfit .trigger, hfit .action⟩
  · rintro ⟨hlegal, htriggers, hactions⟩
    refine ⟨consts_fit_iff.mpr fun kind => ?_, hlegal⟩
    cases kind with
    | trigger => exact htriggers
    | action => exact hactions

/-- The parts of a built strategy are read from its encoding, unless something is out of range. -/
theorem judges_parts {s : Strategy} (h : s.Built) :
    Judges Reader.parts (Encodable s) s.toDraft (encode s) := by
  have hslots : Judges (Reader.counted Reader.subSlot)
      (∀ slot ∈ s.subSlots, slot.type.legal = true) s.subSlots
      (counted encodeSubSlot s.subSlots) := by
    have hle : s.subSlots.length ≤ 255 := Nat.le_trans h.slots_le (by decide)
    have hcounted : Judges _ _ (s.subSlots.map id) _ := judges_counted hle fun slot hslot =>
      judges_subSlot (h.wellFormed.slots_named slot hslot).2.2
    rwa [List.map_id] at hcounted
  have htriggers := judges_counted h.triggers_le
    fun op (hop : op ∈ s.ofKind .trigger) => judges_operation h hop
  have hactions := judges_counted (Nat.le_trans h.actions_le (by decide))
    fun op (hop : op ∈ s.ofKind .action) => judges_operation h hop
  have hencode : encode s = [version] ++ (encodeName s.name ++ ([s.flavor.tag] ++
      (counted encodeSubSlot s.subSlots ++ (counted (encodeOperation s) s.triggers ++
        counted (encodeOperation s) s.actions)))) := by
    simp [encode]
  rw [hencode]
  refine Judges.behind (a := ()) ?_ recognizes_knownVersion rfl
  refine Judges.behind ?_ recognizes_strategyName ⟨h.wellFormed.name_bytes, rfl⟩
  refine Judges.behind ?_ recognizes_flavor rfl
  refine Judges.congr (hslots.bind (htriggers.bind ?_)) encodable_iff.symm
  exact hactions.map fun actions =>
    (⟨s.name, s.flavor, s.subSlots, s.triggers.map Operation.toDraft, actions⟩ : Draft)

/-- The encoding of a built strategy is decoded, unless something is out of range. -/
theorem decode_encode_or_outOfRange {s : Strategy} (h : s.Built) :
    Encodable s ∧ decode (encode s) = .ok s ∨
      ¬ Encodable s ∧ ∃ fault, decode (encode s) = .error fault ∧ OutOfRange fault := by
  have hparts := judges_parts h 0 []
  rw [List.append_nil] at hparts
  rcases hparts with ⟨hs, -⟩ | ⟨hs, fault, hread, hfault⟩
  · exact .inl ⟨hs, decode_eq_ok_iff.mpr ⟨h, hs, rfl⟩⟩
  · refine .inr ⟨hs, fault, ?_, hfault⟩
    rw [decode_eq_parts, hread]
    rfl

/-! ## What building keeps in range -/

/-- Integers in the catalogue are 8, 16 or 256 bits wide. -/
theorem width_of_find? {kind : OperationKind} {name : String} {signature : Signature}
    (h : Catalogue.find? kind name = some signature) {param : Parameter}
    (hparam : param ∈ signature.params) {bits : UInt16} (hbits : param.type = .uint bits) :
    bits = 8 ∨ bits = 16 ∨ bits = 256 := by
  have hall : ∀ kind, ∀ s ∈ Catalogue.entries kind, ∀ p ∈ s.params,
      p.type ∈ [.address, .bool, .bytes32, SlotType.uint 8, .uint 16, .uint 256] := by
    intro kind
    cases kind with
    | action => decide
    | trigger => decide
  have htype := hall kind signature (List.mem_of_find?_eq_some h) param hparam
  simpa [hbits] using htype

/-- Only amounts of 8 and 16 bits can be too large, as no word is beyond 256 bits. -/
theorem narrow_of_not_fits {s : Strategy} (h : s.Built) {kind : OperationKind} {op : Operation}
    (hop : op ∈ s.ofKind kind) {value : AbiValue} (hvalue : Binding.const value ∈ op.bindings)
    (hfits : value.fits = false) :
    ∃ amount bits, value = .uint amount bits ∧ (bits = 8 ∨ bits = 16) := by
  cases value with
  | uint amount bits =>
    obtain ⟨param, hparam, harg⟩ := h.exists_argument hop hvalue
    refine ⟨amount, bits, rfl, ?_⟩
    rcases width_of_find? (h.catalogued kind op hop) hparam (h.const_typed hop harg).symm with
      h8 | h16 | rfl
    · exact .inl h8
    · exact .inr h16
    · exact absurd amount.isLt (of_decide_eq_false hfits)
  | _ => cases hfits

/-- A sub-slot that an operation binds has a legal type. -/
theorem bound_legal {s : Strategy} (h : s.Built) {kind : OperationKind} {op : Operation}
    (hop : op ∈ s.ofKind kind) {slot : SubSlot} (hslot : slot ∈ s.subSlots)
    (hbinding : Binding.subSlot slot.name ∈ op.bindings) : slot.type.legal = true := by
  obtain ⟨param, hparam, harg⟩ := h.exists_argument hop hbinding
  have hlegal := legal_of_find? (h.catalogued kind op hop) hparam
  rcases h.slot_typed hop harg with ⟨hproxy, -⟩ | ⟨other, hother, hname, htype⟩
  · exact absurd hproxy (h.slot_ne_proxy hslot)
  · rw [← List.inj_on_of_nodup_map h.slots_distinct hother hslot hname, htype]
    exact hlegal

/-- **Ranges of built strategies.** A built strategy is in range, that is, its constants fit and
    the types of its table are legal, exactly if bytes decode to it: its encoding does if it is,
    and is refused for a width or an amount if not. What is built from bytes or from a text is in
    range. Whatever it is built from, a constant has a legal type and can be too large only for 8
    or 16 bits, and a sub-slot that is bound has a legal type. -/
theorem range_of_build {d : Draft} {s : Strategy} (hbuild : d.build = .ok s) :
    (Encodable s → decode (encode s) = .ok s) ∧
    (¬ Encodable s → (∃ fault, decode (encode s) = .error fault ∧ OutOfRange fault) ∧
      ∀ bytes, decode bytes ≠ .ok s) ∧
    (∀ text ini, Ini.read text = .ok ini → StrategyFile.build ini = .ok s → Encodable s) ∧
    (∀ op ∈ s.operations, ∀ value, Binding.const value ∈ op.bindings →
      value.slotType.legal = true ∧
        (value.fits = false →
          ∃ amount bits, value = .uint amount bits ∧ (bits = 8 ∨ bits = 16))) ∧
    ∀ slot ∈ s.subSlots, ∀ op ∈ s.operations, Binding.subSlot slot.name ∈ op.bindings →
      slot.type.legal = true := by
  have hs : s.Built := (build_eq_ok_iff.mp hbuild).2
  have hdecode := decode_encode_or_outOfRange hs
  refine ⟨?_, ?_, ?_, ?_, ?_⟩
  · intro hrange
    exact decode_eq_ok_iff.mpr ⟨hs, hrange, rfl⟩
  · intro hrange
    refine ⟨?_, ?_⟩
    · rcases hdecode with ⟨h, -⟩ | ⟨-, hrefused⟩
      · exact absurd h hrange
      · exact hrefused
    · intro bytes hbytes
      exact hrange (decode_eq_ok_iff.mp hbytes).2.1
  · intro text ini hread hini
    exact StrategyFile.encodable_of_writable
      (StrategyFile.writable_of_build (Ini.cleanValues_of_read hread) hini)
  · intro op hop value hvalue
    obtain ⟨kind, hkind⟩ := s.exists_kind hop
    exact ⟨hs.const_legal hkind hvalue, narrow_of_not_fits hs hkind hvalue⟩
  · intro slot hslot op hop hbinding
    obtain ⟨kind, hkind⟩ := s.exists_kind hop
    exact bound_legal hs hkind hslot hbinding

/-! ## A strategy out of range -/

/-- Checks a ratio in a state that does not fit, and declares a sub-slot of no legal width. -/
def overwideDraft : Draft where
  name := "ratio"
  subSlots := [⟨"spare", .uint 7⟩]
  actions := [⟨"AaveV3RatioCheck", [.const (.uint 300 8), .const (.uint 150 256)]⟩]

/-- The strategy that `overwideDraft` describes. -/
def overwide : Strategy where
  name := "ratio"
  flavor := .continuous
  subSlots := [⟨"spare", .uint 7⟩]
  triggers := []
  actions := [⟨Catalogue.checking "AaveV3RatioCheck"
    [("ratio_state", .uint 8), ("target_ratio", .uint 256)],
    [.const (.uint 300 8), .const (.uint 150 256)]⟩]

theorem build_overwide : overwideDraft.build = .ok overwide := rfl

theorem not_encodable_overwide : ¬ Encodable overwide := by
  intro h
  exact absurd (h.slots_legal ⟨"spare", .uint 7⟩ (by decide)) (by decide)

/-- Building does not keep its strategies in range: neither the constants nor the table. -/
theorem build_out_of_range :
    overwideDraft.build = .ok overwide ∧
      (∃ op ∈ overwide.operations, ∃ amount bits, Binding.const (.uint amount bits) ∈ op.bindings ∧
        2 ^ bits.toNat ≤ amount.toNat) ∧
      ∃ slot ∈ overwide.subSlots, ∃ bits, slot.type = .uint bits ∧ SlotType.uint? bits = none := by
  refine ⟨build_overwide, ?_, ?_⟩
  · exact ⟨_, List.mem_singleton.mpr rfl, 300, 8, List.mem_cons_self, by decide⟩
  · exact ⟨⟨"spare", .uint 7⟩, List.mem_singleton.mpr rfl, 7, rfl, by decide⟩

theorem range_of_build_overwide :
    ((∃ fault, decode (encode overwide) = .error fault ∧ OutOfRange fault) ∧
      ∀ bytes, decode bytes ≠ .ok overwide) ∧
    decode (encode draw) = .ok draw :=
  ⟨(range_of_build build_overwide).2.1 not_encodable_overwide,
    (range_of_build build_draw).1 encodable_draw⟩

end Autopilot.Wire
