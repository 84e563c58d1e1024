/-
  The wire format as a grammar: what every reader of `Wire.Decode` recognizes.

  Types and values are spelled in one way only, and for a draft's parts the grammar keeps
  what the reader leaves open: the place of a sub-slot is any byte that stands for its name
  in the table (`SlotPlace`), and variables are numbered as the reader counts them. Whether a
  draft has further spellings is not decided here, but by its building.

  Proved here: the readers of types, values, parameters, operations and drafts recognize
  exactly this grammar (`recognizes_parts`), and decoding is reading the parts of a draft, with
  nothing left, and building it (`decode_eq_parts`).
-/
import Autopilot.Proofs.Wire.Reading

namespace Autopilot.Wire

variable {α β : Type}

/-! ## Types and values -/

theorem uint?_eq_some_iff {bits : UInt16} {type : SlotType} :
    SlotType.uint? bits = some type ↔ type = .uint bits ∧ type.legal = true := by
  unfold SlotType.uint?
  constructor
  · intro h
    split at h
    · next hlegal =>
      cases h
      exact ⟨rfl, hlegal⟩
    · cases h
  · rintro ⟨rfl, hlegal⟩
    exact if_pos hlegal

/-- Behind the tag of integers stands their width. -/
theorem recognizes_width (start : Nat) :
    Recognizes (do
      let width ← Reader.short
      match SlotType.uint? (UInt16.ofNat width) with
      | some type => pure type
      | none => Reader.fail start (.width (UInt16.ofNat width)))
      (fun type bytes => ∃ bits : UInt16, type = .uint bits ∧ type.legal = true ∧
        bytes = bigEndian 2 bits.toNat) := by
  refine (recognizes_bind recognizes_short fun width =>
    recognizes_found (SlotType.uint? (UInt16.ofNat width)) start (.width (UInt16.ofNat width))
      (fun type h => by rw [h]) fun h => by rw [h]).congr fun type bytes => ?_
  constructor
  · rintro ⟨width, _, _, ⟨hlt, rfl⟩, ⟨htype, rfl⟩, rfl⟩
    obtain ⟨rfl, hlegal⟩ := uint?_eq_some_iff.mp htype
    refine ⟨_, rfl, hlegal, ?_⟩
    rw [List.append_nil, UInt16.toNat_ofNat', Nat.mod_eq_of_lt hlt]
  · rintro ⟨bits, rfl, hlegal, rfl⟩
    refine ⟨bits.toNat, _, [], ⟨bits.toNat_lt, rfl⟩, ⟨uint?_eq_some_iff.mpr ⟨?_, hlegal⟩, rfl⟩, ?_⟩
    · rw [ofNat_toNat_uint16]
    · rw [List.append_nil]

theorem recognizes_slotType :
    Recognizes Reader.slotType (fun type bytes => type.legal = true ∧ bytes = encodeType type) := by
  unfold Reader.slotType
  refine recognizes_offset_bind fun start => ?_
  -- what a tag leaves to be read behind it
  refine (recognizes_bind recognizes_byte fun tag =>
    (recognizes_ite (fun _ => recognizes_width start) fun _ =>
      recognizes_ite (fun _ => recognizes_pure SlotType.address) fun _ =>
        recognizes_ite (fun _ => recognizes_pure SlotType.bool) fun _ =>
          recognizes_ite (fun _ => recognizes_pure SlotType.bytes32) fun _ =>
            recognizes_fail start (.typeTag tag))).congr fun type bytes => ?_
  constructor
  · rintro ⟨tag, _, back, rfl, hback, rfl⟩
    rcases hback with ⟨rfl, bits, rfl, hlegal, rfl⟩ | ⟨-, ⟨rfl, rfl, rfl⟩ |
      ⟨-, ⟨rfl, rfl, rfl⟩ | ⟨-, ⟨rfl, rfl, rfl⟩ | ⟨-, h⟩⟩⟩⟩
    · exact ⟨hlegal, rfl⟩
    · exact ⟨rfl, rfl⟩
    · exact ⟨rfl, rfl⟩
    · exact ⟨rfl, rfl⟩
    · exact h.elim
  · rintro ⟨hlegal, rfl⟩
    cases type with
    | uint bits => exact ⟨0, [0], _, rfl, .inl ⟨rfl, bits, rfl, hlegal, rfl⟩, rfl⟩
    | address => exact ⟨1, [1], [], rfl, by simp, rfl⟩
    | bool => exact ⟨2, [2], [], rfl, by simp, rfl⟩
    | bytes32 => exact ⟨3, [3], [], rfl, by simp, rfl⟩

/-- A word and what is read behind it. -/
theorem recognizes_word_bind {f : Word → Reader β} {spells : Word → β → List UInt8 → Prop}
    (h : ∀ w, Recognizes (f w) (spells w)) :
    Recognizes (do let bytes ← Reader.take 32; f (wordOfBytes bytes))
      (fun b bytes => ∃ w back, spells w b back ∧ bytes = wordBytes w ++ back) := by
  refine (recognizes_bind (recognizes_take 32) fun front => h (wordOfBytes front)).congr
    fun b bytes => ?_
  constructor
  · rintro ⟨_, front, back, ⟨hlength, rfl⟩, hback, rfl⟩
    exact ⟨_, back, hback, by rw [wordBytes_wordOfBytes hlength]⟩
  · rintro ⟨w, back, hback, rfl⟩
    refine ⟨wordBytes w, _, back, ⟨length_wordBytes w, rfl⟩, ?_, rfl⟩
    rw [wordOfBytes_wordBytes]
    exact hback

theorem recognizes_uint (bits : UInt16) (start : Nat) :
    Recognizes
      (do
        let bytes ← Reader.take 32
        let amount := wordOfBytes bytes
        if amount.toNat < bitBound bits.toNat then pure (AbiValue.uint amount bits)
        else Reader.fail start (.tooWide bits))
      (fun v bytes => ∃ amount, v = .uint amount bits ∧
        (AbiValue.uint amount bits).fits = true ∧ bytes = wordBytes amount) := by
  refine (recognizes_word_bind fun amount =>
    recognizes_ite (c := amount.toNat < bitBound bits.toNat)
      (fun _ => recognizes_pure (AbiValue.uint amount bits))
      fun _ => recognizes_fail start (.tooWide bits)).congr fun v bytes => ?_
  constructor
  · rintro ⟨amount, _, ⟨hlt, rfl, rfl⟩ | ⟨-, h⟩, rfl⟩
    · exact ⟨amount, rfl, decide_eq_true hlt, List.append_nil _⟩
    · exact h.elim
  · rintro ⟨amount, rfl, hfits, rfl⟩
    exact ⟨amount, [], .inl ⟨of_decide_eq_true hfits, rfl, rfl⟩, (List.append_nil _).symm⟩

theorem recognizes_address :
    Recognizes (do let bytes ← Reader.take 20; pure (AbiValue.address (addressOfBytes bytes)))
      (fun v bytes => ∃ a, v = .address a ∧ bytes = addressBytes a) := by
  refine (recognizes_bind (recognizes_take 20) fun front =>
    recognizes_pure (AbiValue.address (addressOfBytes front))).congr fun v bytes => ?_
  constructor
  · rintro ⟨_, front, _, ⟨hlength, rfl⟩, ⟨rfl, rfl⟩, rfl⟩
    refine ⟨_, rfl, ?_⟩
    rw [List.append_nil, addressBytes_addressOfBytes hlength]
  · rintro ⟨a, rfl, rfl⟩
    refine ⟨addressBytes a, _, [], ⟨length_addressBytes a, rfl⟩, ⟨?_, rfl⟩,
      (List.append_nil _).symm⟩
    rw [addressOfBytes_addressBytes]

theorem recognizes_bool (start : Nat) :
    Recognizes
      (do
        let flag ← Reader.byte
        if flag = 0 then pure (AbiValue.bool false)
        else if flag = 1 then pure (.bool true)
        else Reader.fail start (.boolByte flag))
      (fun v bytes => ∃ flag, v = .bool flag ∧ bytes = valueBytes (.bool flag)) := by
  refine (recognizes_bind recognizes_byte fun flag =>
    recognizes_ite (fun _ => recognizes_pure (AbiValue.bool false)) fun _ =>
      recognizes_ite (fun _ => recognizes_pure (AbiValue.bool true)) fun _ =>
        recognizes_fail start (.boolByte flag)).congr fun v bytes => ?_
  constructor
  · rintro ⟨flag, _, _, rfl, ⟨rfl, rfl, rfl⟩ | ⟨-, ⟨rfl, rfl, rfl⟩ | ⟨-, h⟩⟩, rfl⟩
    · exact ⟨false, rfl, rfl⟩
    · exact ⟨true, rfl, rfl⟩
    · exact h.elim
  · rintro ⟨flag, rfl, rfl⟩
    cases flag with
    | false => exact ⟨0, [0], [], rfl, by simp, rfl⟩
    | true => exact ⟨1, [1], [], rfl, by simp, rfl⟩

theorem recognizes_bytes32 :
    Recognizes (do let bytes ← Reader.take 32; pure (AbiValue.bytes32 (wordOfBytes bytes)))
      (fun v bytes => ∃ w, v = .bytes32 w ∧ bytes = wordBytes w) := by
  refine (recognizes_word_bind fun w =>
    recognizes_pure (AbiValue.bytes32 w)).congr fun v bytes => ?_
  constructor
  · rintro ⟨w, _, ⟨rfl, rfl⟩, rfl⟩
    exact ⟨w, rfl, List.append_nil _⟩
  · rintro ⟨w, rfl, rfl⟩
    exact ⟨w, [], ⟨rfl, rfl⟩, (List.append_nil _).symm⟩

/-- The bytes of a value, behind its type and a look at the offset. -/
theorem recognizes_payload (type : SlotType) (start : Nat) :
    Recognizes
      (match type with
        | .uint bits => do
          let bytes ← Reader.take 32
          let amount := wordOfBytes bytes
          if amount.toNat < bitBound bits.toNat then pure (.uint amount bits)
          else Reader.fail start (.tooWide bits)
        | .address => do
          let bytes ← Reader.take 20
          pure (.address (addressOfBytes bytes))
        | .bool => do
          let flag ← Reader.byte
          if flag = 0 then pure (.bool false)
          else if flag = 1 then pure (.bool true)
          else Reader.fail start (.boolByte flag)
        | .bytes32 => do
          let bytes ← Reader.take 32
          pure (.bytes32 (wordOfBytes bytes)))
      (fun v bytes => (v.slotType = type ∧ v.fits = true) ∧ bytes = valueBytes v) := by
  -- a value has the type that was read when it has the constructor of the type
  cases type with
  | uint bits =>
    refine (recognizes_uint bits start).congr fun v bytes => ?_
    constructor
    · rintro ⟨amount, rfl, hfits, rfl⟩
      exact ⟨⟨rfl, hfits⟩, rfl⟩
    · rintro ⟨⟨htype, hfits⟩, rfl⟩
      cases v with
      | uint amount bits' =>
        cases htype
        exact ⟨amount, rfl, hfits, rfl⟩
      | _ => cases htype
  | address =>
    refine recognizes_address.congr fun v bytes => ?_
    constructor
    · rintro ⟨a, rfl, rfl⟩
      exact ⟨⟨rfl, rfl⟩, rfl⟩
    · rintro ⟨⟨htype, -⟩, rfl⟩
      cases v with
      | address a => exact ⟨a, rfl, rfl⟩
      | _ => cases htype
  | bool =>
    refine (recognizes_bool start).congr fun v bytes => ?_
    constructor
    · rintro ⟨flag, rfl, rfl⟩
      exact ⟨⟨rfl, rfl⟩, rfl⟩
    · rintro ⟨⟨htype, -⟩, rfl⟩
      cases v with
      | bool flag => exact ⟨flag, rfl, rfl⟩
      | _ => cases htype
  | bytes32 =>
    refine recognizes_bytes32.congr fun v bytes => ?_
    constructor
    · rintro ⟨w, rfl, rfl⟩
      exact ⟨⟨rfl, rfl⟩, rfl⟩
    · rintro ⟨⟨htype, -⟩, rfl⟩
      cases v with
      | bytes32 w => exact ⟨w, rfl, rfl⟩
      | _ => cases htype

theorem recognizes_value :
    Recognizes Reader.value (fun v bytes =>
      (v.slotType.legal = true ∧ v.fits = true) ∧ bytes = encodeValue v) := by
  unfold Reader.value
  refine (recognizes_bind recognizes_slotType fun type =>
    recognizes_offset_bind (recognizes_payload type)).congr fun v bytes => ?_
  constructor
  · rintro ⟨_, _, _, ⟨hlegal, rfl⟩, ⟨⟨rfl, hfits⟩, rfl⟩, rfl⟩
    exact ⟨⟨hlegal, hfits⟩, rfl⟩
  · rintro ⟨⟨hlegal, hfits⟩, rfl⟩
    exact ⟨v.slotType, _, _, ⟨hlegal, rfl⟩, ⟨⟨rfl, hfits⟩, rfl⟩, rfl⟩

/-! ## Parameters -/

/-- The byte stands for the name: 255 for the owner's slot, any other for its place. -/
def SlotPlace (slots : List String) (name : String) (place : UInt8) : Prop :=
  if place = proxyIndex then name = proxySlot else slots[place.toNat]? = some name

theorem recognizes_slotName (slots : List String) :
    Recognizes (Reader.slotName slots) (fun name bytes =>
      ∃ place, SlotPlace slots name place ∧ bytes = [place]) := by
  unfold Reader.slotName
  refine recognizes_offset_bind fun start => ?_
  refine (recognizes_bind recognizes_byte fun place =>
    recognizes_ite (c := place = proxyIndex) (fun _ => recognizes_pure proxySlot) fun _ =>
      recognizes_found slots[place.toNat]? start (.slotIndex place) (fun name h => by rw [h])
        fun h => by rw [h]).congr fun name bytes => ?_
  unfold SlotPlace
  constructor
  · rintro ⟨place, _, _, rfl, ⟨hproxy, rfl, rfl⟩ | ⟨hproxy, hname, rfl⟩, rfl⟩
    · exact ⟨place, by rw [if_pos hproxy], rfl⟩
    · exact ⟨place, by rwa [if_neg hproxy], rfl⟩
  · rintro ⟨place, hplace, rfl⟩
    by_cases hproxy : place = proxyIndex
    · rw [if_pos hproxy] at hplace
      exact ⟨place, [place], [], rfl, .inl ⟨hproxy, hplace, rfl⟩, rfl⟩
    · rw [if_neg hproxy] at hplace
      exact ⟨place, [place], [], rfl, .inr ⟨hproxy, hplace, rfl⟩, rfl⟩

theorem recognizes_placeholder (number : UInt8) :
    Recognizes (Reader.placeholder number) (fun name bytes =>
      name.utf8ByteSize ≤ 255 ∧ bytes = number :: shortText name) := by
  unfold Reader.placeholder
  refine recognizes_offset_bind fun start => ?_
  refine (recognizes_bind recognizes_byte fun found =>
    recognizes_ite (fun _ => recognizes_shortText)
      fun _ => recognizes_fail start (.variableSlot found number)).congr fun name bytes => ?_
  constructor
  · rintro ⟨_, _, _, rfl, ⟨rfl, hle, rfl⟩ | ⟨-, h⟩, rfl⟩
    · exact ⟨hle, rfl⟩
    · exact h.elim
  · rintro ⟨hle, rfl⟩
    exact ⟨number, [number], _, rfl, .inl ⟨rfl, hle, rfl⟩, rfl⟩

/-- What stands behind the tag of a parameter. -/
def PayloadSpelled (slots : List String) (number : UInt8) : Binding → List UInt8 → Prop
  | .const value, bytes =>
    (value.slotType.legal = true ∧ value.fits = true) ∧ bytes = encodeValue value
  | .subSlot name, bytes => ∃ place, SlotPlace slots name place ∧ bytes = [place]
  | .placeholder name, bytes => name.utf8ByteSize ≤ 255 ∧ bytes = number :: shortText name
  | .piped index, bytes => index ≤ 255 ∧ bytes = [UInt8.ofNat index]

/-- A parameter behind `number` variables of its operation. -/
def BindingSpelled (slots : List String) (number : UInt8) (b : Binding) (bytes : List UInt8) :
    Prop :=
  ∃ payload, PayloadSpelled slots number b payload ∧ bytes = b.kind.tag :: payload

theorem ofTag?_eq_some_iff {tag : UInt8} {kind : Binding.Kind} :
    Binding.Kind.ofTag? tag = some kind ↔ tag = kind.tag := by
  constructor
  · intro h
    unfold Binding.Kind.ofTag? at h
    split_ifs at h with h0 h1 h2 h3
    all_goals
      cases h
      assumption
  · rintro rfl
    exact Binding.Kind.ofTag?_tag kind

/-- What is read behind a tag, and a look at the offset. -/
theorem recognizes_tagged (slots : List String) (number tag : UInt8) (start : Nat) :
    Recognizes
      (match Binding.Kind.ofTag? tag with
        | none => Reader.fail start (.bindingTag tag)
        | some .const => do
          let v ← Reader.value
          pure (.const v)
        | some .subSlot => do
          let name ← Reader.slotName slots
          pure (.subSlot name)
        | some .placeholder => do
          let name ← Reader.placeholder number
          pure (.placeholder name)
        | some .piped => do
          let index ← Reader.byte
          pure (.piped index.toNat))
      (fun b bytes => Binding.Kind.ofTag? tag = some b.kind ∧
        PayloadSpelled slots number b bytes) := by
  cases Binding.Kind.ofTag? tag with
  | none => exact (recognizes_fail start _).congr (by simp)
  | some kind =>
    cases kind with
    | const =>
      refine (recognizes_map recognizes_value Binding.const).congr fun b bytes => ?_
      constructor
      · rintro ⟨v, rfl, hv⟩
        exact ⟨rfl, hv⟩
      · rintro ⟨hkind, hb⟩
        cases b with
        | const v => exact ⟨v, rfl, hb⟩
        | _ => cases hkind
    | subSlot =>
      refine (recognizes_map (recognizes_slotName slots) Binding.subSlot).congr
        fun b bytes => ?_
      constructor
      · rintro ⟨name, rfl, hname⟩
        exact ⟨rfl, hname⟩
      · rintro ⟨hkind, hb⟩
        cases b with
        | subSlot name => exact ⟨name, rfl, hb⟩
        | _ => cases hkind
    | placeholder =>
      refine (recognizes_map (recognizes_placeholder number) Binding.placeholder).congr
        fun b bytes => ?_
      constructor
      · rintro ⟨name, rfl, hname⟩
        exact ⟨rfl, hname⟩
      · rintro ⟨hkind, hb⟩
        cases b with
        | placeholder name => exact ⟨name, rfl, hb⟩
        | _ => cases hkind
    | piped =>
      refine (recognizes_map recognizes_byte fun index => Binding.piped index.toNat).congr
        fun b bytes => ?_
      constructor
      · rintro ⟨index, rfl, rfl⟩
        refine ⟨rfl, Nat.le_of_lt_succ index.toNat_lt, ?_⟩
        rw [UInt8.ofNat_toNat]
      · rintro ⟨hkind, hb⟩
        cases b with
        | piped index =>
          obtain ⟨hle, rfl⟩ := hb
          exact ⟨UInt8.ofNat index, by rw [toNat_ofNat_of_le hle], rfl⟩
        | _ => cases hkind

theorem recognizes_binding (slots : List String) (number : UInt8) :
    Recognizes (Reader.binding slots number) (BindingSpelled slots number) := by
  unfold Reader.binding
  refine recognizes_offset_bind fun start => ?_
  refine (recognizes_bind recognizes_byte fun tag =>
    recognizes_tagged slots number tag start).congr fun b bytes => ?_
  constructor
  · rintro ⟨tag, _, payload, rfl, ⟨htag, hpayload⟩, rfl⟩
    rw [ofTag?_eq_some_iff.mp htag]
    exact ⟨payload, hpayload, rfl⟩
  · rintro ⟨payload, hpayload, rfl⟩
    exact ⟨b.kind.tag, _, payload, rfl, ⟨ofTag?_eq_some_iff.mpr rfl, hpayload⟩, rfl⟩

/-- The parameters of an operation, from one behind `number` variables on. -/
def BindingsSpelled (slots : List String) (number : UInt8) : List Binding → List UInt8 → Prop
  | [], bytes => bytes = []
  | b :: rest, bytes => ∃ front back, BindingSpelled slots number b front ∧
      BindingsSpelled slots (if b.placeholder?.isSome then Reader.nextNumber number else number)
        rest back ∧ bytes = front ++ back

theorem recognizes_bindings (slots : List String) (number : UInt8) (n : Nat) :
    Recognizes (Reader.bindings slots number n) (fun bs bytes =>
      bs.length = n ∧ BindingsSpelled slots number bs bytes) := by
  induction n generalizing number with
  | zero =>
    unfold Reader.bindings
    refine (recognizes_pure []).congr fun bs bytes => ?_
    constructor
    · rintro ⟨rfl, rfl⟩
      exact ⟨rfl, rfl⟩
    · rintro ⟨hlength, hbytes⟩
      cases List.length_eq_zero_iff.mp hlength
      exact ⟨rfl, hbytes⟩
  | succ n ih =>
    unfold Reader.bindings
    refine (recognizes_bind (recognizes_binding slots number) fun b =>
      recognizes_map (ih _) (b :: ·)).congr fun bs bytes => ?_
    constructor
    · rintro ⟨b, front, back, hfront, ⟨rest, rfl, rfl, hback⟩, rfl⟩
      exact ⟨rfl, front, back, hfront, hback, rfl⟩
    · rintro ⟨hlength, hbytes⟩
      cases bs with
      | nil => cases hlength
      | cons b rest =>
        obtain ⟨front, back, hfront, hback, rfl⟩ := hbytes
        exact ⟨b, front, back, hfront, ⟨rest, rfl, Nat.succ.inj hlength, hback⟩, rfl⟩

/-! ## Operations -/

/-- One action or trigger. -/
def OperationSpelled (kind : OperationKind) (slots : List String) (op : DraftOperation)
    (bytes : List UInt8) : Prop :=
  (op.name.utf8ByteSize ≤ 255 ∧ (Catalogue.find? kind op.name).isSome = true) ∧
    op.bindings.length ≤ 255 ∧ ∃ body, BindingsSpelled slots 0 op.bindings body ∧
      bytes = operationId op.name ++ shortText op.name ++ UInt8.ofNat op.bindings.length :: body

theorem length_operationId (name : String) : (operationId name).length = 4 := by
  unfold operationId
  rw [List.length_take, length_wordBytes]
  rfl

/-- The parameters behind their number in one byte. -/
theorem recognizes_countedBindings (slots : List String) (name : String) :
    Recognizes (do
      let count ← Reader.byte
      let bs ← Reader.bindings slots 0 count.toNat
      pure (⟨name, bs⟩ : DraftOperation))
      (fun op bytes => op.name = name ∧ op.bindings.length ≤ 255 ∧
        ∃ body, BindingsSpelled slots 0 op.bindings body ∧
          bytes = UInt8.ofNat op.bindings.length :: body) := by
  refine (recognizes_bind recognizes_byte fun count =>
    recognizes_map (recognizes_bindings slots 0 count.toNat) fun bs =>
      (⟨name, bs⟩ : DraftOperation)).congr fun op bytes => ?_
  constructor
  · rintro ⟨count, _, body, rfl, ⟨bs, rfl, hlength, hbody⟩, rfl⟩
    refine ⟨rfl, ?_, body, hbody, ?_⟩
    · rw [hlength]
      exact Nat.le_of_lt_succ count.toNat_lt
    · rw [hlength, UInt8.ofNat_toNat]
      rfl
  · rintro ⟨rfl, hle, body, hbody, rfl⟩
    exact ⟨UInt8.ofNat op.bindings.length, _, body, rfl,
      ⟨op.bindings, rfl, (toNat_ofNat_of_le hle).symm, hbody⟩, rfl⟩

theorem recognizes_operation (kind : OperationKind) (slots : List String) :
    Recognizes (Reader.operation kind slots) (OperationSpelled kind slots) := by
  unfold Reader.operation
  refine recognizes_offset_bind fun start => ?_
  refine (recognizes_bind (recognizes_take 4) fun id =>
    recognizes_bind recognizes_shortText fun name =>
      recognizes_ite (fun _ => recognizes_fail start (.operationId name)) fun _ =>
        recognizes_ite (fun _ => recognizes_nothing fun _ => ⟨_, rfl⟩) fun _ =>
          recognizes_countedBindings slots name).congr fun op bytes => ?_
  unfold OperationSpelled
  constructor
  · rintro ⟨id, _, _, ⟨-, rfl⟩, ⟨name, _, _, ⟨hname, rfl⟩, hrest, rfl⟩, rfl⟩
    rcases hrest with ⟨-, h⟩ | ⟨hid, ⟨-, h⟩ | ⟨hfind, rfl, hle, body, hbody, rfl⟩⟩
    · exact h.elim
    · exact h.elim
    · rw [Option.isNone_iff_eq_none, ← Option.not_isSome_iff_eq_none, not_not] at hfind
      refine ⟨⟨hname, hfind⟩, hle, body, hbody, ?_⟩
      rw [not_not.mp hid, List.append_assoc]
  · rintro ⟨⟨hname, hfind⟩, hle, body, hbody, rfl⟩
    refine ⟨operationId op.name, _, _, ⟨length_operationId _, rfl⟩,
      ⟨op.name, _, _, ⟨hname, rfl⟩, .inr ⟨by simp, .inr ⟨?_, rfl, hle, body, hbody, rfl⟩⟩,
        rfl⟩, ?_⟩
    · rw [Option.isNone_iff_eq_none, ← Option.not_isSome_iff_eq_none, not_not]
      exact hfind
    · rw [List.append_assoc]

/-! ## Strategies -/

theorem recognizes_subSlot :
    Recognizes Reader.subSlot (fun slot bytes =>
      (slot.name.utf8ByteSize ≤ 255 ∧ slot.type.legal = true) ∧ bytes = encodeSubSlot slot) := by
  unfold Reader.subSlot
  refine (recognizes_bind recognizes_shortText fun name =>
    recognizes_map recognizes_slotType fun type =>
      (⟨name, type⟩ : SubSlot)).congr fun slot bytes => ?_
  constructor
  · rintro ⟨name, _, _, ⟨hname, rfl⟩, ⟨type, rfl, hlegal, rfl⟩, rfl⟩
    exact ⟨⟨hname, hlegal⟩, rfl⟩
  · rintro ⟨⟨hname, hlegal⟩, rfl⟩
    exact ⟨slot.name, _, _, ⟨hname, rfl⟩, ⟨slot.type, rfl, hlegal, rfl⟩, rfl⟩

theorem recognizes_knownVersion :
    Recognizes Reader.knownVersion (fun _ bytes => bytes = [version]) := by
  unfold Reader.knownVersion
  refine (recognizes_bind recognizes_byte fun found =>
    recognizes_ite (fun _ => recognizes_pure ())
      fun _ => recognizes_fail 0 (.version found)).congr fun _ bytes => ?_
  constructor
  · rintro ⟨_, _, _, rfl, ⟨rfl, -, rfl⟩ | ⟨-, h⟩, rfl⟩
    · rfl
    · exact h.elim
  · rintro rfl
    exact ⟨version, [version], [], rfl, .inl ⟨rfl, rfl, rfl⟩, rfl⟩

theorem recognizes_strategyName :
    Recognizes Reader.strategyName (fun name bytes =>
      name.utf8ByteSize ≤ 65535 ∧ bytes = encodeName name) := by
  unfold Reader.strategyName
  refine recognizes_offset_bind fun start => ?_
  refine (recognizes_bind (recognizes_take 32) fun hash =>
    recognizes_bind recognizes_short fun length =>
      recognizes_bind (recognizes_text length) fun name =>
        recognizes_ite (c := Keccak.digest (utf8 name) = wordOfBytes hash)
          (fun _ => recognizes_pure name)
          fun _ => recognizes_fail start .nameHash).congr fun name bytes => ?_
  unfold encodeName
  constructor
  · rintro ⟨hash, _, _, ⟨hhash, rfl⟩, ⟨length, _, _, ⟨hlt, rfl⟩,
      ⟨name, _, _, ⟨rfl, rfl⟩, ⟨hdigest, rfl, rfl⟩ | ⟨-, h⟩, rfl⟩, rfl⟩, rfl⟩
    · refine ⟨Nat.le_of_lt_succ hlt, ?_⟩
      rw [hdigest, wordBytes_wordOfBytes hhash, List.append_nil, List.append_assoc]
    · exact h.elim
  · rintro ⟨hle, rfl⟩
    refine ⟨wordBytes (Keccak.digest (utf8 name)), _, _, ⟨length_wordBytes _, rfl⟩,
      ⟨name.utf8ByteSize, _, _, ⟨Nat.lt_succ_of_le hle, rfl⟩,
        ⟨name, _, [], ⟨rfl, rfl⟩, .inl ⟨?_, rfl, rfl⟩, rfl⟩, rfl⟩, ?_⟩
    · rw [wordOfBytes_wordBytes]
    · rw [List.append_nil, List.append_assoc]

theorem recognizes_flavor : Recognizes Reader.flavor (fun f bytes => bytes = [f.tag]) := by
  unfold Reader.flavor
  refine recognizes_offset_bind fun start => ?_
  refine (recognizes_bind recognizes_byte fun tag =>
    recognizes_found (Flavor.ofTag? tag) start (.flavor tag) (fun f h => by rw [h])
      fun h => by rw [h]).congr fun f bytes => ?_
  constructor
  · rintro ⟨tag, _, _, rfl, ⟨htag, rfl⟩, rfl⟩
    unfold Flavor.ofTag? at htag
    split_ifs at htag with h0 h1
    · cases htag
      rw [h0]
      rfl
    · cases htag
      rw [h1]
      rfl
  · rintro rfl
    exact ⟨f.tag, [f.tag], [], rfl, ⟨Flavor.ofTag?_tag f, rfl⟩, rfl⟩

/-- Takes all parts of a strategy, up to the end of the bytes. -/
def Reader.parts : Reader Draft := do
  Reader.knownVersion
  let name ← Reader.strategyName
  let kind ← Reader.flavor
  let slots ← Reader.counted Reader.subSlot
  let names := slots.map (·.name)
  let triggers ← Reader.counted (Reader.operation .trigger names)
  let actions ← Reader.counted (Reader.operation .action names)
  pure ⟨name, kind, slots, triggers, actions⟩

/-- A whole strategy. -/
def DraftSpelled (d : Draft) (bytes : List UInt8) : Prop :=
  ∃ slots triggers actions,
    d.name.utf8ByteSize ≤ 65535 ∧
    SpellsCounted (fun slot bytes => (slot.name.utf8ByteSize ≤ 255 ∧ slot.type.legal = true) ∧
      bytes = encodeSubSlot slot) d.subSlots slots ∧
    SpellsCounted (OperationSpelled .trigger (d.subSlots.map (·.name))) d.triggers triggers ∧
    SpellsCounted (OperationSpelled .action (d.subSlots.map (·.name))) d.actions actions ∧
    bytes = version :: encodeName d.name ++ d.flavor.tag :: (slots ++ triggers ++ actions)

theorem recognizes_parts : Recognizes Reader.parts DraftSpelled := by
  unfold Reader.parts
  refine (recognizes_bind recognizes_knownVersion fun _ =>
    recognizes_bind recognizes_strategyName fun name =>
      recognizes_bind recognizes_flavor fun flavor =>
        recognizes_bind (recognizes_counted recognizes_subSlot) fun slots =>
          recognizes_bind (recognizes_counted (recognizes_operation .trigger _))
            fun triggers =>
              recognizes_map (recognizes_counted (recognizes_operation .action _))
                fun actions =>
                  (⟨name, flavor, slots, triggers, actions⟩ : Draft)).congr fun d bytes => ?_
  constructor
  · rintro ⟨_, _, _, rfl, ⟨name, _, _, ⟨hname, rfl⟩, ⟨flavor, _, _, rfl,
      ⟨slots, slotBytes, _, hslots, ⟨triggers, triggerBytes, _, htriggers,
        ⟨actions, rfl, hactions⟩, rfl⟩, rfl⟩, rfl⟩, rfl⟩, rfl⟩
    refine ⟨slotBytes, triggerBytes, _, hname, hslots, htriggers, hactions, ?_⟩
    simp
  · rintro ⟨slots, triggers, actions, hname, hslots, htriggers, hactions, rfl⟩
    refine ⟨(), [version], _, rfl, ⟨d.name, _, _, ⟨hname, rfl⟩, ⟨d.flavor, _, _, rfl,
      ⟨d.subSlots, slots, _, hslots, ⟨d.triggers, triggers, _, htriggers,
        ⟨d.actions, rfl, hactions⟩, rfl⟩, rfl⟩, rfl⟩, rfl⟩, ?_⟩
    simp

/-! ## Decoding -/

theorem draft_eq_parts : Reader.draft = (do let d ← Reader.parts; Reader.finish; pure d) := by
  simp only [Reader.draft, Reader.parts, bind_assoc, pure_bind]

/-- Decoding reads the parts and builds them, if nothing is left. -/
theorem decode_eq_parts (bytes : List UInt8) :
    decode bytes = (Reader.parts ⟨bytes, 0⟩ >>= fun p =>
      if p.2.rest.isEmpty then p.1.build
      else .error (.undecodable p.2.offset (.trailing p.2.rest.length))) := by
  have hdecode : decode bytes =
      ((Reader.parts ⟨bytes, 0⟩ >>= fun p => Reader.finish p.2 >>= fun q => pure (p.1, q.2)) >>=
        fun p => p.1.build) := by
    unfold decode
    rw [draft_eq_parts]
    rfl
  rw [hdecode, bind_assoc]
  refine congrArg (_ >>= ·) (funext fun p => ?_)
  unfold Reader.finish
  cases p.2.rest.isEmpty with
  | true => rfl
  | false => rfl

end Autopilot.Wire
