/-
  Different strategies have different encodings.

  Everything that is written tells where it ends: what is written for two values can only go on
  in the same bytes if the values are the same (`PrefixFree`). Lengths and counts are not cut
  off in a built strategy, and once the tables are the same, equal bytes stand for equal
  sub-slots. So the encoding determines a built strategy (`encode_inj`), also one whose constants
  do not fit their widths or whose table has illegal types, which no decoding returns.

  That their digests differ as well is no theorem about strategies. For two of them it is
  found by evaluation (`injOn_encodings`).
-/
import Autopilot.Proofs.Keccak
import Autopilot.Proofs.Wire.RoundTrip
import Mathlib.Data.Set.Function

namespace Autopilot.Wire

variable {α : Type}

/-! ## Writings that tell where they end -/

/-- Among the values that satisfy `p`, what is written tells the value and where it ends. -/
def PrefixFree (p : α → Prop) (write : α → List UInt8) : Prop :=
  ∀ ⦃a b rest rest'⦄, p a → p b → write a ++ rest = write b ++ rest' → a = b ∧ rest = rest'

/-- Writings of one length tell where they end. -/
theorem prefixFree_of_length {p : α → Prop} {write : α → List UInt8} {n : Nat}
    (hlength : ∀ a, (write a).length = n) (hinj : ∀ a b, p a → p b → write a = write b → a = b) :
    PrefixFree p write := by
  intro a b rest rest' ha hb heq
  obtain ⟨hwrite, hrest⟩ := List.append_inj heq (by rw [hlength, hlength])
  exact ⟨hinj a b ha hb hwrite, hrest⟩

/-- Texts of one length in bytes, in front of what follows them. -/
theorem utf8_append_inj {s t : String} {rest rest' : List UInt8}
    (hlength : s.utf8ByteSize = t.utf8ByteSize) (h : utf8 s ++ rest = utf8 t ++ rest') :
    s = t ∧ rest = rest' := by
  obtain ⟨htext, hrest⟩ := List.append_inj h (by rw [length_utf8, length_utf8, hlength])
  exact ⟨utf8_inj htext, hrest⟩

theorem prefixFree_shortText : PrefixFree (·.utf8ByteSize ≤ 255) shortText := by
  intro s t rest rest' hs ht heq
  obtain ⟨hbyte, htext⟩ := List.cons.inj heq
  have hlength : s.utf8ByteSize = t.utf8ByteSize := by
    rw [← toNat_ofNat_of_le hs, hbyte, toNat_ofNat_of_le ht]
  exact utf8_append_inj hlength htext

/-- Lists of one length, written one item after the other. -/
theorem prefixFree_flatMap {p : α → Prop} {write : α → List UInt8} (h : PrefixFree p write)
    (n : Nat) :
    PrefixFree (fun xs : List α => xs.length = n ∧ ∀ x ∈ xs, p x) fun xs => xs.flatMap write := by
  intro xs
  induction xs generalizing n with
  | nil =>
    intro ys rest rest' hxs hys heq
    have hnil : ys = [] := List.length_eq_zero_iff.mp (hys.1.trans hxs.1.symm)
    rw [hnil] at heq ⊢
    exact ⟨rfl, heq⟩
  | cons x xs ih =>
    intro ys rest rest' hxs hys heq
    cases ys with
    | nil => cases hxs.1.trans hys.1.symm
    | cons y ys =>
      obtain ⟨hlength, hall⟩ := hxs
      obtain ⟨hlength', hall'⟩ := hys
      rw [List.forall_mem_cons] at hall hall'
      simp only [List.flatMap_cons, List.append_assoc] at heq
      obtain ⟨rfl, hback⟩ := h hall.1 hall'.1 heq
      obtain ⟨rfl, hrest⟩ := ih xs.length ⟨rfl, hall.2⟩
        ⟨Nat.succ.inj (hlength'.trans hlength.symm), hall'.2⟩ hback
      exact ⟨rfl, hrest⟩

theorem prefixFree_counted {p : α → Prop} {write : α → List UInt8} (h : PrefixFree p write) :
    PrefixFree (fun xs => xs.length ≤ 255 ∧ ∀ x ∈ xs, p x) (counted write) := by
  intro xs ys rest rest' hxs hys heq
  obtain ⟨hbyte, hbody⟩ := List.cons.inj heq
  have hlength : xs.length = ys.length := by
    rw [← toNat_ofNat_of_le hxs.1, hbyte, toNat_ofNat_of_le hys.1]
  exact prefixFree_flatMap h xs.length ⟨rfl, hxs.2⟩ ⟨hlength.symm, hys.2⟩ hbody

/-- Words have one length, so their concatenation determines them. -/
theorem flatMap_wordBytes_inj {ws ws' : List Word}
    (h : ws.flatMap wordBytes = ws'.flatMap wordBytes) : ws = ws' := by
  have hlength : ws.length = ws'.length := by
    have hbytes := congrArg List.length h
    simp only [List.length_flatMap, length_wordBytes, List.map_const',
      List.sum_replicate_nat] at hbytes
    omega
  have hwords : PrefixFree (fun _ => True) wordBytes :=
    prefixFree_of_length length_wordBytes fun _ _ _ _ heq => wordBytes_inj heq
  have heq : ws.flatMap wordBytes ++ [] = ws'.flatMap wordBytes ++ [] := by rw [h]
  exact (prefixFree_flatMap hwords ws.length ⟨rfl, fun _ _ => trivial⟩
    ⟨hlength.symm, fun _ _ => trivial⟩ heq).1

/-! ## Types and values -/

theorem prefixFree_width :
    PrefixFree (fun _ => True) fun bits : UInt16 => bigEndian 2 bits.toNat := by
  refine prefixFree_of_length (fun bits => length_bigEndian 2 bits.toNat) ?_
  intro bits bits' _ _ heq
  exact UInt16.toNat_inj.mp (bigEndian_inj bits.toNat_lt bits'.toNat_lt heq)

theorem tag_head_encodeType (type : SlotType) (rest : List UInt8) :
    (encodeType type ++ rest).head? = some type.tag := by
  cases type with
  | uint bits => rfl
  | address => rfl
  | bool => rfl
  | bytes32 => rfl

theorem prefixFree_encodeType : PrefixFree (fun _ => True) encodeType := by
  intro type type' rest rest' _ _ heq
  have htag : type.tag = type'.tag := by
    rw [← Option.some.injEq, ← tag_head_encodeType type rest, heq, tag_head_encodeType]
  cases type with
  | uint bits =>
    cases type' with
    | uint bits' =>
      obtain ⟨rfl, hrest⟩ := prefixFree_width trivial trivial (List.cons.inj heq).2
      exact ⟨rfl, hrest⟩
    | _ => simp [SlotType.tag] at htag
  | address =>
    cases type' with
    | address => exact ⟨rfl, (List.cons.inj heq).2⟩
    | _ => simp [SlotType.tag] at htag
  | bool =>
    cases type' with
    | bool => exact ⟨rfl, (List.cons.inj heq).2⟩
    | _ => simp [SlotType.tag] at htag
  | bytes32 =>
    cases type' with
    | bytes32 => exact ⟨rfl, (List.cons.inj heq).2⟩
    | _ => simp [SlotType.tag] at htag

/-- Payloads of one type have one length. -/
theorem length_valueBytes {v v' : AbiValue} (h : v.slotType = v'.slotType) :
    (valueBytes v).length = (valueBytes v').length := by
  cases v with
  | uint value bits =>
    cases v' with
    | uint value' bits' => exact (length_wordBytes value).trans (length_wordBytes value').symm
    | _ => cases h
  | address value =>
    cases v' with
    | address value' => exact (length_addressBytes value).trans (length_addressBytes value').symm
    | _ => cases h
  | bool value =>
    cases v' with
    | bool value' => rfl
    | _ => cases h
  | bytes32 value =>
    cases v' with
    | bytes32 value' => exact (length_wordBytes value).trans (length_wordBytes value').symm
    | _ => cases h

theorem valueBytes_inj {v v' : AbiValue} (htype : v.slotType = v'.slotType)
    (h : valueBytes v = valueBytes v') : v = v' := by
  cases v with
  | uint value bits =>
    cases v' with
    | uint value' bits' =>
      cases htype
      rw [wordBytes_inj h]
    | _ => cases htype
  | address value =>
    cases v' with
    | address value' =>
      have hread := congrArg addressOfBytes h
      unfold valueBytes at hread
      rw [addressOfBytes_addressBytes, addressOfBytes_addressBytes] at hread
      rw [hread]
    | _ => cases htype
  | bool value =>
    cases v' with
    | bool value' =>
      cases value with
      | true =>
        cases value' with
        | true => rfl
        | false => exact absurd h (by decide)
      | false =>
        cases value' with
        | true => exact absurd h (by decide)
        | false => rfl
    | _ => cases htype
  | bytes32 value =>
    cases v' with
    | bytes32 value' => rw [wordBytes_inj h]
    | _ => cases htype

theorem prefixFree_encodeValue : PrefixFree (fun _ => True) encodeValue := by
  intro v v' rest rest' _ _ heq
  unfold encodeValue at heq
  rw [List.append_assoc, List.append_assoc] at heq
  obtain ⟨htype, hpayload⟩ := prefixFree_encodeType trivial trivial heq
  obtain ⟨hvalue, hrest⟩ := List.append_inj hpayload (length_valueBytes htype)
  exact ⟨valueBytes_inj htype hvalue, hrest⟩

theorem prefixFree_encodeSubSlot :
    PrefixFree (fun slot => slot.name.utf8ByteSize ≤ 255) encodeSubSlot := by
  intro slot slot' rest rest' hslot hslot' heq
  unfold encodeSubSlot at heq
  rw [List.append_assoc, List.append_assoc] at heq
  obtain ⟨hname, hback⟩ := prefixFree_shortText hslot hslot' heq
  obtain ⟨htype, hrest⟩ := prefixFree_encodeType trivial trivial hback
  cases slot
  cases slot'
  cases hname
  cases htype
  exact ⟨rfl, hrest⟩

/-! ## Parameters -/

/-- Only the table counts for the place of a name. -/
theorem slotByte?_congr {s s' : Strategy} (h : s.subSlots = s'.subSlots) :
    slotByte? s = slotByte? s' := by
  funext name
  unfold slotByte? Strategy.subSlotIndex?
  rw [h]

/-- In the table of a built strategy a byte has one name. -/
theorem slotByte?_inj {s : Strategy} (h : s.Built) {name name' : String} {place : UInt8}
    (hname : slotByte? s name = some place) (hname' : slotByte? s name' = some place) :
    name = name' := by
  rw [← slotPlace_iff h] at hname hname'
  unfold SlotPlace at hname hname'
  by_cases hplace : place = proxyIndex
  · rw [if_pos hplace] at hname hname'
    rw [hname, hname']
  · rw [if_neg hplace] at hname hname'
    rw [hname] at hname'
    exact Option.some.inj hname'

/-- What the binding refers to has a place, a length or a position that is not cut off. -/
def Placed (s : Strategy) : Binding → Prop
  | .const _ => True
  | .subSlot name => ∃ place, slotByte? s name = some place
  | .placeholder name => name.utf8ByteSize ≤ 255
  | .piped index => index ≤ 255

theorem placed_congr {s s' : Strategy} (h : s.subSlots = s'.subSlots) : Placed s = Placed s' := by
  funext b
  cases b with
  | subSlot name =>
    unfold Placed
    rw [slotByte?_congr h]
  | const value => rfl
  | placeholder name => rfl
  | piped index => rfl

theorem placed_of_mem {s : Strategy} (h : s.Built) {kind : OperationKind} {op : Operation}
    (hop : op ∈ s.ofKind kind) {b : Binding} (hb : b ∈ op.bindings) : Placed s b := by
  cases b with
  | const value => trivial
  | subSlot name => exact exists_slotByte h hop hb
  | placeholder name => exact h.placeholder_bytes hop hb
  | piped index =>
    have hle := (h.piped_le hop hb).2
    show index ≤ 255
    omega

theorem kind_of_encodeBinding {s : Strategy} {number : UInt8} {b b' : Binding}
    {rest rest' : List UInt8}
    (h : encodeBinding s number b ++ rest = encodeBinding s number b' ++ rest') :
    b.kind = b'.kind := by
  have htag : b.kind.tag = b'.kind.tag := (List.cons.inj h).1
  have hread := Binding.Kind.ofTag?_tag b.kind
  rw [htag, Binding.Kind.ofTag?_tag] at hread
  exact (Option.some.inj hread).symm

theorem prefixFree_encodeBinding {s : Strategy} (h : s.Built) (number : UInt8) :
    PrefixFree (Placed s) (encodeBinding s number) := by
  intro b b' rest rest' hb hb' heq
  have hkind := kind_of_encodeBinding heq
  -- behind the tag, which says of what kind both are
  have hpayload := (List.cons.inj heq).2
  cases b with
  | const value =>
    cases b' with
    | const value' =>
      obtain ⟨rfl, hrest⟩ := prefixFree_encodeValue trivial trivial hpayload
      exact ⟨rfl, hrest⟩
    | _ => cases hkind
  | subSlot name =>
    cases b' with
    | subSlot name' =>
      obtain ⟨place, hplace⟩ := hb
      obtain ⟨place', hplace'⟩ := hb'
      dsimp only at hpayload
      rw [hplace, hplace'] at hpayload
      obtain ⟨hsame, hrest⟩ := List.cons.inj hpayload
      have hsame : place = place' := hsame
      rw [← hsame] at hplace'
      rw [slotByte?_inj h hplace hplace']
      exact ⟨rfl, hrest⟩
    | _ => cases hkind
  | placeholder name =>
    cases b' with
    | placeholder name' =>
      obtain ⟨rfl, hrest⟩ := prefixFree_shortText hb hb' (List.cons.inj hpayload).2
      exact ⟨rfl, hrest⟩
    | _ => cases hkind
  | piped index =>
    cases b' with
    | piped index' =>
      obtain ⟨hbyte, hrest⟩ := List.cons.inj hpayload
      have hindex : index = index' := by
        rw [← toNat_ofNat_of_le hb, hbyte, toNat_ofNat_of_le hb']
      rw [hindex]
      exact ⟨rfl, hrest⟩
    | _ => cases hkind

/-- The parameters of operations with equally many of them. -/
theorem prefixFree_encodeBindings {s : Strategy} (h : s.Built) (number : UInt8) (n : Nat) :
    PrefixFree (fun bs => bs.length = n ∧ ∀ b ∈ bs, Placed s b) (encodeBindings s number) := by
  intro bs
  induction bs generalizing number n with
  | nil =>
    intro bs' rest rest' hbs hbs' heq
    have hnil : bs' = [] := List.length_eq_zero_iff.mp (hbs'.1.trans hbs.1.symm)
    rw [hnil] at heq ⊢
    exact ⟨rfl, heq⟩
  | cons b bs ih =>
    intro bs' rest rest' hbs hbs' heq
    cases bs' with
    | nil => cases hbs.1.trans hbs'.1.symm
    | cons b' bs' =>
      obtain ⟨hlength, hplaced⟩ := hbs
      obtain ⟨hlength', hplaced'⟩ := hbs'
      rw [List.forall_mem_cons] at hplaced hplaced'
      unfold encodeBindings at heq
      rw [List.append_assoc, List.append_assoc] at heq
      obtain ⟨rfl, hback⟩ := prefixFree_encodeBinding h number hplaced.1 hplaced'.1 heq
      obtain ⟨rfl, hrest⟩ := ih _ bs.length ⟨rfl, hplaced.2⟩
        ⟨Nat.succ.inj (hlength'.trans hlength.symm), hplaced'.2⟩ hback
      exact ⟨rfl, hrest⟩

/-! ## Operations -/

/-- The operation is listed, and none of its parts is cut off. -/
structure Listed (s : Strategy) (kind : OperationKind) (op : Operation) : Prop where
  catalogued : op.Catalogued kind
  count : op.bindings.length ≤ 255
  placed : ∀ b ∈ op.bindings, Placed s b

theorem listed_of_mem {s : Strategy} (h : s.Built) {kind : OperationKind} {op : Operation}
    (hop : op ∈ s.ofKind kind) : Listed s kind op :=
  ⟨h.catalogued kind op hop, h.bindings_le hop, fun _ hb => placed_of_mem h hop hb⟩

theorem prefixFree_encodeOperation {s : Strategy} (h : s.Built) (kind : OperationKind) :
    PrefixFree (Listed s kind) (encodeOperation s) := by
  intro op op' rest rest' hop hop' heq
  unfold encodeOperation at heq
  simp only [List.append_assoc, List.cons_append] at heq
  obtain ⟨-, heq⟩ := List.append_inj heq
    ((length_operationId op.name).trans (length_operationId op'.name).symm)
  obtain ⟨hname, heq⟩ := prefixFree_shortText (name_bytes_of_find? hop.catalogued)
    (name_bytes_of_find? hop'.catalogued) heq
  obtain ⟨hbyte, heq⟩ := List.cons.inj heq
  have hcount : op.bindings.length = op'.bindings.length := by
    rw [← toNat_ofNat_of_le hop.count, hbyte, toNat_ofNat_of_le hop'.count]
  obtain ⟨hbindings, hrest⟩ := prefixFree_encodeBindings h 0 op.bindings.length
    ⟨rfl, hop.placed⟩ ⟨hcount.symm, hop'.placed⟩ heq
  have hdraft : op.toDraft = op'.toDraft := by
    unfold Operation.toDraft
    rw [hname, hbindings]
  exact ⟨Operation.eq_of_toDraft_eq hop.catalogued hop'.catalogued hdraft, hrest⟩

/-- Only the table counts for how an operation is written. -/
theorem encodeOperation_congr {s s' : Strategy} (h : s.subSlots = s'.subSlots) :
    encodeOperation s = encodeOperation s' := by
  have hbinding : encodeBinding s = encodeBinding s' := by
    funext number b
    unfold encodeBinding
    rw [slotByte?_congr h]
  have hbindings : ∀ (bs : List Binding) (number : UInt8),
      encodeBindings s number bs = encodeBindings s' number bs := by
    intro bs
    induction bs with
    | nil =>
      intro number
      rfl
    | cons b bs ih =>
      intro number
      unfold encodeBindings
      rw [hbinding, ih]
  funext op
  unfold encodeOperation
  rw [hbindings]

/-! ## Strategies -/

theorem prefixFree_encodeName : PrefixFree (·.utf8ByteSize ≤ 65535) encodeName := by
  intro name name' rest rest' hname hname' heq
  unfold encodeName at heq
  simp only [List.append_assoc] at heq
  obtain ⟨-, heq⟩ := List.append_inj heq ((length_wordBytes _).trans (length_wordBytes _).symm)
  obtain ⟨hbytes, heq⟩ := List.append_inj heq
    ((length_bigEndian _ _).trans (length_bigEndian _ _).symm)
  have hlength : name.utf8ByteSize = name'.utf8ByteSize :=
    bigEndian_inj (Nat.lt_succ_of_le hname) (Nat.lt_succ_of_le hname') hbytes
  exact utf8_append_inj hlength heq

theorem flavor_tag_inj {f f' : Flavor} (h : f.tag = f'.tag) : f = f' := by
  have hread := Flavor.ofTag?_tag f
  rw [h, Flavor.ofTag?_tag] at hread
  exact (Option.some.inj hread).symm

/-- Neither the count nor the names of the table are cut off. -/
theorem table_le {s : Strategy} (h : s.Built) :
    s.subSlots.length ≤ 255 ∧ ∀ slot ∈ s.subSlots, slot.name.utf8ByteSize ≤ 255 := by
  have hle := h.slots_le
  exact ⟨by omega, fun slot hslot => (h.wellFormed.slots_named slot hslot).2.2⟩

theorem listed_ofKind {s : Strategy} (h : s.Built) (kind : OperationKind) :
    (s.ofKind kind).length ≤ 255 ∧ ∀ op ∈ s.ofKind kind, Listed s kind op := by
  refine ⟨?_, fun op hop => listed_of_mem h hop⟩
  have hlength : (s.toDraft.operations kind).length = (s.ofKind kind).length := by
    rw [Strategy.operations_toDraft, List.length_map]
  rw [← hlength]
  cases kind with
  | trigger => exact h.wellFormed.triggers_le
  | action => exact Nat.le_trans h.wellFormed.actions_le (by decide)

/-- Only the table counts for what can be placed. -/
theorem Listed.congr {s s' : Strategy} (h : s.subSlots = s'.subSlots) {kind : OperationKind}
    {op : Operation} (hop : Listed s' kind op) : Listed s kind op := by
  refine ⟨hop.catalogued, hop.count, ?_⟩
  rw [placed_congr h]
  exact hop.placed

/-- The encoding determines a built strategy. -/
theorem encode_inj {s s' : Strategy} (h : s.Built) (h' : s'.Built) (heq : encode s = encode s') :
    s = s' := by
  unfold encode at heq
  simp only [List.append_assoc] at heq
  obtain ⟨hname, heq⟩ := prefixFree_encodeName h.wellFormed.name_bytes h'.wellFormed.name_bytes
    (List.cons.inj heq).2
  obtain ⟨hflavor, heq⟩ := List.cons.inj heq
  obtain ⟨htable, heq⟩ := prefixFree_counted prefixFree_encodeSubSlot (table_le h) (table_le h') heq
  -- with one table, both strategies write their operations in the same way
  have hlisted : ∀ kind, (s'.ofKind kind).length ≤ 255 ∧
      ∀ op ∈ s'.ofKind kind, Listed s kind op := by
    intro kind
    obtain ⟨hle, hlisted⟩ := listed_ofKind h' kind
    exact ⟨hle, fun op hop => (hlisted op hop).congr htable⟩
  rw [← encodeOperation_congr htable] at heq
  have hoperations := fun kind => prefixFree_counted (prefixFree_encodeOperation h kind)
  obtain ⟨htriggers, heq⟩ := hoperations .trigger (listed_ofKind h .trigger) (hlisted .trigger) heq
  rw [← List.append_nil (counted _ s.actions), ← List.append_nil (counted _ s'.actions)] at heq
  have hactions := (hoperations .action (listed_ofKind h .action) (hlisted .action) heq).1
  cases s
  cases s'
  cases hname
  cases flavor_tag_inj hflavor
  cases htable
  cases htriggers
  cases hactions
  rfl

end Autopilot.Wire

namespace Autopilot

/-! ## Two ids -/

theorem id_draw : draw.id =
    ⟨0x4c8d821e9152e10540ead8e50af1955bf12a52a6ab7d0f91e6f38d16dce9e81e⟩ := by
  simp only [Strategy.id, draw, Wire.encode, Wire.encodeName, Wire.counted, Wire.encodeOperation,
    operationId, List.flatMap_cons, List.flatMap_nil, Keccak.digest_eq_byPlanes]
  decide +kernel

theorem id_ratio : ratio.id =
    ⟨0x381055759ddb13b45cdd46841de9a7b04bc52c38099546ff27d763180c2c1f79⟩ := by
  simp only [Strategy.id, ratio, Wire.encode, Wire.encodeName, Wire.counted, Wire.encodeOperation,
    operationId, List.flatMap_cons, List.flatMap_nil, Keccak.digest_eq_byPlanes]
  decide +kernel

theorem id_draw_ne_id_ratio : draw.id ≠ ratio.id := by
  rw [id_draw, id_ratio]
  decide

/-- Among the encodings of `draw` and `ratio` there is no collision. -/
theorem injOn_encodings : Set.InjOn Keccak.digest {Wire.encode draw, Wire.encode ratio} := by
  rw [Set.injOn_pair]
  intro hdigest
  exact absurd (congrArg StrategyId.mk hdigest) id_draw_ne_id_ratio

end Autopilot
