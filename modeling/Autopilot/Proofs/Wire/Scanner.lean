/-
  Reading by position in a byte string that stays as it is.

  A `Scanner` keeps the whole byte string and the position of the next byte. Slices, items and
  the move to a position are unguarded: one that is not within what it is taken from has no
  outcome, and neither has a difference below zero. `Scanner.decode` reads the wire format in this
  way and builds what it has read with unguarded looks, too (`Indexed.build`).

  Each of its steps does what the step of `Wire.Decode` does on the bytes from its position on
  (`Agrees`), so there is always an outcome, and it is that of `decode`. With the offsets of
  faults, which are not beyond the end either, this is `decode_within`.
-/
import Autopilot.Proofs.Strategy.Indexed
import Autopilot.Proofs.Wire.SelfDelimiting

namespace Autopilot.Wire

variable {α β : Type}

/-- A step of reading at a position. -/
abbrev Scanner (α : Type) := ReaderT (List UInt8) (StateT Nat (Indexed Fault)) α

namespace Scanner

/-! ## Looking and moving -/

/-- There is no outcome. -/
def outside : Scanner α :=
  fun _ _ => ExceptT.mk none

/-- Fails at a given offset. -/
def fail (offset : Nat) (cause : WireDefect) : Scanner α :=
  throw (.undecodable offset cause)

/-- The position of the next byte. -/
def position : Scanner Nat :=
  fun _ here => pure (here, here)

/-- The number of all bytes. -/
def size : Scanner Nat :=
  fun bytes here => pure (bytes.length, here)

/-- Goes on at a position, which is at most the end. -/
def goTo (target : Nat) : Scanner Unit :=
  fun bytes here => if target ≤ bytes.length then pure ((), target) else outside bytes here

/-- The bytes between two positions. -/
def slice (start stop : Nat) : Scanner (List UInt8) :=
  fun bytes here =>
    if start ≤ stop ∧ stop ≤ bytes.length then pure (bytes.extract start stop, here)
    else outside bytes here

/-- The item of a list at a position. -/
def item (xs : List α) (i : Nat) : Scanner α :=
  liftM (Indexed.item xs i : Indexed Fault α)

/-- How far one position is behind another. -/
def difference (stop start : Nat) : Scanner Nat :=
  if start ≤ stop then pure (stop - start) else outside

/-- Makes something of a slice, which must have `n` bytes. -/
def sized (n : Nat) (make : List UInt8 → α) (bytes : List UInt8) : Scanner α :=
  if bytes.length = n then pure (make bytes) else outside

/-! ## Bytes, numbers and texts -/

/-- Takes `n` bytes. -/
def take (n : Nat) : Scanner (List UInt8) := do
  let start ← position
  if (← size) < start + n then fail start (.truncated n)
  else
    let front ← slice start (start + n)
    goTo (start + n)
    pure front

/-- Takes one byte. -/
def byte : Scanner UInt8 := do
  item (← take 1) 0

/-- Takes a number of two bytes. -/
def short : Scanner Nat := do
  let bytes ← take 2
  let high ← item bytes 0
  let low ← item bytes 1
  pure (ofBigEndian [high, low])

/-- Takes a word. -/
def word : Scanner Word := do
  sized 32 wordOfBytes (← take 32)

/-- Takes a text of `n` bytes. -/
def text (n : Nat) : Scanner String := do
  let start ← position
  match ofUtf8? (← take n) with
  | some s => pure s
  | none => fail start .notUtf8

/-- Takes a text behind its length in one byte. -/
def shortText : Scanner String := do
  let length ← byte
  text length.toNat

/-- Runs a scanner `n` times. -/
def times (scan : Scanner α) : Nat → Scanner (List α)
  | 0 => pure []
  | n + 1 => do
    let x ← scan
    let xs ← times scan n
    pure (x :: xs)

/-- Takes a list behind its length in one byte. -/
def counted (scan : Scanner α) : Scanner (List α) := do
  let count ← byte
  times scan count.toNat

/-! ## Types and values -/

/-- Takes a type. -/
def slotType : Scanner SlotType := do
  let start ← position
  let tag ← byte
  if tag = 0 then
    let bits := UInt16.ofNat (← short)
    match SlotType.uint? bits with
    | some type => pure type
    | none => fail start (.width bits)
  else if tag = 1 then pure .address
  else if tag = 2 then pure .bool
  else if tag = 3 then pure .bytes32
  else fail start (.typeTag tag)

/-- Takes a value with its type. -/
def value : Scanner AbiValue := do
  let type ← slotType
  let start ← position
  match type with
  | .uint bits =>
    let amount ← word
    if amount.toNat < bitBound bits.toNat then pure (.uint amount bits)
    else fail start (.tooWide bits)
  | .address =>
    let address ← sized 20 addressOfBytes (← take 20)
    pure (.address address)
  | .bool =>
    let flag ← byte
    if flag = 0 then pure (.bool false)
    else if flag = 1 then pure (.bool true)
    else fail start (.boolByte flag)
  | .bytes32 =>
    let raw ← word
    pure (.bytes32 raw)

/-! ## Operations -/

/-- Takes the name of a sub-slot. Only a place within the table is looked at. -/
def slotName (slots : List String) : Scanner String := do
  let start ← position
  let place ← byte
  if place = proxyIndex then pure proxySlot
  else if place.toNat < slots.length then item slots place.toNat
  else fail start (.slotIndex place)

/-- Takes a placeholder with its number. -/
def placeholder (next : UInt8) : Scanner String := do
  let start ← position
  let number ← byte
  if number = next then shortText
  else fail start (.variableSlot number next)

/-- Takes one parameter. -/
def binding (slots : List String) (next : UInt8) : Scanner Binding := do
  let start ← position
  let tag ← byte
  match Binding.Kind.ofTag? tag with
  | none => fail start (.bindingTag tag)
  | some .const =>
    let v ← value
    pure (.const v)
  | some .subSlot =>
    let name ← slotName slots
    pure (.subSlot name)
  | some .placeholder =>
    let name ← placeholder next
    pure (.placeholder name)
  | some .piped =>
    let index ← byte
    pure (.piped index.toNat)

/-- Takes `n` parameters. -/
def bindings (slots : List String) (next : UInt8) : Nat → Scanner (List Binding)
  | 0 => pure []
  | n + 1 => do
    let b ← binding slots next
    let bs ← bindings slots (if b.placeholder?.isSome then Reader.nextNumber next else next) n
    pure (b :: bs)

/-- Takes one operation. -/
def operation (kind : OperationKind) (slots : List String) : Scanner DraftOperation := do
  let start ← position
  let id ← sized 4 id (← take 4)
  let name ← shortText
  if operationId name ≠ id then fail start (.operationId name)
  else if (Catalogue.find? kind name).isNone then throw (.unknownOperation name)
  else
    let count ← byte
    let bs ← bindings slots 0 count.toNat
    pure ⟨name, bs⟩

/-! ## Strategies -/

/-- Takes one declaration of the table. -/
def subSlot : Scanner SubSlot := do
  let name ← shortText
  let type ← slotType
  pure ⟨name, type⟩

/-- Takes the version. -/
def knownVersion : Scanner Unit := do
  let found ← byte
  if found = version then pure () else fail 0 (.version found)

/-- Takes the strategy's name with its hash and length. -/
def strategyName : Scanner String := do
  let start ← position
  let hash ← word
  let length ← short
  let name ← text length
  if Keccak.digest (utf8 name) = hash then pure name
  else fail start .nameHash

/-- Takes the flavor. -/
def flavor : Scanner Flavor := do
  let start ← position
  let tag ← byte
  match Flavor.ofTag? tag with
  | some f => pure f
  | none => fail start (.flavor tag)

/-- Nothing may be left. -/
def finish : Scanner Unit := do
  let here ← position
  let stop ← size
  if here = stop then pure ()
  else
    let left ← difference stop here
    fail here (.trailing left)

/-- Takes a whole strategy. -/
def draft : Scanner Draft := do
  knownVersion
  let name ← strategyName
  let kind ← flavor
  let slots ← counted subSlot
  let names := slots.map (·.name)
  let triggers ← counted (operation .trigger names)
  let actions ← counted (operation .action names)
  finish
  pure ⟨name, kind, slots, triggers, actions⟩

/-- Reads an encoded strategy by position and builds it anew. -/
def decode (bytes : List UInt8) : Indexed Fault Strategy := do
  let (draft, _) ← (draft.run bytes).run 0
  Indexed.build draft

end Scanner

/-! ## Agreement -/

/-- What is left from a position on. -/
def Input.startingAt (bytes : List UInt8) (here : Nat) : Input :=
  ⟨bytes.drop here, here⟩

/-- From every position in every byte string the scanner has an outcome, and the reader has the
    same one on what is left from there on. If it is a result, both go on at the same position. -/
def Agrees (scan : Scanner α) (read : Reader α) : Prop :=
  ∀ bytes here, here ≤ bytes.length →
    (∃ fault, read (.startingAt bytes here) = .error fault ∧
      scan bytes here = Indexed.sure (.error fault)) ∨
    ∃ a next, next ≤ bytes.length ∧
      read (.startingAt bytes here) = .ok (a, .startingAt bytes next) ∧
      scan bytes here = Indexed.sure (.ok (a, next))

theorem agrees_pure (a : α) : Agrees (pure a) (pure a) :=
  fun _ here hhere => .inr ⟨a, here, hhere, rfl, rfl⟩

theorem agrees_throw (fault : Fault) : Agrees (throw fault : Scanner α) (throw fault) :=
  fun _ _ _ => .inl ⟨fault, rfl, rfl⟩

theorem agrees_fail (offset : Nat) (cause : WireDefect) :
    Agrees (Scanner.fail offset cause : Scanner α) (Reader.fail offset cause) :=
  agrees_throw (.undecodable offset cause)

theorem scan_bind (scan : Scanner α) (f : α → Scanner β) (bytes : List UInt8) (here : Nat) :
    (scan >>= f) bytes here = (scan bytes here >>= fun p => f p.1 bytes p.2) := rfl

/-- What follows a step may rely on what the reader is known to return. -/
theorem agrees_bind_of {scan : Scanner α} {read : Reader α} {returned : α → Prop}
    {f : α → Scanner β} {g : α → Reader β} (h : Agrees scan read)
    (hreturned : ∀ input a next, read input = .ok (a, next) → returned a)
    (hf : ∀ a, returned a → Agrees (f a) (g a)) : Agrees (scan >>= f) (read >>= g) := by
  intro bytes here hhere
  rw [scan_bind]
  rcases h bytes here hhere with ⟨fault, hread, hscan⟩ | ⟨a, next, hnext, hread, hscan⟩
  · refine .inl ⟨fault, state_bind_eq_error.mpr (.inl hread), ?_⟩
    rw [hscan, Indexed.sure_error_bind]
  · rw [hscan, Indexed.sure_ok_bind]
    have hbind : (read >>= g) (.startingAt bytes here) =
        (read (.startingAt bytes here) >>= fun p => g p.1 p.2) := rfl
    rw [hbind, hread]
    exact hf a (hreturned _ a _ hread) bytes next hnext

theorem agrees_bind {scan : Scanner α} {read : Reader α} {f : α → Scanner β} {g : α → Reader β}
    (h : Agrees scan read) (hf : ∀ a, Agrees (f a) (g a)) : Agrees (scan >>= f) (read >>= g) :=
  agrees_bind_of h (fun _ _ _ _ => trivial) fun a (_ : True) => hf a

theorem agrees_map {scan : Scanner α} {read : Reader α} (h : Agrees scan read) (f : α → β) :
    Agrees (do let a ← scan; pure (f a)) (do let a ← read; pure (f a)) :=
  agrees_bind h fun a => agrees_pure (f a)

theorem agrees_position_bind {f : Nat → Scanner β} {g : Nat → Reader β}
    (h : ∀ start, Agrees (f start) (g start)) :
    Agrees (Scanner.position >>= f) (Reader.offset >>= g) :=
  agrees_bind (fun _ here hhere => .inr ⟨here, here, hhere, rfl, rfl⟩) h

theorem agrees_ite {c : Prop} [Decidable c] {scan scan' : Scanner α} {read read' : Reader α}
    (h : c → Agrees scan read) (h' : ¬ c → Agrees scan' read') :
    Agrees (if c then scan else scan') (if c then read else read') := by
  split
  · next hc => exact h hc
  · next hc => exact h' hc

/-! ## Taking bytes -/

theorem slice_inside {bytes : List UInt8} {start stop : Nat}
    (h : start ≤ stop ∧ stop ≤ bytes.length) (here : Nat) :
    Scanner.slice start stop bytes here = Indexed.sure (.ok (bytes.extract start stop, here)) :=
  if_pos h

theorem goTo_inside {bytes : List UInt8} {target : Nat} (h : target ≤ bytes.length) (here : Nat) :
    Scanner.goTo target bytes here = Indexed.sure (.ok ((), target)) :=
  if_pos h

/-- What is left from a position on, cut behind `n` bytes. -/
theorem takeExactly?_drop {bytes : List UInt8} {here n : Nat} (h : here + n ≤ bytes.length) :
    takeExactly? n (bytes.drop here) =
      some (bytes.extract here (here + n), bytes.drop (here + n)) := by
  refine takeExactly?_eq_some_iff.mpr ?_
  rw [List.extract_eq_take_drop, Nat.add_sub_cancel_left, ← List.drop_drop, List.take_append_drop,
    List.length_take, List.length_drop]
  exact ⟨by omega, rfl⟩

/-- The slice is within the bytes, as its end has been compared with theirs. -/
theorem agrees_take (n : Nat) : Agrees (Scanner.take n) (Reader.take n) := by
  intro bytes here hhere
  have hscan : Scanner.take n bytes here =
      (if bytes.length < here + n then Scanner.fail here (.truncated n)
        else do
          let front ← Scanner.slice here (here + n)
          Scanner.goTo (here + n)
          pure front) bytes here := rfl
  rw [hscan]
  unfold Reader.take Input.startingAt
  by_cases hshort : bytes.length < here + n
  · have hnone : takeExactly? n (bytes.drop here) = none := by
      rw [takeExactly?_eq_none_iff, List.length_drop]
      omega
    rw [if_pos hshort]
    dsimp only
    rw [hnone]
    exact .inl ⟨_, rfl, rfl⟩
  · have hinside : here + n ≤ bytes.length := Nat.le_of_not_lt hshort
    rw [if_neg hshort]
    dsimp only
    rw [takeExactly?_drop hinside]
    refine .inr ⟨_, here + n, hinside, rfl, ?_⟩
    rw [scan_bind, slice_inside ⟨Nat.le_add_right here n, hinside⟩ here, Indexed.sure_ok_bind,
      scan_bind, goTo_inside hinside here, Indexed.sure_ok_bind]
    rfl

/-- What follows a slice may rely on its length. -/
theorem agrees_take_bind {n : Nat} {f : List UInt8 → Scanner β} {g : List UInt8 → Reader β}
    (h : ∀ bytes, bytes.length = n → Agrees (f bytes) (g bytes)) :
    Agrees (Scanner.take n >>= f) (Reader.take n >>= g) := by
  refine agrees_bind_of (agrees_take n) (fun input bytes next hread => ?_) h
  obtain ⟨_, ⟨hlength, rfl⟩, -⟩ := (recognizes_take n input bytes next).mp hread
  exact hlength

theorem item_inside {xs : List α} {i : Nat} {x : α} (h : xs[i]? = some x) :
    Scanner.item xs i = pure x := by
  unfold Scanner.item
  rw [Indexed.item_eq_sure h]
  rfl

theorem sized_of_length {n : Nat} {bytes : List UInt8} (h : bytes.length = n)
    (make : List UInt8 → α) : Scanner.sized n make bytes = pure (make bytes) :=
  if_pos h

theorem agrees_byte : Agrees Scanner.byte Reader.byte := by
  refine agrees_take_bind fun bytes hlength => ?_
  obtain ⟨b, rfl⟩ := List.length_eq_one_iff.mp hlength
  exact agrees_pure b

theorem agrees_short : Agrees Scanner.short Reader.short := by
  refine agrees_take_bind fun bytes hlength => ?_
  obtain ⟨high, low, rfl⟩ := List.length_eq_two.mp hlength
  exact agrees_pure (ofBigEndian [high, low])

/-- A slice that is taken for a value has its length. -/
theorem agrees_sized {n : Nat} {make : List UInt8 → α} {f : α → Scanner β}
    {g : List UInt8 → Reader β} (h : ∀ bytes, Agrees (f (make bytes)) (g bytes)) :
    Agrees (Scanner.take n >>= fun bytes => Scanner.sized n make bytes >>= f)
      (Reader.take n >>= g) := by
  refine agrees_take_bind fun bytes hlength => ?_
  rw [sized_of_length hlength, pure_bind]
  exact h bytes

theorem agrees_word {f : Word → Scanner β} {g : List UInt8 → Reader β}
    (h : ∀ bytes, Agrees (f (wordOfBytes bytes)) (g bytes)) :
    Agrees (Scanner.word >>= f) (Reader.take 32 >>= g) := by
  unfold Scanner.word
  rw [bind_assoc]
  exact agrees_sized h

theorem agrees_text (n : Nat) : Agrees (Scanner.text n) (Reader.text n) := by
  refine agrees_position_bind fun start => agrees_bind (agrees_take n) fun bytes => ?_
  cases ofUtf8? bytes with
  | some s => exact agrees_pure s
  | none => exact agrees_fail start .notUtf8

theorem agrees_shortText : Agrees Scanner.shortText Reader.shortText :=
  agrees_bind agrees_byte fun length => agrees_text length.toNat

/-! ## Lists -/

theorem agrees_times {scan : Scanner α} {read : Reader α} (h : Agrees scan read) (n : Nat) :
    Agrees (Scanner.times scan n) (Reader.times read n) := by
  induction n with
  | zero => exact agrees_pure []
  | succ n ih => exact agrees_bind h fun x => agrees_map ih (x :: ·)

theorem agrees_counted {scan : Scanner α} {read : Reader α} (h : Agrees scan read) :
    Agrees (Scanner.counted scan) (Reader.counted read) :=
  agrees_bind agrees_byte fun count => agrees_times h count.toNat

/-! ## Types and values -/

theorem agrees_slotType : Agrees Scanner.slotType Reader.slotType := by
  refine agrees_position_bind fun start => agrees_bind agrees_byte fun tag => ?_
  refine agrees_ite (fun _ => agrees_bind agrees_short fun width => ?_) fun _ =>
    agrees_ite (fun _ => agrees_pure _) fun _ => agrees_ite (fun _ => agrees_pure _) fun _ =>
      agrees_ite (fun _ => agrees_pure _) fun _ => agrees_fail start (.typeTag tag)
  dsimp only
  cases SlotType.uint? (UInt16.ofNat width) with
  | some type => exact agrees_pure type
  | none => exact agrees_fail start (.width (UInt16.ofNat width))

theorem agrees_value : Agrees Scanner.value Reader.value := by
  refine agrees_bind agrees_slotType fun type => agrees_position_bind fun start => ?_
  cases type with
  | uint bits =>
    exact agrees_word fun bytes =>
      agrees_ite (fun _ => agrees_pure _) fun _ => agrees_fail start (.tooWide bits)
  | address => exact agrees_sized fun bytes => agrees_pure _
  | bool =>
    exact agrees_bind agrees_byte fun flag => agrees_ite (fun _ => agrees_pure _) fun _ =>
      agrees_ite (fun _ => agrees_pure _) fun _ => agrees_fail start (.boolByte flag)
  | bytes32 => exact agrees_word fun bytes => agrees_pure _

/-! ## Operations -/

theorem agrees_slotName (slots : List String) :
    Agrees (Scanner.slotName slots) (Reader.slotName slots) := by
  refine agrees_position_bind fun start => agrees_bind agrees_byte fun place =>
    agrees_ite (fun _ => agrees_pure proxySlot) fun _ => ?_
  by_cases hinside : place.toNat < slots.length
  · have hname : slots[place.toNat]? = some slots[place.toNat] := List.getElem?_eq_getElem hinside
    rw [if_pos hinside, item_inside hname, hname]
    exact agrees_pure _
  · rw [if_neg hinside, List.getElem?_eq_none (Nat.le_of_not_lt hinside)]
    exact agrees_fail start (.slotIndex place)

theorem agrees_placeholder (next : UInt8) :
    Agrees (Scanner.placeholder next) (Reader.placeholder next) :=
  agrees_position_bind fun start => agrees_bind agrees_byte fun number =>
    agrees_ite (fun _ => agrees_shortText) fun _ => agrees_fail start (.variableSlot number next)

theorem agrees_binding (slots : List String) (next : UInt8) :
    Agrees (Scanner.binding slots next) (Reader.binding slots next) := by
  refine agrees_position_bind fun start => agrees_bind agrees_byte fun tag => ?_
  cases Binding.Kind.ofTag? tag with
  | none => exact agrees_fail start (.bindingTag tag)
  | some kind =>
    cases kind with
    | const => exact agrees_map agrees_value _
    | subSlot => exact agrees_map (agrees_slotName slots) _
    | placeholder => exact agrees_map (agrees_placeholder next) _
    | piped => exact agrees_map agrees_byte _

theorem agrees_bindings (slots : List String) (next : UInt8) (n : Nat) :
    Agrees (Scanner.bindings slots next n) (Reader.bindings slots next n) := by
  induction n generalizing next with
  | zero => exact agrees_pure []
  | succ n ih => exact agrees_bind (agrees_binding slots next) fun b => agrees_map (ih _) (b :: ·)

theorem agrees_operation (kind : OperationKind) (slots : List String) :
    Agrees (Scanner.operation kind slots) (Reader.operation kind slots) :=
  agrees_position_bind fun start => agrees_sized fun _ => agrees_bind agrees_shortText fun name =>
    agrees_ite (fun _ => agrees_fail start (.operationId name)) fun _ =>
      agrees_ite (fun _ => agrees_throw (.unknownOperation name)) fun _ =>
        agrees_bind agrees_byte fun count =>
          agrees_map (agrees_bindings slots 0 count.toNat) (DraftOperation.mk name)

/-! ## Strategies -/

theorem agrees_subSlot : Agrees Scanner.subSlot Reader.subSlot :=
  agrees_bind agrees_shortText fun name => agrees_map agrees_slotType (SubSlot.mk name)

theorem agrees_knownVersion : Agrees Scanner.knownVersion Reader.knownVersion :=
  agrees_bind agrees_byte fun found =>
    agrees_ite (fun _ => agrees_pure ()) fun _ => agrees_fail 0 (.version found)

theorem agrees_strategyName : Agrees Scanner.strategyName Reader.strategyName :=
  agrees_position_bind fun start => agrees_word fun _ => agrees_bind agrees_short fun length =>
    agrees_bind (agrees_text length) fun name =>
      agrees_ite (fun _ => agrees_pure name) fun _ => agrees_fail start .nameHash

theorem agrees_flavor : Agrees Scanner.flavor Reader.flavor := by
  refine agrees_position_bind fun start => agrees_bind agrees_byte fun tag => ?_
  cases Flavor.ofTag? tag with
  | some f => exact agrees_pure f
  | none => exact agrees_fail start (.flavor tag)

/-- As the position is not beyond the end, what is left can be counted. -/
theorem agrees_finish : Agrees Scanner.finish Reader.finish := by
  intro bytes here hhere
  have hscan : Scanner.finish bytes here =
      (if here = bytes.length then pure ()
        else do
          let left ← Scanner.difference bytes.length here
          Scanner.fail here (.trailing left)) bytes here := rfl
  rw [hscan]
  unfold Reader.finish Input.startingAt
  by_cases hend : here = bytes.length
  · rw [if_pos hend, hend]
    dsimp only
    rw [List.drop_length]
    exact .inr ⟨(), bytes.length, Nat.le_refl _, by rw [List.drop_length]; rfl, rfl⟩
  · have hbehind : here < bytes.length := Nat.lt_of_le_of_ne hhere hend
    have hrest : (bytes.drop here).isEmpty = false := by
      rw [List.isEmpty_eq_false_iff, ← List.length_pos_iff, List.length_drop]
      omega
    have hdifference : Scanner.difference bytes.length here = pure (bytes.length - here) :=
      if_pos hhere
    rw [if_neg hend, hdifference, pure_bind]
    dsimp only
    rw [hrest, List.length_drop]
    exact .inl ⟨_, rfl, rfl⟩

theorem agrees_draft : Agrees Scanner.draft Reader.draft :=
  agrees_bind agrees_knownVersion fun _ => agrees_bind agrees_strategyName fun name =>
    agrees_bind agrees_flavor fun flavor => agrees_bind (agrees_counted agrees_subSlot) fun slots =>
      agrees_bind (agrees_counted (agrees_operation .trigger _)) fun triggers =>
        agrees_bind (agrees_counted (agrees_operation .action _)) fun actions =>
          agrees_map agrees_finish fun _ => (⟨name, flavor, slots, triggers, actions⟩ : Draft)

/-! ## Decoding -/

/-- Decoding by position looks at nothing that is not there. -/
theorem scan_decode (bytes : List UInt8) :
    Scanner.decode bytes = Indexed.sure (decode bytes) := by
  have hscan : Scanner.decode bytes =
      (Scanner.draft bytes 0 >>= fun p => Indexed.build p.1) := rfl
  have hread : decode bytes =
      (Reader.draft (.startingAt bytes 0) >>= fun p => p.1.build) := rfl
  rw [hscan, hread]
  rcases agrees_draft bytes 0 (Nat.zero_le _) with ⟨fault, hfault, hscanned⟩ |
    ⟨d, next, -, hdraft, hscanned⟩
  · rw [hscanned, hfault, Indexed.sure_error_bind]
    rfl
  · rw [hscanned, hdraft, Indexed.sure_ok_bind, Indexed.build_eq_sure]
    rfl

/-- **Bounds.** On every byte string, decoding by position has an outcome: no slice, item, move,
    difference or return type is outside, whatever the bytes say. The outcome is that of decoding,
    and a fault that has an offset has one that is not beyond the end. -/
theorem decode_within (bytes : List UInt8) :
    (Scanner.decode bytes).run = some (decode bytes) ∧
      ∀ offset cause, decode bytes = .error (.undecodable offset cause) →
        offset ≤ bytes.length :=
  ⟨scan_decode bytes, fun offset cause h => foundBy_decode h offset cause rfl⟩

/-- A version with nothing behind it. -/
theorem decode_within_version :
    (Scanner.decode [version]).run = some (.error (.undecodable 1 (.truncated 32))) ∧
      1 ≤ [version].length :=
  ⟨(decode_within [version]).1, (decode_within [version]).2 1 (.truncated 32) rfl⟩

end Autopilot.Wire
