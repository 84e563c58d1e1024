/-
  Reading a strategy from the wire format.

  A reader takes bytes from the front of its input and counts them, so that a fault
  names the offset at which it was found. What is read becomes a draft, and the draft
  is built: nothing is decoded that an author could not have written.
-/
import Autopilot.Strategy.Draft
import Autopilot.Wire.Encode

namespace Autopilot.Wire

/-- The bytes not yet read and the number of bytes before them. -/
structure Input where
  rest : List UInt8
  offset : Nat

/-- A step of reading. -/
abbrev Reader (α : Type) := StateT Input (Except Fault) α

namespace Reader

/-- Fails at a given offset. -/
def fail {α : Type} (offset : Nat) (cause : WireDefect) : Reader α :=
  fun _ => .error (.undecodable offset cause)

/-- The offset of the next byte. -/
def offset : Reader Nat :=
  fun input => .ok (input.offset, input)

/-- Takes `n` bytes. -/
def take (n : Nat) : Reader (List UInt8) := fun input =>
  match takeExactly? n input.rest with
  | some (front, rest) => .ok (front, ⟨rest, input.offset + n⟩)
  | none => .error (.undecodable input.offset (.truncated n))

/-- Takes one byte. -/
def byte : Reader UInt8 := do
  let bytes ← take 1
  pure (bytes.headD 0)

/-- Takes a number of two bytes. -/
def short : Reader Nat := do
  let bytes ← take 2
  pure (ofBigEndian bytes)

/-- Takes a text of `n` bytes. -/
def text (n : Nat) : Reader String := do
  let start ← offset
  let bytes ← take n
  match ofUtf8? bytes with
  | some s => pure s
  | none => fail start .notUtf8

/-- Takes a text behind its length in one byte. -/
def shortText : Reader String := do
  let length ← byte
  text length.toNat

/-- Runs a reader `n` times. -/
def times {α : Type} (read : Reader α) : Nat → Reader (List α)
  | 0 => pure []
  | n + 1 => do
    let x ← read
    let xs ← times read n
    pure (x :: xs)

/-- Takes a list behind its length in one byte. -/
def counted {α : Type} (read : Reader α) : Reader (List α) := do
  let count ← byte
  times read count.toNat

/-- Takes a type. -/
def slotType : Reader SlotType := do
  let start ← offset
  let tag ← byte
  if tag = 0 then
    let width ← short
    let bits := UInt16.ofNat width
    match SlotType.uint? bits with
    | some type => pure type
    | none => fail start (.width bits)
  else if tag = 1 then pure .address
  else if tag = 2 then pure .bool
  else if tag = 3 then pure .bytes32
  else fail start (.typeTag tag)

/-- Takes a value with its type. -/
def value : Reader AbiValue := do
  let type ← slotType
  let start ← offset
  match type with
  | .uint bits =>
    let bytes ← take 32
    let amount := wordOfBytes bytes
    if amount.toNat < bitBound bits.toNat then pure (.uint amount bits)
    else fail start (.tooWide bits)
  | .address =>
    let bytes ← take 20
    pure (.address (addressOfBytes bytes))
  | .bool =>
    let flag ← byte
    if flag = 0 then pure (.bool false)
    else if flag = 1 then pure (.bool true)
    else fail start (.boolByte flag)
  | .bytes32 =>
    let bytes ← take 32
    pure (.bytes32 (wordOfBytes bytes))

/-! ## Operations -/

/-- Takes the name of a sub-slot as its place in the table. -/
def slotName (slots : List String) : Reader String := do
  let start ← offset
  let place ← byte
  if place = proxyIndex then pure proxySlot
  else match slots[place.toNat]? with
    | some name => pure name
    | none => fail start (.slotIndex place)

/-- Takes a placeholder, which must carry the number that is next within its operation. -/
def placeholder (next : UInt8) : Reader String := do
  let start ← offset
  let number ← byte
  if number = next then shortText
  else fail start (.variableSlot number next)

/-- The number after a variable's; it stops at the largest byte. -/
def nextNumber (number : UInt8) : UInt8 :=
  if number = 255 then 255 else number + 1

/-- Takes one parameter. -/
def binding (slots : List String) (next : UInt8) : Reader Binding := do
  let start ← offset
  let tag ← byte
  match Binding.Kind.ofTag? tag with
  | none => fail start (.bindingTag tag)
  | some .const =>
    let v ← value
    pure (.const v)
  | some .subSlot =>
    let name ← slotName slots
    pure (.subSlot name)
  | some .placeholder =>
    let name ← placeholder next
    pure (.placeholder name)
  | some .piped =>
    let index ← byte
    pure (.piped index.toNat)

/-- Takes `n` parameters. -/
def bindings (slots : List String) (next : UInt8) : Nat → Reader (List Binding)
  | 0 => pure []
  | n + 1 => do
    let b ← binding slots next
    let bs ← bindings slots (if b.placeholder?.isSome then nextNumber next else next) n
    pure (b :: bs)

/-- Takes one operation of the given kind. -/
def operation (kind : OperationKind) (slots : List String) : Reader DraftOperation := do
  let start ← offset
  let id ← take 4
  let name ← shortText
  if operationId name ≠ id then fail start (.operationId name)
  else if (Catalogue.find? kind name).isNone then throw (.unknownOperation name)
  else
    let count ← byte
    let bs ← bindings slots 0 count.toNat
    pure ⟨name, bs⟩

/-! ## Strategies -/

/-- Takes one declaration of the table. -/
def subSlot : Reader SubSlot := do
  let name ← shortText
  let type ← slotType
  pure ⟨name, type⟩

/-- Takes the version, which must be the known one. -/
def knownVersion : Reader Unit := do
  let found ← byte
  if found = version then pure () else fail 0 (.version found)

/-- Takes the strategy's name with its hash and length. -/
def strategyName : Reader String := do
  let start ← offset
  let hash ← take 32
  let length ← short
  let name ← text length
  if Keccak.digest (utf8 name) = wordOfBytes hash then pure name
  else fail start .nameHash

/-- Takes the flavor. -/
def flavor : Reader Flavor := do
  let start ← offset
  let tag ← byte
  match Flavor.ofTag? tag with
  | some f => pure f
  | none => fail start (.flavor tag)

/-- Nothing may be left. -/
def finish : Reader Unit := fun input =>
  if input.rest.isEmpty then .ok ((), input)
  else .error (.undecodable input.offset (.trailing input.rest.length))

/-- Takes a whole strategy. -/
def draft : Reader Draft := do
  knownVersion
  let name ← strategyName
  let kind ← flavor
  let slots ← counted subSlot
  let names := slots.map (·.name)
  let triggers ← counted (operation .trigger names)
  let actions ← counted (operation .action names)
  finish
  pure ⟨name, kind, slots, triggers, actions⟩

end Reader

/-- Reads an encoded strategy and builds it anew. -/
def decode (bytes : List UInt8) : Except Fault Strategy := do
  let (draft, _) ← Reader.draft.run ⟨bytes, 0⟩
  draft.build

end Autopilot.Wire
