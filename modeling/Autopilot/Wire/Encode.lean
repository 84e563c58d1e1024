/-
  The wire format of a strategy.

  All numbers are written with the most significant byte first.

    strategy  = version (1) | hash of the name (32) | name length (2), name | flavor (1)
                | count, sub-slots | count, triggers | count, actions
    sub-slot  = name length (1), name | type
    operation = id (4) | name length (1), name | count, parameters
    parameter = kind (1) | payload
      constant     type, value
      sub-slot     place in the table (1), 255 for the owner's slot
      variable     number within the operation (1), name length (1), name
      piped        position of the action, from one (1)
    type      = 0, width (2) | 1 address | 2 bool | 3 raw bytes

  The encoding depends on the strategy alone, and its hash is the strategy's id. The
  parameter mapping, written beside it, says for each parameter of an action where the
  interpreter takes it from.
-/
import Autopilot.Strategy.Basic
import Autopilot.Text.Blank

namespace Autopilot

/-! ## Ids -/

/-- The content address of a strategy. -/
structure StrategyId where
  digest : Word
  deriving DecidableEq, Hashable

namespace StrategyId

/-- The id as it is shown. -/
def text (id : StrategyId) : String :=
  wordText id.digest

/-- Reads an id; blanks around it do not count. -/
def read? (s : String) : Option StrategyId :=
  (readWord (Text.trim s)).toOption.map StrategyId.mk

end StrategyId

namespace Wire

/-- The version that the format starts with. -/
def version : UInt8 := 1

/-- The place in the table that stands for the owner's slot. -/
def proxyIndex : UInt8 := 255

/-- Sub-slot `i` is mapped to this byte plus `i`. -/
def slotMappingBase : UInt8 := 128

/-! ## Encoding -/

/-- A text behind its length in one byte. -/
def shortText (s : String) : List UInt8 :=
  UInt8.ofNat s.utf8ByteSize :: utf8 s

/-- A type. -/
def encodeType : SlotType → List UInt8
  | .uint bits => SlotType.tag (.uint bits) :: bigEndian 2 bits.toNat
  | type => [type.tag]

/-- The payload of a value behind its type. -/
def valueBytes : AbiValue → List UInt8
  | .uint value _ => wordBytes value
  | .address value => addressBytes value
  | .bool value => [if value then 1 else 0]
  | .bytes32 value => wordBytes value

/-- A value with its type. -/
def encodeValue (v : AbiValue) : List UInt8 :=
  encodeType v.slotType ++ valueBytes v

/-- The place of a name in the table of sub-slots, as a byte. -/
def slotByte? (s : Strategy) (name : String) : Option UInt8 :=
  if name = proxySlot then some proxyIndex
  else (s.subSlotIndex? name).map UInt8.ofNat

/-- One parameter; `number` is the number of variables before it in the same operation. -/
def encodeBinding (s : Strategy) (number : UInt8) (b : Binding) : List UInt8 :=
  b.kind.tag :: match b with
    | .const value => encodeValue value
    | .subSlot name => [(slotByte? s name).getD proxyIndex]
    | .placeholder name => number :: shortText name
    | .piped index => [UInt8.ofNat index]

/-- The parameters of an operation, from one with the given number of variables before it on. -/
def encodeBindings (s : Strategy) (number : UInt8) : List Binding → List UInt8
  | [] => []
  | b :: rest =>
    encodeBinding s number b ++
      encodeBindings s (if b.placeholder?.isSome then number + 1 else number) rest

/-- One action or trigger. -/
def encodeOperation (s : Strategy) (op : Operation) : List UInt8 :=
  operationId op.name ++ shortText op.name ++
    UInt8.ofNat op.bindings.length :: encodeBindings s 0 op.bindings

/-- One declaration of the table. -/
def encodeSubSlot (slot : SubSlot) : List UInt8 :=
  shortText slot.name ++ encodeType slot.type

/-- A list behind its length in one byte. -/
def counted {α : Type} (encode : α → List UInt8) (xs : List α) : List UInt8 :=
  UInt8.ofNat xs.length :: xs.flatMap encode

/-- The name of a strategy behind its hash and its length in two bytes. -/
def encodeName (name : String) : List UInt8 :=
  wordBytes (Keccak.digest (utf8 name)) ++ bigEndian 2 name.utf8ByteSize ++ utf8 name

/-- The whole encoding of a strategy. -/
def encode (s : Strategy) : List UInt8 :=
  version :: encodeName s.name ++ s.flavor.tag ::
    (counted encodeSubSlot s.subSlots ++ counted (encodeOperation s) s.triggers ++
      counted (encodeOperation s) s.actions)

/-! ## Parameter mapping -/

/-- Where the interpreter takes a parameter from: zero for call data, the position of an action,
    or the byte of a sub-slot. -/
def sourceByte (s : Strategy) : Binding → UInt8
  | .const _ => 0
  | .placeholder _ => 0
  | .piped index => UInt8.ofNat index
  | .subSlot name =>
    match slotByte? s name with
    | some place => if place = proxyIndex then place else slotMappingBase + place
    | none => 0

/-- The sources of every action's parameters. -/
def paramMapping (s : Strategy) : List (List UInt8) :=
  s.actions.map fun action => action.bindings.map (sourceByte s)

end Wire

/-- The content address of a strategy: the hash of its encoding. -/
def Strategy.id (s : Strategy) : StrategyId :=
  ⟨Keccak.digest (Wire.encode s)⟩

end Autopilot
