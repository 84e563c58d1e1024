/-
  Typed parameter values.

  `SlotType` is the type that a parameter, a sub-slot or a return value carries, and
  `AbiValue` a value of one of them. Both have a text, and the texts are read back
  here with the cause of every refusal. An amount remembers the width it was declared
  with; `fits` says that it can be written in so many bits, which reading guarantees and
  building a value by hand does not.
-/
import Autopilot.Text.Blank
import Autopilot.Text.Lowercase
import Autopilot.Word

namespace Autopilot

/-! ## Types -/

/-- The type of a parameter. -/
inductive SlotType where
  /-- An unsigned integer of the given width in bits. -/
  | uint (bits : UInt16)
  | address
  | bool
  | bytes32
  deriving DecidableEq, Inhabited

namespace SlotType

/-- The widths that an integer type may have: whole bytes from 8 to 256 bits. -/
def legalBits (bits : UInt16) : Bool :=
  8 ≤ bits.toNat && bits.toNat ≤ 256 && bits.toNat % 8 == 0

/-- The integer type of a width, if the width is legal. -/
def uint? (bits : UInt16) : Option SlotType :=
  if legalBits bits then some (.uint bits) else none

/-- Whether the type is one that may be declared. -/
def legal : SlotType → Bool
  | .uint bits => legalBits bits
  | _ => true

/-- The tag of the type in the wire format. -/
def tag : SlotType → UInt8
  | .uint _ => 0
  | .address => 1
  | .bool => 2
  | .bytes32 => 3

/-- The name of the type. -/
def text : SlotType → String
  | .uint bits => "uint" ++ toString bits.toNat
  | .address => "address"
  | .bool => "bool"
  | .bytes32 => "bytes32"

/-- Why a text names no type. -/
inductive Defect where
  | unknown (text : String)
  | width (bits : UInt16)
  deriving DecidableEq

/-- The defect in words. -/
def Defect.message : Defect → String
  | .unknown text => "unknown type '" ++ text ++ "'"
  | .width bits => "invalid uint width " ++ toString bits.toNat

/-- The integer type that a text with the stem `uint` names. -/
def readUint (text : String) : Except Defect SlotType :=
  match List.isPrefixOf? "uint".toList text.toList with
  | none => .error (.unknown text)
  | some width =>
    match Text.unsigned? (bitBound 16) (String.ofList width) with
    | none => .error (.unknown text)
    | some n =>
      match uint? (UInt16.ofNat n) with
      | none => .error (.width (UInt16.ofNat n))
      | some type => .ok type

/-- Reads the name of a type; blanks around it do not count, and `uint` alone is 256 bits wide. -/
def read (s : String) : Except Defect SlotType :=
  let name := Text.trim s
  if name = "address" then .ok .address
  else if name = "bool" then .ok .bool
  else if name = "bytes32" then .ok .bytes32
  else if name = "uint" then .ok (.uint 256)
  else readUint name

end SlotType

/-! ## Values -/

/-- A value of one of the types. -/
inductive AbiValue where
  /-- An amount and the width it is declared with. -/
  | uint (value : Word) (bits : UInt16)
  | address (value : Address)
  | bool (value : Bool)
  | bytes32 (value : Word)
  deriving DecidableEq, Inhabited

namespace AbiValue

/-- The type of a value. -/
def slotType : AbiValue → SlotType
  | .uint _ bits => .uint bits
  | .address _ => .address
  | .bool _ => .bool
  | .bytes32 _ => .bytes32

/-- An amount is below two to its declared width. -/
def fits : AbiValue → Bool
  | .uint value bits => value.toNat < bitBound bits.toNat
  | _ => true

/-- The zero of a type. -/
def zero : SlotType → AbiValue
  | .uint bits => .uint 0 bits
  | .address => .address 0
  | .bool => .bool false
  | .bytes32 => .bytes32 0

/-- The amount, of an amount. -/
def asUint? : AbiValue → Option Word
  | .uint value _ => some value
  | _ => none

/-- The address, of an address. -/
def asAddress? : AbiValue → Option Address
  | .address value => some value
  | _ => none

/-- The word of the value in call data: numbers and addresses at the low end, a flag as zero or
    one, raw bytes as they are. -/
def abiWord : AbiValue → Word
  | .uint value _ => value
  | .address value => value.setWidth 256
  | .bool value => if value then 1 else 0
  | .bytes32 value => value

/-- The 32 bytes of the value in call data. -/
def abiBytes (v : AbiValue) : List UInt8 :=
  wordBytes v.abiWord

/-- The text of a value: decimal, checksummed, `true` or `false`, or plain digits. -/
def text : AbiValue → String
  | .uint value _ => toString value.toNat
  | .address value => addressText value
  | .bool value => if value then "true" else "false"
  | .bytes32 value => wordText value

/-- The text of a value behind the name of its type. -/
def typedText (v : AbiValue) : String :=
  v.slotType.text ++ ":" ++ v.text

/-- Why a text is no value. -/
inductive Defect where
  | notUnsigned (text : String)
  | tooWide (text : String) (bits : UInt16)
  | notAddress (text : String)
  | notBool (text : String)
  | notBytes32 (text : String)
  | untyped (text : String)
  | type (cause : SlotType.Defect)
  deriving DecidableEq

/-- The defect in words. -/
def Defect.message : Defect → String
  | .notUnsigned text => "'" ++ text ++ "' is not an unsigned integer"
  | .tooWide text bits => text ++ " does not fit in uint" ++ toString bits.toNat
  | .notAddress text => "'" ++ text ++ "' is not an address"
  | .notBool text => "'" ++ text ++ "' is not a bool"
  | .notBytes32 text => "'" ++ text ++ "' is not a bytes32 value"
  | .untyped text => "expected 'type:value', found '" ++ text ++ "'"
  | .type cause => cause.message

/-- Reads an amount of the given width. -/
def readUint (bits : UInt16) (text : String) : Except Defect AbiValue :=
  match Text.amount? text with
  | none => .error (.notUnsigned text)
  | some value =>
    if value.toNat < bitBound bits.toNat then .ok (.uint value bits)
    else .error (.tooWide text bits)

/-- Reads a flag, in any case of its letters. -/
def readBool (text : String) : Except Defect AbiValue :=
  let lower := Text.lowercase text
  if lower = "true" ∨ lower = "1" then .ok (.bool true)
  else if lower = "false" ∨ lower = "0" then .ok (.bool false)
  else .error (.notBool text)

/-- Reads a literal of the given type; blanks around it do not count. -/
def read (type : SlotType) (s : String) : Except Defect AbiValue :=
  let text := Text.trim s
  match type with
  | .uint bits => readUint bits text
  | .address => ((readAddress text).map .address).mapError fun _ => .notAddress text
  | .bool => readBool text
  | .bytes32 => ((readWord text).map .bytes32).mapError fun _ => .notBytes32 text

end AbiValue

/-- The texts before and after the first occurrence of a character. -/
def splitAtFirst? (c : Char) (s : String) : Option (String × String) :=
  match s.toList.span (· != c) with
  | (_, []) => none
  | (before, _ :: after) => some (String.ofList before, String.ofList after)

/-- Reads a type, a colon and a literal of that type. -/
def AbiValue.readTyped (s : String) : Except Defect AbiValue :=
  match splitAtFirst? ':' s with
  | none => .error (.untyped s)
  | some (type, literal) =>
    match SlotType.read type with
    | .error cause => .error (.type cause)
    | .ok type => AbiValue.read type literal

end Autopilot
