/-
  Bindings: where one parameter of an operation takes its value from.

  A binding is a constant fixed by the author, a sub-slot of the subscription, a
  variable that the keeper supplies, or the return value of an earlier action, counted
  from one.
-/
import Autopilot.Value

namespace Autopilot

/-- The reserved sub-slot that stands for the subscription's owner. -/
def proxySlot : String := "proxy"

/-- The source of one parameter. -/
inductive Binding where
  | const (value : AbiValue)
  | subSlot (name : String)
  | placeholder (name : String)
  | piped (index : Nat)
  deriving DecidableEq, Inhabited

namespace Binding

/-- The four kinds of source. -/
inductive Kind where
  | const
  | subSlot
  | placeholder
  | piped
  deriving DecidableEq

/-- The tag of a kind in the wire format. -/
def Kind.tag : Kind → UInt8
  | .const => 0
  | .subSlot => 1
  | .placeholder => 2
  | .piped => 3

/-- The kind with a tag. -/
def Kind.ofTag? (tag : UInt8) : Option Kind :=
  if tag = 0 then some .const
  else if tag = 1 then some .subSlot
  else if tag = 2 then some .placeholder
  else if tag = 3 then some .piped
  else none

theorem Kind.ofTag?_tag (k : Kind) : Kind.ofTag? k.tag = some k := by
  cases k <;> rfl

/-- The kind of a binding. -/
def kind : Binding → Kind
  | .const _ => .const
  | .subSlot _ => .subSlot
  | .placeholder _ => .placeholder
  | .piped _ => .piped

/-- The binding as it is written in a strategy file. -/
def text : Binding → String
  | .const value => value.text
  | .subSlot name => "&" ++ name
  | .placeholder name => "%" ++ name
  | .piped index => "$" ++ toString index

/-- The placeholder, of a variable. -/
def placeholder? : Binding → Option String
  | .placeholder name => some name
  | _ => none

end Binding

end Autopilot
