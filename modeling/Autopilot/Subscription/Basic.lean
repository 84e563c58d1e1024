/-
  Subscriptions: the sub-slot values of one strategy, or of every member of a bundle,
  for one owner.

  A subscription resolves the names that bindings use: a stored slot to its value, the
  reserved slot to the owner. Its hash covers the target, the owner and the stored
  values, and neither its number nor its state.
-/
import Autopilot.Bundle
import Autopilot.Timestamp

namespace Autopilot

/-- What a subscription drives. -/
inductive Target where
  | strategy (id : StrategyId)
  | bundle (key : BundleKey)
  deriving DecidableEq

/-- The target as it is shown. -/
def Target.text : Target → String
  | .strategy id => "strategy " ++ id.text
  | .bundle key => "bundle " ++ key.text

/-- The content address of a target. -/
def Target.digest : Target → Word
  | .strategy id => id.digest
  | .bundle key => key.digest

/-- Whether a target is a bundle. -/
def Target.isBundle : Target → Bool
  | .strategy _ => false
  | .bundle _ => true

/-- A subscription that has no number yet. -/
structure NewSubscription where
  target : Target
  owner : Address
  /-- The values of the sub-slots, in declared order. -/
  values : List (String × AbiValue)
  createdAt : Timestamp

/-- A numbered subscription. -/
structure Subscription where
  id : Nat
  target : Target
  owner : Address
  /-- The values of the sub-slots, in declared order. -/
  values : List (String × AbiValue)
  enabled : Bool
  createdAt : Timestamp
  deriving DecidableEq

namespace Subscription

/-- The first value stored under a name. -/
def value? (s : Subscription) (name : String) : Option AbiValue :=
  (s.values.find? (·.1 = name)).map (·.2)

/-- The value that a binding to a sub-slot sees. -/
def resolve (s : Subscription) (name : String) : Except Fault AbiValue :=
  if name = proxySlot then .ok (.address s.owner)
  else match s.value? name with
    | some value => .ok value
    | none => .error (.undeclaredSubSlot ("subscription " ++ toString s.id) name)

/-- The bytes that the hash covers: a word that points behind itself, the target, whether it is a
    bundle, the owner, the offset of the list of values, its length and the values. -/
def hashedBytes (s : Subscription) : List UInt8 :=
  wordBytes 0x20 ++ wordBytes s.target.digest ++ wordBytes (if s.target.isBundle then 1 else 0) ++
    wordBytes (s.owner.setWidth 256) ++ wordBytes 0x80 ++
    wordBytes (BitVec.ofNat 256 s.values.length) ++ s.values.flatMap fun v => v.2.abiBytes

/-- The hash of a subscription's content. -/
def hash (s : Subscription) : Word :=
  Keccak.digest s.hashedBytes

end Subscription

end Autopilot
