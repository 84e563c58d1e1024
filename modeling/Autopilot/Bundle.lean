/-
  Bundles: strategies that reach the same end by different means.

  Each member has a precondition over a snapshot of observed state and says where the
  values of its strategy's variables come from. Selection takes the first member, in
  declared order, whose precondition holds, and then needs every value of that member;
  it never falls through to a later one.
-/
import Autopilot.Fault
import Autopilot.Predicate.Basic
import Autopilot.Wire.Encode

namespace Autopilot

/-! ## Keys -/

/-- The content address of a bundle's member list. -/
structure BundleKey where
  digest : Word
  deriving DecidableEq

namespace BundleKey

/-- The key as it is shown. -/
def text (key : BundleKey) : String :=
  wordText key.digest

/-- Reads a key; blanks around it do not count. -/
def read? (s : String) : Option BundleKey :=
  (readWord (Text.trim s)).toOption.map BundleKey.mk

end BundleKey

/-! ## Members -/

/-- Where the value of a variable comes from. -/
inductive VariableSource where
  | const (value : AbiValue)
  /-- The value observed under a key. -/
  | snapshot (key : String)
  deriving DecidableEq

/-- The value of a source in a snapshot. -/
def VariableSource.value (snapshot : Snapshot) : VariableSource → Except Fault AbiValue
  | .const value => .ok value
  | .snapshot key =>
    match snapshot.find? key with
    | some value => .ok value
    | none => .error (.missingSnapshotValue key)

/-- One strategy of a bundle. -/
structure BundleMember where
  strategy : StrategyId
  label : String
  precondition : Predicate
  sources : NameMap VariableSource

/-- A named list of members. -/
structure Bundle where
  name : String
  members : List BundleMember

/-- The key of a bundle: the hash of its members' ids in order, so that it is the same for every
    process. -/
def Bundle.key (b : Bundle) : BundleKey :=
  ⟨Keccak.digest (b.members.flatMap fun m => wordBytes m.strategy.digest)⟩

/-! ## Selection -/

/-- A member that was selected. -/
structure Selection where
  /-- The member's place in the bundle. -/
  index : Nat
  strategy : StrategyId
  inputs : NameMap AbiValue

/-- The values of a member's variables, by increasing name up to the first that is missing. -/
def BundleMember.inputs (m : BundleMember) (snapshot : Snapshot) :
    Except Fault (NameMap AbiValue) :=
  m.sources.mapM fun _ source => source.value snapshot

/-- The first member whose precondition holds, with its place. -/
def Bundle.eligible? (b : Bundle) (snapshot : Snapshot) : Option (BundleMember × Nat) :=
  b.members.zipIdx.find? fun (m, _) => m.precondition.holds snapshot

/-- Selects a member and gathers the values of its variables. -/
def Bundle.select (b : Bundle) (snapshot : Snapshot) : Except Fault Selection :=
  match b.eligible? snapshot with
  | none => .error (.noEligibleStrategy b.name)
  | some (member, index) => do
    let inputs ← member.inputs snapshot
    pure ⟨index, member.strategy, inputs⟩

end Autopilot
