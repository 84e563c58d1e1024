/-
  Keeper files: which strategies a keeper runs, for whom and with which values.

    [bundle]                name = …
    [member.1]              strategy = path, precondition = …, label = …
    [member.1.variables]    variable = literal, or variable = @key
    [subscription]          owner = …, id = …
    [subscription.values]   slot = literal
    [snapshot]              key = type:literal
    [variables]             variable = literal
    [sqlite]                path = …, pool_size = …

  `check` judges what can be judged without the strategies. `load` then reads the
  strategies of the members, makes them a bundle in a library of its own and reads the
  remaining sections with the types that the strategies give to their names.
-/
import Autopilot.Library
import Autopilot.Path
import Autopilot.Predicate.Reader
import Autopilot.StrategyFile.Load

namespace Autopilot

/-- What a keeper file says, together with the strategies that it names. -/
structure Keeper where
  library : Library
  /-- The number of the keeper's bundle in the library. -/
  bundle : Nat
  owner : Address
  /-- The subscription to go on with, if one is named. -/
  subscription : Option Nat
  /-- The values of the sub-slots. -/
  values : NameMap AbiValue
  snapshot : Snapshot
  /-- The variables that the keeper measured. -/
  measured : NameMap AbiValue

namespace KeeperFile

/-! ## Values of single keys -/

/-- The owner of the subscription. -/
def owner (ini : Ini) : Except Fault Address :=
  let text := Text.trim (ini.valueD "subscription" "owner")
  (readAddress text).mapError fun _ => .configInvalid "subscription" "owner" (.notAddress text)

/-- The number of the subscription to go on with, if one is named. -/
def subscriptionId (ini : Ini) : Except Fault (Option Nat) :=
  match ini.value? "subscription" "id" with
  | none => .ok none
  | some _ =>
    let id := ini.int "subscription" "id" 0
    if id < 1 then .error (.configInvalid "subscription" "id" .notId) else .ok (some id.toNat)

/-- The number of connections to a database, if none is given. -/
def defaultPoolSize : Nat := 4

/-- The number of connections to a database. -/
def poolSize (ini : Ini) : Except Fault Nat :=
  match ini.value? "sqlite" "pool_size" with
  | none => .ok defaultPoolSize
  | some _ =>
    let size := ini.int "sqlite" "pool_size" 0
    if 1 ≤ size ∧ size.toNat < bitBound 32 then .ok size.toNat
    else .error (.configInvalid "sqlite" "pool_size" .poolSize)

/-- The path of the database that keeps subscriptions, if one is named. -/
def databasePath? (ini : Ini) : Option String :=
  ini.value? "sqlite" "path"

/-! ## Sections of values -/

/-- Computes a value for each key of a section, in increasing order up to the first fault. -/
def sectionValues {α : Type} (ini : Ini) (heading : String) (f : String → Except Fault α) :
    Except Fault (NameMap α) := do
  let pairs ← (ini.keys heading).mapM fun key => do
    let value ← f key
    pure (key, value)
  pure (NameMap.ofList pairs)

/-- The literal of a key, read as the given type. -/
def literal (ini : Ini) (heading key : String) (type : SlotType) : Except Fault AbiValue :=
  (AbiValue.read type (ini.valueD heading key)).mapError fun cause =>
    .configInvalid heading key (.literal cause)

/-- The observed state. -/
def snapshot (ini : Ini) : Except Fault Snapshot :=
  sectionValues ini "snapshot" fun key =>
    (AbiValue.readTyped (ini.valueD "snapshot" key)).mapError fun cause =>
      .configInvalid "snapshot" key (.literal cause)

/-- The values of the sub-slots, typed by the table that declares them. -/
def subscriptionValues (ini : Ini) (slots : List SubSlot) : Except Fault (NameMap AbiValue) :=
  sectionValues ini "subscription.values" fun key =>
    match slots.find? (·.name = key) with
    | none => .error (.undeclaredSubSlot "[subscription.values]" key)
    | some slot => literal ini "subscription.values" key slot.type

/-- The variables that the keeper measured, typed by the strategies that use them. -/
def callerVariables (ini : Ini) (types : NameMap SlotType) : Except Fault (NameMap AbiValue) :=
  sectionValues ini "variables" fun key =>
    match types.find? key with
    | none => .error (.configInvalid "variables" key (.unusedVariable key))
    | some type => literal ini "variables" key type

/-! ## Shape -/

/-- There must be members, and each must name its strategy. -/
def checkMembers (ini : Ini) : Except Fault Unit := do
  let headings ← ini.numberedHeadings "member"
  if headings.isEmpty then
    throw (.configMissing (Ini.numbered "member" 1) "strategy")
  headings.forM fun heading => do
    let _ ← ini.require heading "strategy"
    pure ()

/-- Judges a keeper file without the strategies that it names. -/
def check (ini : Ini) : Except Fault Unit := do
  let _ ← ini.require "bundle" "name"
  checkMembers ini
  let _ ← ini.require "subscription" "owner"
  let _ ← owner ini
  let _ ← subscriptionId ini
  let _ ← snapshot ini
  let _ ← poolSize ini
  pure ()

/-! ## Members -/

/-- The precondition of a member; without one a member may always run. -/
def precondition (ini : Ini) (heading : String) : Except Fault Predicate :=
  let text := ini.valueD heading "precondition"
  if Text.isBlankText text then .ok .always
  else (Predicate.read text).mapError fun cause =>
    .unreadable ⟨heading, "precondition", text⟩ cause

/-- Where a member's variable comes from: the snapshot, behind an at sign, or a literal. -/
def variableSource (ini : Ini) (heading : String) (types : NameMap SlotType) (key : String) :
    Except Fault VariableSource :=
  match (Text.trim (ini.valueD heading key)).toList with
  | '@' :: name => .ok (.snapshot (String.ofList name))
  | _ =>
    match types.find? key with
    | none => .error (.configInvalid heading key (.noMemberVariable key))
    | some type => (literal ini heading key type).map .const

/-- The member of a section, which runs the given strategy. -/
def member (ini : Ini) (heading : String) (s : Strategy) : Except Fault BundleMember := do
  let condition ← precondition ini heading
  let label := (ini.value? heading "label").getD heading
  let part := heading ++ ".variables"
  let sources ← sectionValues ini part (variableSource ini part s.variableTypes)
  pure ⟨s.id, label, condition, sources⟩

variable {m : Type → Type} [Monad m]

/-- Loads the members of the given sections and registers their strategies. The paths of the
    strategies are seen from a directory. -/
def loadMembers (host : Host m) (directory : String) (ini : Ini) (lib : Library) :
    List String → ExceptT Fault m (List BundleMember × Library)
  | [] => pure ([], lib)
  | heading :: rest => do
    let path := Text.trim (ini.valueD heading "strategy")
    let strategy ← StrategyFile.load host (Path.join directory path)
    let first ← ExceptT.mk (pure (member ini heading strategy))
    let (members, last) ← loadMembers host directory ini (lib.register strategy).2 rest
    pure (first :: members, last)

/-- The types of the placeholders that the strategies use; of two types for one placeholder the
    earlier strategy's counts. -/
def placeholderTypes (strategies : List Strategy) : NameMap SlotType :=
  strategies.foldl (fun types s => s.variableTypes.override types) NameMap.empty

/-- The rest of a keeper file, once its bundle is there. -/
def finish (ini : Ini) (lib : Library) (bundle : Nat) : Except Fault Keeper := do
  let b ← lib.bundle bundle
  let strategies ← b.members.mapM fun member => lib.get member.strategy
  let slots ← lib.bundleSubSlots bundle
  pure {
    library := lib
    bundle := bundle
    owner := ← owner ini
    subscription := ← subscriptionId ini
    values := ← subscriptionValues ini slots
    snapshot := ← snapshot ini
    measured := ← callerVariables ini (placeholderTypes strategies) }

/-- The bundle of a keeper file, in a library of its own. -/
def loadBundle (host : Host m) (directory : String) (ini : Ini) :
    ExceptT Fault m (Nat × Library) := do
  let headings ← ExceptT.mk (pure (ini.numberedHeadings "member"))
  let (members, lib) ← loadMembers host directory ini Library.empty headings
  let name := Text.trim (ini.valueD "bundle" "name")
  ExceptT.mk (pure (lib.createBundle name members))

/-- Judges a keeper file and loads what it names. -/
def load (host : Host m) (directory : String) (ini : Ini) : ExceptT Fault m Keeper := do
  ExceptT.mk (pure (check ini))
  let (bundle, lib) ← loadBundle host directory ini
  ExceptT.mk (pure (finish ini lib bundle))

end KeeperFile

end Autopilot
