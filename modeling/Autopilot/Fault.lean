/-
  Faults: every way in which building, storing, selecting or preparing can fail.

  A fault is a cause with the data that its message shows. Three functions read it:
  `message` gives the words, `exitCode` the status with which a command ends, and
  `isAuthoringDefect` tells the faults that mean a broken strategy from those that
  another try may cure. A type mismatch and an exceeded limit do not count as defects
  of the author.
-/
import Autopilot.ReadError

namespace Autopilot

/-! ## Causes within a fault -/

/-- Why a parameter may not take the value of an action. -/
inductive PipeDefect where
  /-- Triggers are judged before any action runs. -/
  | inTrigger
  | indexZero
  | ownOutput
  | later (target own : Nat)
  | noReturn (target : Nat)
  deriving DecidableEq

/-- The defect in words. -/
def PipeDefect.message : PipeDefect → String
  | .inTrigger => "triggers run before any action"
  | .indexZero => "action indices start at 1"
  | .ownOutput => "an action cannot consume its own output"
  | .later target own => "action " ++ toString target ++ " runs after action " ++ toString own
  | .noReturn target => "action " ++ toString target ++ " declares no return value"

/-- Why a strategy cannot be built from its parts alone. -/
inductive StrategyDefect where
  | blankName
  | noAction
  | unusableSlot (name : String)
  | emptyPlaceholder
  deriving DecidableEq

/-- The defect in words. -/
def StrategyDefect.message : StrategyDefect → String
  | .blankName => "name must not be empty"
  | .noAction => "at least one action is required"
  | .unusableSlot name => "'" ++ name ++ "' is not a usable sub-slot name"
  | .emptyPlaceholder => "empty variable placeholder"

/-- What is counted against a limit. -/
inductive Counted where
  | nameBytes
  | actions
  | triggers
  | subSlots
  | slotNameBytes
  | parameters
  | placeholderBytes
  deriving DecidableEq

/-- The counted things in words. -/
def Counted.text : Counted → String
  | .nameBytes => "bytes in strategy name"
  | .actions => "actions"
  | .triggers => "triggers"
  | .subSlots => "sub-slots"
  | .slotNameBytes => "bytes in sub-slot name"
  | .parameters => "parameters"
  | .placeholderBytes => "bytes in variable name"

/-- Why strategies cannot be bundled. -/
inductive BundleDefect where
  | noMember
  | tooManyMembers (count limit : Nat)
  | differentSlots (name first : String)
  deriving DecidableEq

/-- The defect in words. -/
def BundleDefect.message : BundleDefect → String
  | .noMember => "a bundle needs at least one member"
  | .tooManyMembers count limit => toString count ++ " members, limit is " ++ toString limit
  | .differentSlots name first =>
    "'" ++ name ++ "' declares different sub-slots than '" ++ first ++ "'"

/-- Why bytes are no encoded strategy. -/
inductive WireDefect where
  | truncated (needed : Nat)
  | version (found : UInt8)
  | notUtf8
  | nameHash
  | flavor (found : UInt8)
  | width (bits : UInt16)
  | typeTag (found : UInt8)
  | tooWide (bits : UInt16)
  | boolByte (found : UInt8)
  | operationId (name : String)
  | bindingTag (found : UInt8)
  | slotIndex (found : UInt8)
  | variableSlot (found expected : UInt8)
  | trailing (count : Nat)
  deriving DecidableEq

/-- The defect in words. -/
def WireDefect.message : WireDefect → String
  | .truncated needed => "unexpected end of input, needed " ++ toString needed ++ " more bytes"
  | .version found => "unsupported encoding version " ++ toString found.toNat
  | .notUtf8 => "name is not valid UTF-8"
  | .nameHash => "name hash does not match name"
  | .flavor found => "unknown flavor " ++ toString found.toNat
  | .width bits => "invalid uint width " ++ toString bits.toNat
  | .typeTag found => "unknown type tag " ++ toString found.toNat
  | .tooWide bits => "constant does not fit in uint" ++ toString bits.toNat
  | .boolByte found => "invalid bool byte " ++ toString found.toNat
  | .operationId name => "operation id does not match '" ++ name ++ "'"
  | .bindingTag found => "unknown binding tag " ++ toString found.toNat
  | .slotIndex found => "sub-slot index " ++ toString found.toNat ++ " out of range"
  | .variableSlot found expected =>
    "variable slot " ++ toString found.toNat ++ " out of order, expected " ++
      toString expected.toNat
  | .trailing count => toString count ++ " trailing bytes"

/-- Why a list of sub-slots cannot be read. -/
inductive SlotListDefect where
  | untyped (entry : String)
  | unnamed (entry : String)
  | type (cause : SlotType.Defect)
  deriving DecidableEq

/-- The defect in words. -/
def SlotListDefect.message : SlotListDefect → String
  | .untyped entry => "expected 'name:type', found '" ++ entry ++ "'"
  | .unnamed entry => "missing sub-slot name in '" ++ entry ++ "'"
  | .type cause => cause.message

/-- Why the value of a configuration key is refused. -/
inductive ConfigDefect where
  | poolSize
  | sectionNumber (stem : String)
  | sectionGap (stem : String) (missing : Nat)
  | notBool (text : String)
  | slotList (cause : SlotListDefect)
  | notAddress (text : String)
  | notId
  | literal (cause : AbiValue.Defect)
  | noMemberVariable (name : String)
  | unusedVariable (name : String)
  deriving DecidableEq

/-- The defect in words. -/
def ConfigDefect.message : ConfigDefect → String
  | .poolSize => "pool size must be a positive integer"
  | .sectionNumber stem => "expected [" ++ stem ++ ".N] with N a positive number"
  | .sectionGap stem missing =>
    stem ++ " sections must be numbered contiguously from 1, missing " ++ stem ++ "." ++
      toString missing
  | .notBool text => "expected true or false, found '" ++ text ++ "'"
  | .slotList cause => cause.message
  | .notAddress text => "'" ++ text ++ "' is not an address"
  | .notId => "id must be a positive integer"
  | .literal cause => cause.message
  | .noMemberVariable name => "the member strategy has no variable '%" ++ name ++ "'"
  | .unusedVariable name => "no strategy in the bundle uses '%" ++ name ++ "'"

/-- Why a file cannot be read or written. -/
inductive FileDefect where
  | missing
  | notDirectory
  | isDirectory
  | nameTooLong
  | nulByte
  | refused (reason : String)
  deriving DecidableEq

/-- The defect in the words of the operating system. -/
def FileDefect.message : FileDefect → String
  | .missing => "No such file or directory (os error 2)"
  | .notDirectory => "Not a directory (os error 20)"
  | .isDirectory => "Is a directory (os error 21)"
  | .nameTooLong => "File name too long (os error 36)"
  | .nulByte => "file name contained an unexpected NUL byte"
  | .refused reason => reason

/-- Why a configuration file cannot be taken in. -/
inductive IniDefect where
  | unclosedHeading (line : Nat)
  | emptyKey (line : Nat)
  deriving DecidableEq

/-- The defect in words. A key can only be empty when its line starts with the delimiter, so the
    column is zero. -/
def IniDefect.message : IniDefect → String
  | .unclosedHeading line =>
    "line " ++ toString line ++
      ": Found opening bracket for section name but no closing bracket"
  | .emptyKey line => "line " ++ toString line ++ ":0: Key cannot be empty"

/-- Why a configuration file cannot be loaded. -/
inductive LoadDefect where
  | file (cause : FileDefect)
  | notUtf8
  | ini (cause : IniDefect)
  deriving DecidableEq

/-- The defect in words. -/
def LoadDefect.message : LoadDefect → String
  | .file cause => cause.message
  | .notUtf8 => "stream did not contain valid UTF-8"
  | .ini cause => cause.message

/-- Why a text is no point in time. -/
inductive TimeDefect where
  | tooShort
  | invalid
  | outOfRange
  | tooLong
  deriving DecidableEq

/-- The defect in words. -/
def TimeDefect.message : TimeDefect → String
  | .tooShort => "premature end of input"
  | .invalid => "input contains invalid characters"
  | .outOfRange => "input is out of range"
  | .tooLong => "trailing input"

/-- Why a stored subscription cannot be read back. -/
inductive RowDefect where
  | targetKind (found : String)
  | strategyId (text : String)
  | bundleKey (text : String)
  | owner (cause : Text.HexDefect)
  | createdAt (cause : TimeDefect)
  | type (cause : SlotType.Defect)
  | value (cause : AbiValue.Defect)
  deriving DecidableEq

/-- The defect in words. -/
def RowDefect.message : RowDefect → String
  | .targetKind found => "unknown target kind '" ++ found ++ "'"
  | .strategyId text => "'" ++ text ++ "' is not a strategy id"
  | .bundleKey text => "'" ++ text ++ "' is not a bundle key"
  | .owner cause => cause.message
  | .createdAt cause => cause.message
  | .type cause => cause.message
  | .value cause => cause.message

/-- Why a ledger refuses a step. -/
inductive QueryDefect where
  /-- The column holds text where a whole number is wanted. -/
  | textColumn (index : Nat) (name : String)
  /-- The column holds a number that is not whole where a whole one is wanted. -/
  | fractionColumn (index : Nat) (name : String)
  /-- The file is no database. -/
  | notDatabase
  /-- The database was opened for reading only. -/
  | readOnly
  /-- There is no database to open. -/
  | cannotOpen
  /-- There is no further number for a row. -/
  | full
  /-- A sum does not fit in 64 bits. -/
  | overflow
  deriving DecidableEq

/-- The defect in words. -/
def QueryDefect.message : QueryDefect → String
  | .textColumn index name =>
    "Invalid column type Text at index: " ++ toString index ++ ", name: " ++ name
  | .fractionColumn index name =>
    "Invalid column type Real at index: " ++ toString index ++ ", name: " ++ name
  | .notDatabase => "file is not a database"
  | .readOnly => "attempt to write a readonly database"
  | .cannotOpen => "unable to open database file"
  | .full => "database or disk is full"
  | .overflow => "attempt to add with overflow"

/-- The place of a text inside a configuration file. -/
structure Excerpt where
  heading : String
  key : String
  text : String
  deriving DecidableEq

/-! ## Faults -/

/-- A failure, with the data that its message shows. -/
inductive Fault where
  | invalidPipe (operation : String) (position target : Nat) (cause : PipeDefect)
  | undeclaredSubSlot (operation name : String)
  | typeMismatch (name : String) (expected found : SlotType)
  | missingSubSlotValue (name : String)
  | missingVariableValue (operation placeholder : String)
  | unknownSubscription (id : Nat)
  | inactiveSubscription (id : Nat)
  | notSubscriptionOwner (id : Nat)
  | subscriptionMismatch (id : Nat) (expected : String)
  | noEligibleStrategy (bundle : String)
  | missingSnapshotValue (key : String)
  | unknownOperation (name : String)
  | arityMismatch (operation : String) (expected found : Nat)
  | duplicateVariable (operation placeholder : String)
  | duplicateSubSlot (name : String)
  | unverifiedTriggerInput (trigger : String) (position : Nat)
  | limitExceeded (what : Counted) (limit : Nat)
  | strategyInvalid (name : String) (cause : StrategyDefect)
  | unknownStrategy (id : String)
  | unknownBundle (id : Nat)
  | incompatibleBundle (name : String) (cause : BundleDefect)
  | undecodable (offset : Nat) (cause : WireDefect)
  | corruptRow (id : Int) (cause : RowDefect)
  | queryFailed (cause : QueryDefect)
  | unloadable (path : String) (cause : LoadDefect)
  | configMissing (heading key : String)
  | configInvalid (heading key : String) (cause : ConfigDefect)
  | unreadable (source : Excerpt) (cause : ReadError)
  | file (cause : FileDefect)
  deriving DecidableEq

namespace Fault

/-- The fault in words. -/
def message : Fault → String
  | invalidPipe operation position target cause =>
    operation ++ " (position " ++ toString position ++ "): invalid pipe reference to $" ++
      toString target ++ ": " ++ cause.message
  | undeclaredSubSlot operation name =>
    operation ++ ": sub-slot '" ++ name ++ "' is not declared by the strategy"
  | typeMismatch name expected found =>
    "type mismatch for '" ++ name ++ "': expected " ++ expected.text ++ ", found " ++ found.text
  | missingSubSlotValue name => "missing value for sub-slot '" ++ name ++ "'"
  | missingVariableValue operation placeholder =>
    operation ++ ": missing value for variable '%" ++ placeholder ++ "'"
  | unknownSubscription id => "unknown subscription " ++ toString id
  | inactiveSubscription id => "subscription " ++ toString id ++ " is deactivated"
  | notSubscriptionOwner id => "subscription " ++ toString id ++ " is not owned by the caller"
  | subscriptionMismatch id expected =>
    "subscription " ++ toString id ++ " does not target " ++ expected
  | noEligibleStrategy bundle => "no eligible strategy in bundle '" ++ bundle ++ "'"
  | missingSnapshotValue key => "missing snapshot value '@" ++ key ++ "'"
  | unknownOperation name => "unknown operation '" ++ name ++ "'"
  | arityMismatch operation expected found =>
    operation ++ ": expected " ++ toString expected ++ " parameters, found " ++ toString found
  | duplicateVariable operation placeholder =>
    operation ++ ": variable '%" ++ placeholder ++ "' appears more than once"
  | duplicateSubSlot name => "duplicate sub-slot '" ++ name ++ "'"
  | unverifiedTriggerInput trigger position =>
    trigger ++ ": parameter " ++ toString position ++ " does not accept caller-supplied input"
  | limitExceeded what limit => "too many " ++ what.text ++ ": limit is " ++ toString limit
  | strategyInvalid name cause => "invalid strategy '" ++ name ++ "': " ++ cause.message
  | unknownStrategy id => "unknown strategy " ++ id
  | unknownBundle id => "unknown bundle " ++ toString id
  | incompatibleBundle name cause => "incompatible bundle '" ++ name ++ "': " ++ cause.message
  | undecodable offset cause => "decode error at byte " ++ toString offset ++ ": " ++ cause.message
  | corruptRow id cause => "database error: subscription " ++ toString id ++ ": " ++ cause.message
  | queryFailed cause => "database query error: " ++ cause.message
  | unloadable path cause =>
    "config parse error in " ++ path ++ ": couldn't read " ++ path ++ ": " ++ cause.message
  | configMissing heading key => "missing config key [" ++ heading ++ "] " ++ key
  | configInvalid heading key cause =>
    "invalid config value [" ++ heading ++ "] " ++ key ++ ": " ++ cause.message
  | unreadable _ cause => cause.message
  | file cause => cause.message

/-- The status with which a command that meets the fault ends. -/
def exitCode : Fault → Nat
  | file _ => 1
  | unloadable .. | configMissing .. | configInvalid .. => 2
  | corruptRow .. | queryFailed _ => 3
  | unreadable .. | invalidPipe .. | undeclaredSubSlot .. | typeMismatch .. | unknownOperation _
  | arityMismatch .. | duplicateVariable .. | duplicateSubSlot _ | unverifiedTriggerInput ..
  | limitExceeded .. | strategyInvalid .. | undecodable .. => 4
  | missingSubSlotValue _ | unknownSubscription _ | inactiveSubscription _
  | notSubscriptionOwner _ | subscriptionMismatch .. => 5
  | missingVariableValue .. | noEligibleStrategy _ | missingSnapshotValue _ | unknownStrategy _
  | unknownBundle _ | incompatibleBundle .. => 6

/-- Whether the fault means that the author wrote a broken strategy, which must never be
    published. -/
def isAuthoringDefect : Fault → Bool
  | invalidPipe .. | undeclaredSubSlot .. | unknownOperation _ | arityMismatch ..
  | duplicateVariable .. | duplicateSubSlot _ | unverifiedTriggerInput .. | strategyInvalid .. =>
    true
  | _ => false

end Fault

end Autopilot
