/-
  The catalogue of known operations.

  Every action and trigger that a strategy may use is listed with its parameters in
  order and, for an action, the type of the value that it returns to later actions. The
  order of the two lists is part of the catalogue.
-/
import Autopilot.Value

namespace Autopilot

/-- An operation either acts or only decides whether to act. -/
inductive OperationKind where
  | action
  | trigger
  deriving DecidableEq

/-- One parameter of an operation. -/
structure Parameter where
  name : String
  type : SlotType
  /-- The interpreter checks this input itself, so a trigger may take it from the keeper. -/
  callerVerified : Bool := false
  deriving DecidableEq

/-- What the catalogue says about one operation. -/
structure Signature where
  name : String
  kind : OperationKind
  params : List Parameter
  returns : Option SlotType
  deriving DecidableEq

namespace Signature

/-- The number of parameters. -/
def arity (s : Signature) : Nat :=
  s.params.length

end Signature

/-- The four bytes that stand for an operation: the front of the hash of its name. -/
def operationId (name : String) : List UInt8 :=
  (wordBytes (Keccak.digest (utf8 name))).take 4

namespace Catalogue

/-- An action that returns an amount. -/
def paying (name : String) (params : List (String × SlotType)) : Signature :=
  ⟨name, .action, params.map fun p => ⟨p.1, p.2, false⟩, some (.uint 256)⟩

/-- An action that returns nothing. -/
def checking (name : String) (params : List (String × SlotType)) : Signature :=
  ⟨name, .action, params.map fun p => ⟨p.1, p.2, false⟩, none⟩

/-- A trigger whose inputs are all fixed before execution. -/
def triggering (name : String) (params : List (String × SlotType)) : Signature :=
  ⟨name, .trigger, params.map fun p => ⟨p.1, p.2, false⟩, none⟩

/-- The actions, in the order of the catalogue. -/
def actions : List Signature := [
  paying "FlashLoan" [("token", .address), ("amount", .uint 256)],
  paying "MakerRatio" [("vault_id", .uint 256)],
  paying "MakerWithdraw" [("vault_id", .uint 256), ("amount", .uint 256), ("join", .address),
    ("to", .address), ("manager", .address)],
  paying "MakerSupply" [("vault_id", .uint 256), ("amount", .uint 256), ("join", .address),
    ("from", .address), ("manager", .address)],
  paying "MakerGenerate" [("vault_id", .uint 256), ("amount", .uint 256), ("to", .address),
    ("manager", .address)],
  paying "MakerPayback" [("vault_id", .uint 256), ("amount", .uint 256), ("from", .address),
    ("manager", .address)],
  checking "MakerRatioCheck" [("ratio_state", .uint 8), ("check_target", .bool),
    ("target_ratio", .uint 256), ("vault_id", .uint 256), ("ratio_action_position", .uint 8)],
  paying "AaveV3Supply" [("amount", .uint 256), ("from", .address), ("asset_id", .uint 16),
    ("enable_as_coll", .bool), ("market", .address)],
  paying "AaveV3Borrow" [("amount", .uint 256), ("to", .address), ("rate_mode", .uint 8),
    ("asset_id", .uint 16), ("market", .address)],
  paying "AaveV3Payback" [("amount", .uint 256), ("from", .address), ("rate_mode", .uint 8),
    ("asset_id", .uint 16), ("market", .address)],
  paying "AaveV3Withdraw" [("asset_id", .uint 16), ("amount", .uint 256), ("to", .address),
    ("market", .address)],
  checking "AaveV3RatioCheck" [("ratio_state", .uint 8), ("target_ratio", .uint 256)],
  paying "Sell" [("src_token", .address), ("dest_token", .address), ("amount", .uint 256),
    ("wrapper", .address), ("from", .address), ("to", .address)],
  paying "GasFee" [("gas_used", .uint 256), ("token", .address), ("amount", .uint 256)],
  paying "SendToken" [("token", .address), ("to", .address), ("amount", .uint 256)]]

/-- The triggers, in the order of the catalogue. -/
def triggers : List Signature := [
  triggering "MakerRatioTrigger" [("vault_id", .uint 256), ("ratio", .uint 256),
    ("ratio_state", .uint 8)],
  triggering "AaveV3RatioTrigger" [("user", .address), ("market", .address), ("ratio", .uint 256),
    ("ratio_state", .uint 8)],
  triggering "ChainlinkPriceTrigger" [("token", .address), ("price", .uint 256),
    ("price_state", .uint 8)],
  triggering "AaveV3QuotePriceTrigger" [("base_token", .address), ("quote_token", .address),
    ("price", .uint 256), ("price_state", .uint 8)],
  ⟨"OffchainPriceTrigger", .trigger, [⟨"limit_price", .uint 256, false⟩,
    ⟨"order_type", .uint 8, false⟩, ⟨"signed_price", .bytes32, true⟩], none⟩,
  triggering "GasPriceTrigger" [("max_gas_price", .uint 256)],
  triggering "TimestampTrigger" [("timestamp", .uint 256)]]

/-- The entries of one kind. -/
def entries : OperationKind → List Signature
  | .action => actions
  | .trigger => triggers

/-- The entry of the given kind and name. -/
def find? (kind : OperationKind) (name : String) : Option Signature :=
  (entries kind).find? (·.name = name)

theorem name_of_find? {kind : OperationKind} {name : String} {s : Signature}
    (h : find? kind name = some s) : s.name = name := by
  simpa using List.find?_some h

end Catalogue

end Autopilot
