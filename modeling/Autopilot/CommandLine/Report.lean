/-
  What the commands print.

  Each text here ends its last line. Byte strings are shown as digits behind `0x`, and
  the operations of a strategy are numbered from one.
-/
import Autopilot.Execution.Prepare
import Autopilot.KeeperFile

namespace Autopilot.CommandLine

/-- How a command may end early. -/
inductive Ending where
  | fault (f : Fault)
  /-- A look-up by place went beyond the end of a list. The program stops where it stands. -/
  | outOfRange (length place : Nat)

/-- The item at a place that is taken to be in range. -/
def itemAt {α : Type} (items : List α) (place : Nat) : Except Ending α :=
  match items[place]? with
  | some item => .ok item
  | none => .error (.outOfRange items.length place)

/-- Lines, each of them ended. -/
def lines (texts : List String) : String :=
  String.join (texts.map (· ++ "\n"))

/-- Lines for the items of a list, which are numbered from one. -/
def numberedLines {α : Type} (stem : String) (text : α → String) (items : List α) : List String :=
  items.zipIdx.map fun (item, place) => Ini.numbered stem (place + 1) ++ text item

/-- What a flavor is called. -/
def flavorText : Flavor → String
  | .continuous => "continuous"
  | .oneShot => "one-shot"

/-- The account of a strategy that was found valid. -/
def strategyReport (s : Strategy) : String :=
  let placeholders := s.variableTypes.entries.map fun (name, type) =>
    "  %" ++ name ++ ": " ++ type.text
  lines <|
    ["Strategy:  " ++ s.name,
      "Id:        " ++ s.id.text,
      "Flavor:    " ++ flavorText s.flavor,
      "Sub-slots: " ++ toString s.subSlots.length] ++
    s.subSlots.map (fun slot => "  " ++ slot.text) ++
    ["Triggers:  " ++ toString s.triggers.length,
      "Actions:   " ++ toString s.actions.length] ++
    (if placeholders.isEmpty then [] else "Variables:" :: placeholders)

/-- The line of an encoded operation, behind its number. -/
def operationBytes (s : Strategy) (op : Operation) : String :=
  " " ++ op.name ++ ": " ++ Text.hex0x (Wire.encodeOperation s op)

/-- The line of one action's parameter sources, behind its number. -/
def mappingText (sources : List UInt8) : String :=
  ": [" ++ ", ".intercalate (sources.map fun b => toString b.toNat) ++ "]"

/-- The account of an encoded strategy. -/
def encodingReport (s : Strategy) : String :=
  lines <|
    ["id: " ++ s.id.text, "bytes: " ++ toString (Wire.encode s).length] ++
    numberedLines "trigger" (operationBytes s) s.triggers ++
    numberedLines "action" (operationBytes s) s.actions ++
    numberedLines "mapping" mappingText (Wire.paramMapping s)

/-- A decoded strategy as a strategy file, below its id. -/
def decodingReport (s : Strategy) : String :=
  lines ["; id: " ++ s.id.text] ++ StrategyFile.render s

/-- The account of a new subscription. -/
def subscriptionReport (s : Subscription) : String :=
  lines [
    "subscription: " ++ toString s.id,
    "target: " ++ s.target.text,
    "owner: " ++ addressText s.owner,
    "hash: " ++ wordText s.hash]

/-- The line of one operation's call data, behind its number. -/
def callDataText (bytes : List UInt8) : String :=
  ": " ++ Text.hex0x bytes

/-- The account of a prepared execution. -/
def executionReport (k : Keeper) (p : PreparedExecution) : Except Ending String := do
  let bundle ← (k.library.bundle k.bundle).mapError .fault
  let strategy ← (k.library.get p.strategy).mapError .fault
  let member ← itemAt bundle.members p.strategyIndex
  pure <| lines <|
    ["bundle: " ++ bundle.name,
      "subscription: " ++ toString p.subscription,
      "selected: " ++ member.label ++ " (strategy index " ++ toString p.strategyIndex ++ " '" ++
        strategy.name ++ "')",
      "strategy id: " ++ p.strategy.text] ++
    p.inputs.entries.map (fun (name, value) => "%" ++ name ++ " = " ++ value.text) ++
    numberedLines "trigger" callDataText p.triggerCallData ++
    numberedLines "action" callDataText p.actionCallData

/-- The account of a fault. What a reader of texts could not read is shown before it. -/
def faultReport (fault : Fault) : String :=
  let excerpt := match fault with
    | .unreadable source cause =>
      ["error: failed to parse [" ++ source.heading ++ "] " ++ source.key ++ ":",
        cause.withContext source.text]
    | _ => []
  lines (excerpt ++ ["error: " ++ fault.message])

/-- The status of the program and its last words, for a command that ends early. -/
def Ending.report : Ending → Nat × String
  | .fault f => (f.exitCode, faultReport f)
  | .outOfRange length place =>
    (101, lines ["index out of bounds: the len is " ++ toString length ++ " but the index is " ++
      toString place])

end Autopilot.CommandLine
