/-
  Running a command over a host.

  A command prints as it goes and may end early, in a fault as a rule; what it printed
  before stays, and the fault is printed last. The status of the fault is that of the
  command.
-/
import Autopilot.CommandLine.Arguments
import Autopilot.CommandLine.Report
import Autopilot.Subscription.Configured
import Autopilot.Wire.Decode

namespace Autopilot.CommandLine

/-- What a command has printed on its two streams. -/
structure Printed where
  out : String
  err : String
  deriving DecidableEq

/-- How a command ended. -/
structure Outcome where
  exit : Nat
  printed : Printed
  deriving DecidableEq

/-- A step of a command. -/
abbrev Step (m : Type → Type) := ExceptT Ending (StateT Printed m)

variable {m : Type → Type} [Monad m]

/-! ## Steps -/

/-- Prints on the first stream. -/
def say (text : String) : Step m Unit :=
  ExceptT.lift (modify fun p => { p with out := p.out ++ text })

/-- Prints on the second stream. -/
def note (text : String) : Step m Unit :=
  ExceptT.lift (modify fun p => { p with err := p.err ++ text })

/-- A step of the host that may end in a fault. -/
def ask {α : Type} (x : ExceptT Fault m α) : Step m α :=
  ExceptT.mk (StateT.lift (Except.mapError .fault <$> x.run))

/-- A value that may be a fault. -/
def expect {α : Type} (x : Except Fault α) : Step m α :=
  ExceptT.mk (pure (x.mapError .fault))

/-- The present time. -/
def now (host : Host m) : Step m Timestamp :=
  ExceptT.lift (StateT.lift host.now)

/-! ## Ledgers -/

/-- Opens the ledger that a keeper file asks for. -/
def openLedger (host : Host m) (ini : Ini) : Step m ConfiguredLedger :=
  match KeeperFile.databasePath? ini with
  | none => pure (.memory MemoryLedger.empty)
  | some locator => ask ((host.openTables locator).adapt Fault.queryFailed)

/-- Keeps the ledger that a keeper file asks for. -/
def keepLedger (host : Host m) (ini : Ini) (ledger : ConfiguredLedger) : Step m Unit :=
  match KeeperFile.databasePath? ini, ledger with
  | some locator, .tables tables => ExceptT.lift (StateT.lift (host.keepTables locator tables))
  | _, _ => pure ()

/-- Subscribes a keeper's owner to its bundle. -/
def subscribeKeeper {σ : Type} [Ledger σ] (k : Keeper) (now : Timestamp) : OnLedger σ Nat :=
  Manager.subscribeBundle k.library k.bundle k.owner k.values now

/-- Prepares an execution of a keeper's bundle. -/
def prepareKeeper {σ : Type} [Ledger σ] (k : Keeper) (id : Nat) : OnLedger σ PreparedExecution :=
  prepareExecution k.library id k.bundle k.snapshot k.measured

/-! ## Commands -/

/-- Builds the strategy of a file and describes it. -/
def validate (host : Host m) (path : String) : Step m Unit := do
  note (lines ["Validating strategy: " ++ path])
  let strategy ← ask (StrategyFile.load host path)
  say (strategyReport strategy)
  note (lines ["", "Strategy is valid."])

/-- Encodes the strategy of a file, and writes the encoding if a path is given for it. -/
def encode (host : Host m) (path : String) (output : Option String) : Step m Unit := do
  let strategy ← ask (StrategyFile.load host path)
  say (encodingReport strategy)
  match output with
  | none => pure ()
  | some target =>
    let bytes := Wire.encode strategy
    ask ((host.writeFile target bytes).adapt Fault.file)
    note (lines ["Wrote " ++ toString bytes.length ++ " bytes to " ++ target])

/-- Decodes a file and prints its strategy as a strategy file. -/
def decode (host : Host m) (path : String) : Step m Unit := do
  let bytes ← ask ((host.readFile path).adapt Fault.file)
  let strategy ← expect (Wire.decode bytes)
  say (decodingReport strategy)

/-- Loads a keeper file and what it names. -/
def loadKeeper (host : Host m) (path : String) : Step m (Ini × Keeper) := do
  note (lines ["Loading keeper config from " ++ path])
  let ini ← ask (host.loadIni path)
  let keeper ← ask (KeeperFile.load host (Path.parent path) ini)
  pure (ini, keeper)

/-- Subscribes the owner that a keeper file names. -/
def subscribe (host : Host m) (path : String) : Step m Unit := do
  let (ini, keeper) ← loadKeeper host path
  let ledger ← openLedger host ini
  let time ← now host
  let (id, ledger) ← expect ((subscribeKeeper keeper time).run ledger)
  keepLedger host ini ledger
  let (subscription, _) ← expect ((Manager.load id).run ledger)
  say (subscriptionReport subscription)

/-- Prepares one execution: for the subscription that the keeper file names, or for one made for
    the occasion. -/
def prepare (host : Host m) (path : String) : Step m Unit := do
  let (ini, keeper) ← loadKeeper host path
  let prepared ← match keeper.subscription with
    | some id => do
      let ledger ← openLedger host ini
      let (prepared, _) ← expect ((prepareKeeper keeper id).run ledger)
      pure prepared
    | none => do
      let time ← now host
      let (id, ledger) ← expect ((subscribeKeeper keeper time).run MemoryLedger.empty)
      let (prepared, _) ← expect ((prepareKeeper keeper id).run ledger)
      pure prepared
  let report ← MonadExcept.ofExcept (executionReport keeper prepared)
  say report

/-- Carries out a command. -/
def perform (host : Host m) : Command → Step m Unit
  | .validate path => validate host path
  | .encode path output => encode host path output
  | .decode path => decode host path
  | .subscribe path => subscribe host path
  | .prepare path => prepare host path

/-- Carries out a command and reports how it ended. -/
def run (host : Host m) (command : Command) : m Outcome := do
  let (result, printed) ← (perform host command).run.run ⟨"", ""⟩
  match result with
  | .ok () => pure ⟨0, printed⟩
  | .error ending =>
    let (exit, lastWords) := ending.report
    pure ⟨exit, { printed with err := printed.err ++ lastWords }⟩

end Autopilot.CommandLine
