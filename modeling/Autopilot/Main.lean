/-
  The program: a command line carried out over the files of the system.

  The ledger's tables are kept in a file of their own, in the form of `Archive`. Both
  streams are printed when the command has ended.
-/
import Autopilot.CommandLine.Run
import Autopilot.Database.Locator
import Autopilot.Subscription.Archive
import Std.Time.DateTime.Timestamp

namespace Autopilot.Program

/-! ## The system as a host -/

/-- What an error of the system says about a file; its number may come with a minus sign. -/
def fileDefect : IO.Error → FileDefect
  | .noFileOrDirectory .. => .missing
  | .inappropriateType _ code details =>
    let number := min code (0 - code)
    if number = 20 then .notDirectory
    else if number = 21 then .isDirectory
    else .refused (details ++ " (os error " ++ toString number ++ ")")
  | e => .refused (toString e)

/-- A step of the system that may fail on a file. -/
def onFile {α : Type} (x : IO α) : ExceptT FileDefect IO α :=
  ExceptT.mk do
    try
      let a ← x
      pure (.ok a)
    catch e => pure (.error (fileDefect e))

/-- The tables of a file. -/
def openFile (path : String) (access : Access) : IO (Except QueryDefect ConfiguredLedger) := do
  let text ← match ← (onFile (IO.FS.readFile path)).run with
    | .ok text => pure (some text)
    | .error _ => pure (if access.creates then some "" else none)
  match text.map Archive.read? with
  | none => pure (.error .cannotOpen)
  | some none => pure (.error .notDatabase)
  | some (some tables) =>
    pure (.ok (if access.writes then .tables tables else .readOnly tables))

/-- The tables of a database; a file that is not there holds none. -/
def openTables (locator : String) : ExceptT QueryDefect IO ConfiguredLedger :=
  ExceptT.mk do
    match Storage.read? locator with
    | none => pure (.error .cannotOpen)
    | some (.transient writes) =>
      pure (if writes then .ok (.tables TableLedger.empty) else .error .readOnly)
    | some (.file path access) => openFile path access

/-- Keeps the tables of a database. -/
def keepTables (locator : String) (tables : TableLedger) : IO Unit :=
  match Storage.read? locator with
  | some (.file path _) => IO.FS.writeFile path (Archive.render tables)
  | _ => pure ()

/-- The present time. -/
def now : IO Timestamp := do
  let t ← Std.Time.Timestamp.now
  let nanoseconds := t.toNanosecondsSinceUnixEpoch.val.toNat
  pure ((Timestamp.ofSeconds? (nanoseconds / 1000000000) (nanoseconds % 1000000000)).getD
    Timestamp.epoch)

/-- The files, ledgers and clock of the system. -/
def host : Host IO where
  readFile path := onFile do
    let bytes ← IO.FS.readBinFile path
    pure bytes.data.toList
  writeFile path bytes := onFile (IO.FS.writeBinFile path ⟨bytes.toArray⟩)
  openTables := openTables
  keepTables := keepTables
  now := now

/-! ## Help -/

/-- How the program is called. -/
def usage : String :=
  CommandLine.lines [
    "Composable DeFi automation strategies",
    "",
    "Usage: stratforge [OPTIONS] <COMMAND>",
    "",
    "Commands:",
    "  validate   Build and validate a strategy file (-s FILE)",
    "  encode     Encode a strategy file and print its id and byte layout (-s FILE [-o FILE])",
    "  decode     Decode a raw strategy encoding (-i FILE)",
    "  subscribe  Subscribe the keeper file's owner to its bundle (-c FILE)",
    "  prepare    Select a bundle member and print the calldata for one execution (-c FILE)",
    "  help       Print this message",
    "",
    "Options:",
    "      --log-level <LOG_LEVEL>  Log level or filter directives [default: info]",
    "      --log-json               Emit logs as JSON lines",
    "  -h, --help                   Print help"]

/-- Why the program does nothing. -/
def refusalText : CommandLine.Refusal → String
  | .displayHelp => ""
  | .displayHelpOnNothing => ""
  | .missingSubcommand => "error: a command is required\n\n"
  | .invalidSubcommand => "error: unrecognized subcommand\n\n"
  | .unknownArgument => "error: unexpected argument found\n\n"
  | .invalidValue => "error: a value is required for an option but none was supplied\n\n"
  | .argumentConflict => "error: an option cannot be used multiple times\n\n"
  | .tooManyValues => "error: unexpected value for a switch found\n\n"
  | .missingRequired => "error: a required option was not provided\n\n"

/-- Carries out a command line and returns its status. -/
def perform (words : List String) : IO UInt32 := do
  let out ← IO.getStdout
  let err ← IO.getStderr
  match CommandLine.read words with
  | .error .displayHelp =>
    out.putStr usage
    pure 0
  | .error refusal =>
    err.putStr (refusalText refusal ++ usage)
    pure (UInt32.ofNat refusal.exitCode)
  | .ok invocation =>
    let outcome ← CommandLine.run host invocation.command
    out.putStr outcome.printed.out
    err.putStr outcome.printed.err
    pure (UInt32.ofNat outcome.exit)

end Autopilot.Program

/-- The program. -/
def main (words : List String) : IO UInt32 :=
  Autopilot.Program.perform words
