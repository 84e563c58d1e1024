/-
  Hosts: what commands need of their surroundings.

  A host reads and writes files by path, opens and keeps the tables of a ledger by the
  locator of their database, and tells the time. Its steps run in a monad of its own,
  so the commands are the same over a file tree held in memory and over a real one.
-/
import Autopilot.Ini
import Autopilot.Subscription.Configured

namespace Autopilot

/-- The surroundings of a command. -/
structure Host (m : Type → Type) where
  /-- The bytes of a file. -/
  readFile : String → ExceptT FileDefect m (List UInt8)
  /-- Writes a file over one that is there. -/
  writeFile : String → List UInt8 → ExceptT FileDefect m Unit
  /-- Opens the tables of a database. -/
  openTables : String → ExceptT QueryDefect m ConfiguredLedger
  /-- Keeps the tables of a database. -/
  keepTables : String → TableLedger → m Unit
  /-- The present time. -/
  now : m Timestamp

namespace Host

variable {m : Type → Type} [Monad m]

/-- The text that a configuration file holds. -/
def iniOfBytes (bytes : List UInt8) : Except LoadDefect Ini :=
  match ofUtf8? bytes with
  | none => .error .notUtf8
  | some text => (Ini.read text).mapError LoadDefect.ini

/-- Loads a configuration file. -/
def loadIni (host : Host m) (path : String) : ExceptT Fault m Ini := do
  let bytes ← (host.readFile path).adapt fun cause => .unloadable path (.file cause)
  ExceptT.mk (pure ((iniOfBytes bytes).mapError (Fault.unloadable path)))

end Host

end Autopilot
