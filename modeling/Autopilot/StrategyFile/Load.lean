/-
  Loading a strategy from a file of a host.

  A file is read, judged and built, in that order, so a fault of the file's shape is
  found before one of the strategy.
-/
import Autopilot.Host
import Autopilot.StrategyFile

namespace Autopilot.StrategyFile

/-- Loads, judges and builds the strategy of a file. -/
def load {m : Type → Type} [Monad m] (host : Host m) (path : String) :
    ExceptT Fault m Strategy := do
  let ini ← host.loadIni path
  ExceptT.mk (pure (checkAndBuild ini))

end Autopilot.StrategyFile
