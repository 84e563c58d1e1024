/-
  Directives for the filtering of log lines.

  A bare level applies to the program's own lines, and lets warnings of its libraries
  through; a text with a comma or an equals sign is a list of directives already.
-/
import Autopilot.Text.Blank

namespace Autopilot

/-- The level when none is given. -/
def defaultLogLevel : String := "info"

/-- The name under which the program logs. -/
def logTarget : String := "stratforge"

/-- The directives that a log level stands for. -/
def logDirectives (level : String) : String :=
  let text := Text.trim level
  if text = "" then defaultLogLevel
  else if text.toList.any fun c => c == ',' || c == '=' then text
  else "warn," ++ logTarget ++ "=" ++ text

end Autopilot
