/-!
# Log lines

Lines for the log, by severity. The parts of the library that have something to report say which
lines they write; nothing here depends on where the lines go.
-/

set_option autoImplicit false

namespace Schip

/-- Severity of a line. -/
inductive Level where
  | error
  | warn
  | info
  | trace
  deriving DecidableEq, Repr

/-- Name of a severity. -/
def Level.name : Level → String
  | .error => "error"
  | .warn => "warn"
  | .info => "info"
  | .trace => "trace"

/-- Line of the log. -/
structure LogLine where
  level : Level
  text : String
  deriving DecidableEq, Repr

end Schip
