/-!
# The log

What an operation has to tell beside its result goes to the log, one line
at a time.
-/

namespace Subscription

/-- How much a line of the log matters. -/
inductive LogLevel where
  | error
  | warn
  | debug
  deriving DecidableEq, Repr, Inhabited

/-- The name of a level. -/
def LogLevel.name : LogLevel → String
  | error => "error"
  | warn => "warn"
  | debug => "debug"

/-- One line of the log. -/
structure LogLine where
  level : LogLevel
  text : String
  deriving DecidableEq, Repr, Inhabited

end Subscription
