/-!
# The log
-/

namespace DurableFlow

inductive LogLevel where
  | debug | info | warn | error
  deriving DecidableEq

def LogLevel.name : LogLevel → String
  | debug => "DEBUG"
  | info => "INFO"
  | warn => "WARN"
  | error => "ERROR"

/-- A message that never varies, with the texts of what it is about. -/
structure LogEvent where
  level : LogLevel
  message : String
  fields : List (String × String)
  deriving DecidableEq

end DurableFlow
