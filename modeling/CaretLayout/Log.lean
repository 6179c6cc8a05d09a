/-!
# Log records

What happens inside the library is told by log records: values that an operation returns beside its
result.  A record has a level, the topic it belongs to, the name of what happened, and fields.
-/

namespace CaretLayout.Log

/-- How important a record is. -/
inductive Level where
  | trace
  | debug
  | info
  | warn
  | error
deriving DecidableEq, Repr

/-- The name of a level. -/
def Level.name : Level → String
  | .trace => "trace"
  | .debug => "debug"
  | .info => "info"
  | .warn => "warn"
  | .error => "error"

/-- The value of a field. -/
inductive Field where
  | flag (b : Bool)
  | count (n : Nat)
  | text (s : String)
  /-- What a reader says of a text that it refuses. -/
  | complaint (text : List Char)
deriving DecidableEq, Repr

/-- One log record. -/
structure Record where
  level : Level
  topic : String
  event : String
  fields : List (String × Field) := []
deriving DecidableEq, Repr

end CaretLayout.Log
