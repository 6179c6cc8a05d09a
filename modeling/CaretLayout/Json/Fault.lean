import CaretLayout.Decimal.Shortest
import CaretLayout.Json.Printer
import CaretLayout.Text.Visible

/-!
# Faults in JSON texts

Why a text cannot be read.  It is *truncated* when it ends too early and *malformed* when a character
cannot stand where it stands; a well-formed text may still hold *data* that does not fit what is
asked for.  Only a data fault has a message.
-/

namespace CaretLayout.Json

/-- What was found where something else was expected. -/
inductive Found where
  | null
  | bool (b : Bool)
  | int (i : Int)
  | float (x : Binary64)
  | string (s : String)
  | sequence
  | map
deriving DecidableEq, Repr

/-- How a value is named in a message. -/
def Found.describe : Found → String
  | .null => "null"
  | .bool b => if b then "boolean `true`" else "boolean `false`"
  | .int i => "integer `" ++ String.ofList (printInt i) ++ "`"
  | .float x => "floating point `" ++ String.ofList (printFloat x) ++ "`"
  | .string s => "string " ++ Text.Visible.quoted s
  | .sequence => "sequence"
  | .map => "map"

/-- A value that does not fit what is asked for. -/
inductive DataFault where
  | missingField (name : String)
  | duplicateField (name : String)
  | unknownVariant (name : String) (known : List String)
  | wrongType (found : Found) (expected : String)
  | wrongValue (found : Found) (expected : String)
  | wrongLength (length : Nat) (expected : String)
deriving DecidableEq, Repr

/-- The message of a data fault. -/
def DataFault.message : DataFault → String
  | .missingField name => "missing field `" ++ name ++ "`"
  | .duplicateField name => "duplicate field `" ++ name ++ "`"
  | .unknownVariant name known =>
    "unknown variant `" ++ name ++ "`, expected one of "
      ++ ", ".intercalate (known.map fun k => "`" ++ k ++ "`")
  | .wrongType found expected => "invalid type: " ++ found.describe ++ ", expected " ++ expected
  | .wrongValue found expected => "invalid value: " ++ found.describe ++ ", expected " ++ expected
  | .wrongLength length expected =>
    "invalid length " ++ String.ofList (printInt length) ++ ", expected " ++ expected

/-- Why a text cannot be read. -/
inductive Fault where
  | truncated
  | malformed
  | data (fault : DataFault)
deriving DecidableEq, Repr

end CaretLayout.Json
