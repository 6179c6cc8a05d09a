/-!
# Usage errors

What can be wrong with the arguments of the command line, each with the first line of its report.
-/

namespace CaretLayout

/-- Why a text is not a number. -/
inductive NumberFault where
  | empty
  | invalidDigit
  | tooLarge
deriving DecidableEq, Repr

/-- How a fault in a number is reported. -/
def NumberFault.message : NumberFault → String
  | empty => "cannot parse integer from empty string"
  | invalidDigit => "invalid digit found in string"
  | tooLarge => "number too large to fit in target type"

/-- What is wrong with the arguments. -/
inductive UsageError where
  /-- An argument that is not known here. -/
  | unexpected (argument : String)
  /-- The word stands where a subcommand is expected. -/
  | unrecognized (word : String)
  /-- Arguments that are needed are missing. -/
  | missing
  /-- An argument lacks its value. -/
  | valueRequired (name : String)
  /-- An argument was given before. -/
  | repeated (name : String)
  /-- A value is not a number. -/
  | invalidNumber (value name : String) (fault : NumberFault)
  /-- A value was given to a flag. -/
  | unexpectedValue (value flag : String)
deriving DecidableEq, Repr

/-- The first line of the report of a usage error. -/
def UsageError.message : UsageError → String
  | unexpected argument => "error: unexpected argument '" ++ argument ++ "' found"
  | unrecognized word => "error: unrecognized subcommand '" ++ word ++ "'"
  | missing => "error: the following required arguments were not provided:"
  | valueRequired name => "error: a value is required for '" ++ name ++ "' but none was supplied"
  | repeated name => "error: the argument '" ++ name ++ "' cannot be used multiple times"
  | invalidNumber value name fault =>
    "error: invalid value '" ++ value ++ "' for '" ++ name ++ "': " ++ fault.message
  | unexpectedValue value flag =>
    "error: unexpected value '" ++ value ++ "' for '" ++ flag ++
      "' found; no more were expected"

/-- Reads digits after the number `n`; a digit that does not fit ends the reading. -/
def readWordDigits : Nat → List Char → Except NumberFault Nat
  | n, [] => .ok n
  | n, c :: rest =>
    if c.isDigit then
      let next := n * 10 + (c.toNat - '0'.toNat)
      if next < Nat.pow 2 64 then readWordDigits next rest else .error .tooLarge
    else .error .invalidDigit

/-- Reads an unsigned 64 bit number, which may have a plus sign. -/
def readWord (text : List Char) : Except NumberFault Nat :=
  match text with
  | [] => .error .empty
  | ['+'] => .error .invalidDigit
  | '+' :: digits => readWordDigits 0 digits
  | digits => readWordDigits 0 digits

end CaretLayout
