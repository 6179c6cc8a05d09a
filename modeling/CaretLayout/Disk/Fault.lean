/-!
# Refusals of the system

Why the system refuses to open a file or to start a program.
-/

namespace CaretLayout

/-- Why a file or a program cannot be had. -/
inductive DiskFault where
  | missing
  | denied
  | notDirectory
  | isDirectory
  | nameTooLong
  /-- The contents of the file are not text. -/
  | notText
  /-- The name or an argument contains a NUL character. -/
  | holdsNul
deriving DecidableEq, Repr

/-- How a refusal is reported. -/
def DiskFault.message : DiskFault → String
  | missing => "No such file or directory (os error 2)"
  | denied => "Permission denied (os error 13)"
  | notDirectory => "Not a directory (os error 20)"
  | isDirectory => "Is a directory (os error 21)"
  | nameTooLong => "File name too long (os error 36)"
  | notText => "stream did not contain valid UTF-8"
  | holdsNul => "nul byte found in provided data"

/-- What is said of an agent that cannot be started. -/
def DiskFault.spawnMessage (path : String) (fault : DiskFault) : String :=
  "failed to spawn agent " ++ path ++ ": " ++ fault.message

end CaretLayout
