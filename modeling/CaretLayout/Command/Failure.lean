import CaretLayout.Disk.Fault

/-!
# Failures of commands

Why a command fails.  A failure is reported with its causes, the outermost message first.
-/

namespace CaretLayout

/-- Why a command fails. -/
inductive Failure where
  /-- A file cannot be read. -/
  | reading (path : String) (fault : DiskFault)
  /-- The configuration file cannot be read. -/
  | readingConfig (path : String) (fault : DiskFault)
  /-- The agent cannot be started. -/
  | startingAgent (path : String) (fault : DiskFault)
  /-- The agent answered with an error. -/
  | agentError (message : String)
  /-- The agent ended before it answered, with its exit code if it has one. -/
  | agentExited (code : Option Int)
  /-- The agent did not answer in time. -/
  | agentSilent (milliseconds : Nat)
deriving DecidableEq, Repr

namespace Failure

/-- The messages of a failure, the outermost first, each followed by its cause. -/
def chain : Failure → List String
  | reading path fault => ["reading " ++ path, fault.message]
  | readingConfig path fault => ["reading config " ++ path, fault.message]
  | startingAgent path fault => ["starting agent " ++ path, fault.spawnMessage path, fault.message]
  | agentError message => ["agent error: " ++ message]
  | agentExited (some code) =>
    ["agent exited with code " ++ toString code ++ " before listing layouts"]
  | agentExited none => ["agent exited before listing layouts"]
  | agentSilent milliseconds =>
    ["agent did not list layouts within " ++ toString milliseconds ++ " ms"]

/-- The failure in one line. -/
def summary (f : Failure) : String :=
  ": ".intercalate f.chain

/-- A cause, its first line after `first` and each further line after `further`. -/
def indented (first further : String) (cause : String) : List String :=
  match (cause.toList.splitOn '\n').map String.ofList with
  | [] => []
  | line :: lines => (first ++ line) :: lines.map (further ++ ·)

/-- The causes in order.  They are numbered if there are several. -/
def causeLines : List String → List String
  | [cause] => indented "    " "    " cause
  | causes =>
    (causes.mapIdx fun i cause => indented ("    " ++ toString i ++ ": ") "       " cause).flatten

/-- The lines that report the failure. -/
def report (f : Failure) : List String :=
  match f.chain with
  | [] => []
  | [message] => ["Error: " ++ message]
  | message :: causes => ("Error: " ++ message) :: "" :: "Caused by:" :: causeLines causes

end Failure

end CaretLayout
