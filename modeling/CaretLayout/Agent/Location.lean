/-!
# Where the agent is

The agent program is found relative to a development checkout, relative to an installed bundle, or
at a path that is given.  Paths are joined as text: nothing is normalised.
-/

namespace CaretLayout

/-- Where to look for the agent program. -/
inductive AgentLocation where
  /-- In the build output below a development checkout. -/
  | development (root : String)
  /-- Among the programs of an installed bundle. -/
  | production (bundle : String)
  /-- At this path. -/
  | explicit (path : String)
deriving DecidableEq, Repr

namespace AgentLocation

/-- A path below a directory.  The empty directory adds nothing, and a directory that ends in a
slash is not given another. -/
def below (directory path : String) : String :=
  if directory.isEmpty then path
  else if directory.toList.getLast? = some '/' then directory ++ path
  else directory ++ "/" ++ path

/-- The name of the way in which the program is looked for. -/
def mode : AgentLocation → String
  | development _ => "development"
  | production _ => "production"
  | explicit _ => "explicit"

/-- The path of the program. -/
def path : AgentLocation → String
  | development root => below root "native-sidecar/target/debug/als-sidecar"
  | production bundle => below bundle "bin/als-sidecar"
  | explicit path => path

end AgentLocation

end CaretLayout
