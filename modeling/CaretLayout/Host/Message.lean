import CaretLayout.Json.Printer

/-!
# Messages to the host

What the host is told, each message a JSON object on a line.  The member `type` comes first, the
others follow in the order of declaration.
-/

namespace CaretLayout

/-- A message to the host. -/
inductive HostMessage where
  /-- A session changed its scope, which is given by its name, and the layout was asked for. -/
  | mode (session : String) (scope : String) (layout : String)
  /-- The agent printed a value. -/
  | agent (event : Json)
  /-- The agent ended, with its exit code if it has one. -/
  | agentExited (code : Option Int)
  /-- Switching was turned on or off. -/
  | enabled (on : Bool)
  /-- Something went wrong. -/
  | error (message : String)
deriving DecidableEq, Repr

namespace HostMessage

/-- The message as a JSON object. -/
def toJson : HostMessage → Json
  | .mode session scope layout =>
    .object [("type", .string "mode"), ("session", .string session),
             ("mode", .string scope), ("layout", .string layout)]
  | .agent event => .object [("type", .string "agent"), ("event", event)]
  | .agentExited code =>
    .object [("type", .string "agent_exited"), ("code", (code.map Json.int).getD .null)]
  | .enabled on => .object [("type", .string "enabled"), ("enabled", .bool on)]
  | .error message => .object [("type", .string "error"), ("message", .string message)]

/-- The message on a line. -/
def line (m : HostMessage) : List Char :=
  m.toJson.print ++ ['\n']

end HostMessage

end CaretLayout
