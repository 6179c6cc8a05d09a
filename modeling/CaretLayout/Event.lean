import CaretLayout.Host.Event

/-!
# What the main loop hears of

The events of all sources: the host, the agent, and the end of the host's input.
-/

namespace CaretLayout

/-- What the main loop hears of. -/
inductive Event where
  /-- The host reports something. -/
  | host (event : HostEvent)
  /-- The agent printed a value. -/
  | agent (value : Json)
  /-- The agent ended, with its exit code if it has one. -/
  | agentExited (code : Option Int)
  /-- There is nothing more to come from the host. -/
  | shutdown
deriving DecidableEq, Repr

end CaretLayout
