import CaretLayout.Command.Layouts
import CaretLayout.Host.Stream
import CaretLayout.Switchboard.Loop

/-!
# Connecting host and agent

The command runs the main loop with the agent at work: requests go to the agent, and what is heard
of it becomes events of the loop.
-/

namespace CaretLayout

/-- The main loop with the agent. -/
structure Connection where
  loop : MainLoop
  agent : LiveAgent

namespace Connection

/-- The connection before the agent is started, with the number of messages that the output takes
if that is limited. -/
def initial (s : Settings) (agent : LiveAgent) (room : Option Nat) : Connection where
  loop := .initial s room
  agent := agent

/-- Passes the requests among effects on to the agent, and gives out the messages. -/
def passOn (c : Connection) (effects : List Effect) : Connection × List HostMessage :=
  ({ c with agent := (Effect.requests effects).foldl LiveAgent.send c.agent },
   Effect.messages effects)

/-- Starts the agent.  The host is told if that is not possible. -/
def start (c : Connection) : Connection × List HostMessage :=
  let agent := c.agent.start
  let effects := (agent.startFault?.map (MainLoop.unavailable agent.path)).toList
  let (loop, done) := c.loop.perform effects
  passOn { loop := loop, agent := agent } done

/-- Feeds an event. -/
def feed (s : Settings) (c : Connection) (e : Event) : Connection × List HostMessage :=
  let (loop, effects) := c.loop.feed s c.agent.now e
  passOn { c with loop := loop } effects

/-- Lets time pass, and dispatches the cursors that are due after it. -/
def advance (s : Settings) (c : Connection) (milliseconds : Nat) :
    Connection × List HostMessage :=
  let agent := { c.agent with now := c.agent.now + milliseconds }
  let (loop, effects) := c.loop.wake s agent.now
  passOn { loop := loop, agent := agent } effects

/-- Feeds events in order. -/
def feedAll (s : Settings) : Connection → List Event → Connection × List HostMessage
  | c, [] => (c, [])
  | c, e :: more =>
    let (c, messages) := c.feed s e
    let (c, others) := feedAll s c more
    (c, messages ++ others)

/-- The event that a notice of the agent is, if it is one. -/
def eventOf? : Notice → Option Event
  | .line text =>
    match Text.trim text with
    | [] => none
    | text =>
      match Json.read text with
      | .ok value => some (.agent value)
      | .error _ => none
  | .errorLine _ => none
  | .ended code => some (.agentExited code)

/-- Waits until `count` messages were given out beside those that are given, listening to the agent
at most `limit` times. -/
def await (s : Settings) (count : Nat) :
    Nat → Connection → List HostMessage → Connection × List HostMessage
  | 0, c, messages => (c, messages)
  | limit + 1, c, messages =>
    if count ≤ messages.length then (c, messages)
    else
      match c.agent.hear with
      | none => (c, messages)
      | some (agent, notice) =>
        let c := { c with agent := agent }
        let (c, more) := match eventOf? notice with
          | some e => c.feed s e
          | none => (c, [])
        await s count limit c (messages ++ more)

/-- Goes on to a time: what is heard of the agent by then is fed, `limit` notices at most, and the
cursors that are due are dispatched. -/
def goOnTo (s : Settings) (time : Nat) : Nat → Connection → Connection × List HostMessage
  | 0, c => c.advance s (time - c.agent.now)
  | limit + 1, c =>
    match c.agent.hearBy time with
    | none => c.advance s (time - c.agent.now)
    | some (agent, notice) =>
      let c := { c with agent := agent }
      let (c, messages) := c.feedAll s (eventOf? notice).toList
      let (c, others) := goOnTo s time limit c
      (c, messages ++ others)

/-- All that the host is told when its whole input is there at once. -/
def runAll (s : Settings) (agent : LiveAgent) (input : List UInt8) : List HostMessage :=
  let (c, first) := (initial s agent none).start
  let events := (HostStream.run none false [input] .closed).events
  first ++ (c.feedAll s events).2

end Connection

end CaretLayout
