import CaretLayout.Dispatch.Debouncer
import CaretLayout.Event
import CaretLayout.Host.Message
import CaretLayout.Settings

/-!
# The switchboard

The switchboard connects the host and the agent.  It keeps a dispatcher and a debouncer for each
session that has reported a cursor, and one flag for all of them that says whether switching is on.
A cursor waits in the debouncer of its session until the session has been quiet; without a time of
rest it is dispatched at once.

Every operation gets the time from outside and returns the new switchboard with its effects: the
requests to the agent and the messages to the host, in the order in which they happen.
-/

namespace CaretLayout

/-- What an operation asks of the world. -/
inductive Effect where
  /-- A request to the agent. -/
  | request (r : Request)
  /-- A message to the host. -/
  | message (m : HostMessage)
deriving DecidableEq, Repr

namespace Effect

/-- The request of an effect. -/
def request? : Effect → Option Request
  | request r => some r
  | message _ => none

/-- The message of an effect. -/
def message? : Effect → Option HostMessage
  | request _ => none
  | message m => some m

/-- The requests among effects, in order. -/
def requests (l : List Effect) : List Request :=
  l.filterMap request?

/-- The messages among effects, in order. -/
def messages (l : List Effect) : List HostMessage :=
  l.filterMap message?

end Effect

/-- What is kept of a session of the host. -/
structure Session where
  dispatcher : Dispatcher
  debouncer : Debouncer CursorEvent

namespace Session

/-- A new session. -/
def new (s : Settings) (enabled : Bool) : Session where
  dispatcher := s.newDispatcher enabled
  debouncer := { quiet := s.quiet }

/-- Turns switching on or off in a session.  What waits when it is turned off is given up. -/
def setEnabled (enabled : Bool) (session : Session) : Session where
  dispatcher := (session.dispatcher.setEnabled enabled).1
  debouncer := if enabled then session.debouncer else session.debouncer.cancel.1

/-- The session without its cursor if that is due. -/
def withoutDue (now : Nat) (session : Session) : Session :=
  { session with debouncer := (session.debouncer.poll now).1 }

end Session

/-- The sessions, and whether switching is on. -/
structure Switchboard where
  sessions : Keyed Session := {}
  enabled : Bool

/-- What a dispatcher sees of a cursor event. -/
def CursorEvent.view (c : CursorEvent) (lookback : Nat) : CursorView where
  language := c.language
  contentKind := c.contentKind
  context := .ofLines (c.lines.map String.toList) c.relativeLine c.column lookback

namespace Switchboard

/-- The switchboard before any event. -/
def initial (s : Settings) : Switchboard where
  enabled := s.enabled

/-- The session of a name, a new one if there is none yet. -/
def session (b : Switchboard) (s : Settings) (name : String) : Session :=
  (b.sessions.find? name).getD (.new s b.enabled)

/-- What a switch in a session asks for. -/
def effectsOf (session : String) (o : Outcome) : List Effect :=
  o.sent.map .request ++
    (o.switch.map fun w => Effect.message (.mode session w.scope.name w.layout)).toList

/-- Hands a cursor to the dispatcher of its session. -/
def dispatch (s : Settings) (b : Switchboard) (c : CursorEvent) : Switchboard × List Effect :=
  let session := b.session s c.session
  let (dispatcher, outcome) := session.dispatcher.cursorMoved s.table (c.view s.lookback)
  let moved := { session with dispatcher := dispatcher }
  ({ b with sessions := b.sessions.insert c.session moved }, effectsOf c.session outcome)

/-- Lets a cursor wait in its session. -/
def schedule (s : Settings) (now : Nat) (b : Switchboard) (c : CursorEvent) : Switchboard :=
  let session := b.session s c.session
  let waiting := { session with debouncer := session.debouncer.schedule now c }
  { b with sessions := b.sessions.insert c.session waiting }

/-- Takes in a cursor, unless switching is off. -/
def cursor (s : Settings) (now : Nat) (b : Switchboard) (c : CursorEvent) :
    Switchboard × List Effect :=
  if !b.enabled then (b, [])
  else if s.quiet = 0 then b.dispatch s c
  else (b.schedule s now c, [])

/-- Turns switching off if it is on, and on if it is off, in every session. -/
def toggle (b : Switchboard) : Switchboard × List Effect :=
  let enabled := !b.enabled
  ({ sessions := b.sessions.mapValues (Session.setEnabled enabled), enabled := enabled },
   [.message (.enabled enabled)])

/-- Takes in an event that does not end the work. -/
def handle (s : Settings) (now : Nat) (b : Switchboard) : Event → Switchboard × List Effect
  | .host (.cursor c) => b.cursor s now c
  | .host .toggle => b.toggle
  | .host .listLayouts => (b, [.request .list])
  | .host (.close name) => ({ b with sessions := b.sessions.erase name }, [])
  | .host .shutdown => (b, [])
  | .agent value => (b, [.message (.agent value)])
  | .agentExited code => (b, [.message (.agentExited code)])
  | .shutdown => (b, [])

/-- The cursors that are due, in the given order of the sessions. -/
def due (now : Nat) (b : Switchboard) (order : List String) : List CursorEvent :=
  order.filterMap fun name =>
    (b.sessions.find? name).bind fun session => (session.debouncer.poll now).2

/-- The sessions without the cursors that are due. -/
def withoutDue (now : Nat) (b : Switchboard) : Switchboard :=
  { b with sessions := b.sessions.mapValues (Session.withoutDue now) }

/-- Dispatches cursors in order. -/
def dispatchAll (s : Settings) : Switchboard → List CursorEvent → Switchboard × List Effect
  | b, [] => (b, [])
  | b, c :: more =>
    let (b, effects) := b.dispatch s c
    let (b, others) := dispatchAll s b more
    (b, effects ++ others)

/-- Dispatches the cursors that are due, visiting the sessions in the given order. -/
def flushIn (s : Settings) (now : Nat) (order : List String) (b : Switchboard) :
    Switchboard × List Effect :=
  dispatchAll s (b.withoutDue now) (b.due now order)

/-- Dispatches the cursors that are due. -/
def flush (s : Settings) (now : Nat) (b : Switchboard) : Switchboard × List Effect :=
  b.flushIn s now b.sessions.keys

/-- The earlier of two times, where no time is later than any. -/
def earlier : Option Nat → Option Nat → Option Nat
  | some a, some b => some (min a b)
  | some a, none => some a
  | none, b => b

/-- When the next cursor is due. -/
def nextDeadline (b : Switchboard) : Option Nat :=
  (b.sessions.values.map fun session => session.debouncer.deadline).foldr earlier none

end Switchboard

end CaretLayout
