import CaretLayout.Disk.Fault
import CaretLayout.Switchboard.Basic

/-!
# The main loop

The main loop feeds events to the switchboard and carries out the effects.  It ends when the host
asks for it, when no more events can come, or when the output takes no more messages.  After that it
takes no events.
-/

namespace CaretLayout

/-- Why the main loop ended. -/
inductive LoopEnd where
  | hostRequested
  | channelClosed
  | outputClosed
deriving DecidableEq, Repr

/-- The name of an end. -/
def LoopEnd.name : LoopEnd → String
  | hostRequested => "host_requested"
  | channelClosed => "channel_closed"
  | outputClosed => "output_closed"

/-- Whether an event ends the main loop. -/
def Event.endsLoop : Event → Bool
  | .host .shutdown => true
  | .shutdown => true
  | _ => false

/-- The main loop between two events. -/
structure MainLoop where
  board : Switchboard
  /-- How many messages the output still takes, if not any number. -/
  room : Option Nat := none
  /-- Why the loop has ended, if it has. -/
  ended : Option LoopEnd := none

namespace MainLoop

/-- The main loop before any event. -/
def initial (s : Settings) (room : Option Nat) : MainLoop where
  board := .initial s
  room := room

/-- Whether the loop takes events. -/
def isOpen (l : MainLoop) : Bool :=
  l.ended.isNone

/-- Carries out effects in order, up to the first message that the output refuses.  That ends the
loop. -/
def perform : MainLoop → List Effect → MainLoop × List Effect
  | l, [] => (l, [])
  | l, .request r :: more =>
    let (l, done) := l.perform more
    (l, .request r :: done)
  | l, .message m :: more =>
    match l.room with
    | some 0 => ({ l with ended := some .outputClosed }, [])
    | some (room + 1) =>
      let (l, done) := perform { l with room := some room } more
      (l, .message m :: done)
    | none =>
      let (l, done) := l.perform more
      (l, .message m :: done)

/-- Dispatches the cursors that are due. -/
def wake (s : Settings) (now : Nat) (l : MainLoop) : MainLoop × List Effect :=
  if l.isOpen then
    let (board, effects) := l.board.flush s now
    perform { l with board := board } effects
  else (l, [])

/-- Takes in one event. -/
def take (s : Settings) (now : Nat) (l : MainLoop) (e : Event) : MainLoop × List Effect :=
  if !l.isOpen then (l, [])
  else if e.endsLoop then ({ l with ended := some .hostRequested }, [])
  else
    let (board, effects) := l.board.handle s now e
    perform { l with board := board } effects

/-- Feeds one event, after the cursors that are due. -/
def feed (s : Settings) (now : Nat) (l : MainLoop) (e : Event) : MainLoop × List Effect :=
  let (l, first) := l.wake s now
  let (l, second) := l.take s now e
  (l, first ++ second)

/-- Ends the loop because no more events can come, unless it has ended. -/
def close (l : MainLoop) : MainLoop :=
  { l with ended := some (l.ended.getD .channelClosed) }

/-- The end of the loop once no more events can come. -/
def reason (l : MainLoop) : LoopEnd :=
  l.ended.getD .channelClosed

/-- What the host is told when the agent cannot be started. -/
def unavailable (path : String) (fault : DiskFault) : Effect :=
  .message (.error ("input-method agent unavailable: " ++ fault.spawnMessage path))

end MainLoop

end CaretLayout
