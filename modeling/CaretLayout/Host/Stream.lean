import CaretLayout.Event
import CaretLayout.Log
import CaretLayout.Text.Line
import CaretLayout.Text.Utf8

/-!
# The input stream of the host

The reader turns the bytes of the host into events.  It takes the stream in chunks, cuts it at line
feeds and decodes line by line.  A line that cannot be decoded is counted and logged by its shape
only; the log never holds text of a line.  The reader stops at a shutdown message, at the end of the
stream, at an error of the stream, when it is told to, or when nobody receives its events.

Receivers are modelled by the number of events that are still accepted, `none` for no limit.
-/

namespace CaretLayout.HostStream

/-- Why the reader stopped. -/
inductive StopReason where
  | streamEnded
  | streamError
  | shutdownSignal
  | shutdownRequested
  | channelClosed
deriving DecidableEq, Repr

/-- The name of a reason. -/
def StopReason.name : StopReason → String
  | .streamEnded => "stream_ended"
  | .streamError => "stream_error"
  | .shutdownSignal => "shutdown_signal"
  | .shutdownRequested => "shutdown_requested"
  | .channelClosed => "channel_closed"

/-- How the stream ends after its bytes. -/
inductive Ending where
  | closed
  /-- With an error of this kind. -/
  | failed (kind : String)
deriving DecidableEq, Repr

/-- What the reader has counted. -/
structure Counts where
  starts : Nat := 0
  lines : Nat := 0
  malformed : Nat := 0
  cursors : Nat := 0
  sendFailures : Nat := 0
  stopSignal : Nat := 0
  stopChannel : Nat := 0
  stopEnd : Nat := 0
  stopError : Nat := 0
deriving DecidableEq, Repr

/-- The reader between two lines. -/
structure Progress where
  /-- How many more events are accepted. -/
  room : Option Nat
  /-- The events that were accepted. -/
  events : List Event := []
  counts : Counts := {}
  log : List Log.Record := []
  /-- Why the reader stopped, if it did. -/
  stopped : Option StopReason := none
deriving DecidableEq, Repr

namespace Progress

/-- Adds a log record. -/
def note (p : Progress) (level : Log.Level) (event : String)
    (fields : List (String × Log.Field)) : Progress :=
  { p with log := p.log ++ [{ level := level, topic := "input.host", event := event,
                              fields := fields }] }

/-- Hands over an event, if it is still accepted. -/
def push (p : Progress) (event : Event) : Progress :=
  match p.room with
  | none => { p with events := p.events ++ [event] }
  | some 0 => p
  | some (n + 1) => { p with room := some n, events := p.events ++ [event] }

/-- Hands over an event; when it is not accepted, the reader stops for want of a receiver, unless it
stops for another reason already. -/
def send (p : Progress) (event : Event) : Progress :=
  if p.room = some 0 then
    { p with
      counts := { p.counts with sendFailures := p.counts.sendFailures + 1 }
      stopped := some (p.stopped.getD .channelClosed) }
  else p.push event

/-- Counts a line that could not be decoded. -/
def countMalformed (p : Progress) : Progress :=
  { p with counts := { p.counts with malformed := p.counts.malformed + 1 } }

end Progress

/-- The category of a fault, as the log names it. -/
def category : Json.Fault → String
  | .truncated => "Eof"
  | .malformed => "Syntax"
  | .data _ => "Data"

/-- What the reader does with the event of a line. -/
def handleEvent (p : Progress) : HostEvent → Progress
  | .shutdown =>
    { p.note .debug "shutdown_requested" [] with stopped := some .shutdownRequested }.send .shutdown
  | .cursor c =>
    ({ p with counts := { p.counts with cursors := p.counts.cursors + 1 } }.note .trace "cursor"
      [("session", .text c.session), ("line", .count c.line), ("column", .count c.column)]).send
        (.host (.cursor c))
  | event => p.send (.host event)

/-- One line of the stream. -/
def handleSegment (p : Progress) (s : Text.Segment UInt8) : Progress :=
  let p := { p with counts := { p.counts with lines := p.counts.lines + 1 } }
  match Text.Utf8.decode s.body with
  | .error valid =>
    p.countMalformed.note .warn "undecodable_host_line"
      [("line_len", .count s.size), ("valid_up_to", .count valid)]
  | .ok line =>
    match HostEvent.parseLine line with
    | .error fault =>
      p.countMalformed.note .warn "malformed_host_line"
        [("line_len", .count s.size), ("category", .text (category fault))]
    | .ok none => p
    | .ok (some event) => handleEvent p event

/-- Lines one after another, until the reader stops. -/
def handleSegments : Progress → List (Text.Segment UInt8) → Progress
  | p, [] => p
  | p, s :: more => if p.stopped.isSome then p else handleSegments (handleSegment p s) more

/-- The last line, which lacks its line feed, if the stream ended without an error. -/
def handleRest (p : Progress) (buffer : Text.Buffer) : Ending → Progress
  | .closed => handleSegments p buffer.rest.toList
  | .failed _ => p

/-- Counts a reason for stopping. -/
def countStop (c : Counts) : StopReason → Counts
  | .shutdownSignal => { c with stopSignal := c.stopSignal + 1 }
  | .channelClosed => { c with stopChannel := c.stopChannel + 1 }
  | .streamEnded => { c with stopEnd := c.stopEnd + 1 }
  | .shutdownRequested => { c with stopEnd := c.stopEnd + 1 }
  | .streamError => { c with stopError := c.stopError + 1 }

/-- What is logged of an error at the end of the stream. -/
def Ending.fields : Ending → List (String × Log.Field)
  | .closed => []
  | .failed kind => [("error_kind", .text kind)]

/-- Stops the reader for the reason that holds, or because of how the stream ended. -/
def finish (p : Progress) (ending : Ending) : Progress :=
  let reason := p.stopped.getD (match ending with
    | .closed => .streamEnded
    | .failed _ => .streamError)
  let p := { p with counts := countStop p.counts reason, stopped := some reason }
  let p := if reason = .streamError then
      p.note .warn "host_input_stream_error" ending.fields
    else p
  let p := if reason = .streamEnded ∨ reason = .streamError then p.push .shutdown else p
  p.note .info "host_input_task_stopped" [("reason", .text reason.name)]

/-- The reader at its start. -/
def start (room : Option Nat) (signalled : Bool) : Progress :=
  let p : Progress := { room := room, counts := { starts := 1 } }
  { p.note .info "host_input_task_started" [] with
    stopped := if signalled then some .shutdownSignal else none }

/-- Runs the reader over a stream that arrives in chunks. -/
def run (room : Option Nat) (signalled : Bool) (chunks : List (List UInt8)) (ending : Ending) :
    Progress :=
  let (buffer, segments) := ({} : Text.Buffer).feedAll chunks
  finish (handleRest (handleSegments (start room signalled) segments) buffer ending) ending

end CaretLayout.HostStream
