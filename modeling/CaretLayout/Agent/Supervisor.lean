import CaretLayout.Agent.Request
import CaretLayout.Disk.Fault
import CaretLayout.Text.Utf8

/-!
# The agent process

A supervisor owns at most one agent process at a time.  It starts the process, hands requests to it
and stops it.  Each successful start begins a generation.  Three tasks serve the process of a
generation, and they can outlast it: the writer moves requests that were handed over to the input
of the process, and the watcher waits for the process to end and reports that.

What happens is a list of actions, in any order in which they are possible.  A watcher changes the
state only if the process of its generation is still the running one, so that a late report never
touches a newer process.
-/

namespace CaretLayout

/-- What is known of the agent process. -/
inductive AgentState where
  | notStarted
  | running
  /-- It has ended, with its exit code if that is known. -/
  | exited (code : Option Int)
deriving DecidableEq, Repr

namespace AgentState

/-- Whether the process runs. -/
def isRunning : AgentState → Bool
  | running => true
  | _ => false

/-- The name of a state. -/
def name : AgentState → String
  | notStarted => "not_started"
  | running => "running"
  | exited _ => "exited"

end AgentState

/-- The process of one generation, with its tasks. -/
structure AgentChild where
  /-- How the process ended, if it did. -/
  ended : Option (Option Int) := none
  /-- Whether the watcher was told to kill the process. -/
  killed : Bool := false
  /-- Whether the watcher has reported. -/
  reported : Bool := false
  /-- The requests handed over to the writer. -/
  accepted : List Request := []
  /-- How many of them the writer has taken. -/
  taken : Nat := 0
  /-- Whether the writer works. -/
  writing : Bool := true
  /-- The bytes written to the input of the process. -/
  written : List UInt8 := []
deriving DecidableEq, Repr

namespace AgentChild

/-- The request that the writer takes next. -/
def next? (c : AgentChild) : Option Request :=
  c.accepted[c.taken]?

/-- Whether the process has neither ended nor been told to. -/
def isAtLarge (c : AgentChild) : Bool :=
  c.ended.isNone && !c.killed

end AgentChild

/-- What the supervisor holds of the present generation. -/
structure AgentSlot where
  state : AgentState := .notStarted
  /-- The number of successful starts. -/
  generation : Nat := 0
  /-- Whether there is a way to hand over requests. -/
  hasInput : Bool := false
  /-- Whether there is a way to have the process killed. -/
  hasKill : Bool := false
  processId : Option Nat := none
deriving DecidableEq, Repr

/-- The supervisor and the processes of all generations. -/
structure Supervisor where
  slot : AgentSlot := {}
  /-- The processes, the one of generation `g` at place `g - 1`. -/
  children : List AgentChild := []
  /-- The states that were made known, in order. -/
  published : List AgentState := [.notStarted]
  /-- The refusals to start that were reported. -/
  failures : List DiskFault := []
  /-- The ends that were reported. -/
  exits : List (Option Int) := []
  starts : Nat := 0
  queued : Nat := 0
  dropped : Nat := 0
deriving DecidableEq, Repr

namespace Supervisor

/-- What can happen. -/
inductive Action where
  /-- A start is asked for, which the system would answer with a process or a refusal. -/
  | start (answer : Except DiskFault Nat)
  /-- A stop is asked for. -/
  | stop
  /-- A request is sent. -/
  | send (r : Request)
  /-- The process of a generation ends. -/
  | childEnds (generation : Nat) (code : Option Int)
  /-- The watcher of a generation reports the end of its process. -/
  | watcherReports (generation : Nat)
  /-- The writer of a generation writes the next request. -/
  | writerWrites (generation : Nat)
  /-- The writer of a generation fails after some bytes of the next request and stops. -/
  | writerFails (generation : Nat) (bytes : Nat)

/-- The process of a generation. -/
def child? (s : Supervisor) (generation : Nat) : Option AgentChild :=
  if generation = 0 then none else s.children[generation - 1]?

/-- Changes the process of a generation. -/
def setChild (s : Supervisor) (generation : Nat) (c : AgentChild) : Supervisor :=
  { s with children := s.children.set (generation - 1) c }

/-- Makes a state known. -/
def publish (s : Supervisor) (slot : AgentSlot) : Supervisor :=
  { s with slot := slot, published := s.published ++ [slot.state] }

/-- A start: nothing changes if the process runs or the system refuses. -/
def start (s : Supervisor) : Except DiskFault Nat → Supervisor
  | answer =>
    if s.slot.state.isRunning then s
    else
      match answer with
      | .error fault => { s with failures := s.failures ++ [fault] }
      | .ok processId =>
        let slot : AgentSlot := {
          state := .running
          generation := s.slot.generation + 1
          hasInput := true
          hasKill := true
          processId := some processId }
        publish { s with children := s.children ++ [{}], starts := s.starts + 1 } slot

/-- A stop: the process is killed, and counts as ended from now on. -/
def stop (s : Supervisor) : Supervisor :=
  if s.slot.state.isRunning then
    let killed := match s.child? s.slot.generation with
      | some c => s.setChild s.slot.generation { c with killed := true }
      | none => s
    killed.publish {
      s.slot with state := .exited none, hasInput := false, hasKill := false, processId := none }
  else s

/-- The process that a request can be handed over to. -/
def receiver? (s : Supervisor) : Option AgentChild :=
  if s.slot.state.isRunning && s.slot.hasInput then
    (s.child? s.slot.generation).filter (·.writing)
  else none

/-- Sends a request: it is handed over to the writer, or dropped. -/
def send (s : Supervisor) (r : Request) : Supervisor :=
  match s.receiver? with
  | some c =>
    { s.setChild s.slot.generation { c with accepted := c.accepted ++ [r] } with
      queued := s.queued + 1 }
  | none => { s with dropped := s.dropped + 1 }

/-- The report of a watcher: the end of its process becomes known if that is the running one. -/
def report (s : Supervisor) (generation : Nat) (c : AgentChild) (code : Option Int) : Supervisor :=
  let s := { s.setChild generation { c with reported := true } with exits := s.exits ++ [code] }
  if s.slot.generation = generation ∧ s.slot.state.isRunning then
    s.publish {
      s.slot with state := .exited code, hasInput := false, hasKill := false, processId := none }
  else s

/-- The bytes of a request on the wire. -/
def wire (r : Request) : List UInt8 :=
  Text.Utf8.encode r.line

/-- Carries out an action, `none` if it is not possible. -/
def step? (s : Supervisor) : Action → Option Supervisor
  | .start answer => some (s.start answer)
  | .stop => some s.stop
  | .send r => some (s.send r)
  | .childEnds generation code => do
    let c ← s.child? generation
    if c.ended.isSome then none else s.setChild generation { c with ended := some code }
  | .watcherReports generation => do
    let c ← s.child? generation
    let code ← c.ended
    if c.reported then none else s.report generation c code
  | .writerWrites generation => do
    let c ← s.child? generation
    let r ← c.next?
    if c.writing then
      s.setChild generation { c with taken := c.taken + 1, written := c.written ++ wire r }
    else none
  | .writerFails generation bytes => do
    let c ← s.child? generation
    let r ← c.next?
    if c.writing then
      s.setChild generation
        { c with taken := c.taken + 1, writing := false
                 written := c.written ++ (wire r).take bytes }
    else none

/-- Carries out actions in order, `none` if one of them is not possible. -/
def run? : Supervisor → List Action → Option Supervisor
  | s, [] => some s
  | s, a :: more => (s.step? a).bind (run? · more)

end Supervisor

end CaretLayout
