import CaretLayout.Agent.Output
import CaretLayout.Agent.Supervisor
import CaretLayout.Program.Trace

/-!
# An agent at work

A supervisor with the processes that it starts.  Processes are traces over virtual time, so what is
heard next is determined: the next line that is read, or the end of a process that is noticed.  What a
process prints is read some time after it is printed, and its end is noticed some time after it has
ended, so lines may be read after the end is known.  Nothing happens between two operations of the
supervisor; time goes on only when somebody waits.
-/

namespace CaretLayout

/-- What can be heard of an agent. -/
inductive Notice where
  /-- A line of its output. -/
  | line (text : List Char)
  /-- A line of its error output. -/
  | errorLine (text : List Char)
  /-- Its end, with the exit code if it has one. -/
  | ended (code : Option Int)
deriving DecidableEq, Repr

/-- How many milliseconds later than it happens something is heard of a process. -/
structure Lags where
  /-- Until a line of its output is read, by the number of the line. -/
  line : Nat → Nat := fun _ => 0
  /-- Until a line of its error output is read. -/
  errorLine : Nat → Nat := fun _ => 0
  /-- Until its end is noticed. -/
  ending : Nat := 0

/-- A supervisor with its processes. -/
structure LiveAgent where
  /-- The program that is started, or why it cannot be. -/
  program : Except DiskFault Program
  path : String
  args : List String
  lags : Lags := {}
  supervisor : Supervisor := {}
  /-- The present time in milliseconds. -/
  now : Nat := 0
  /-- When the present process was started. -/
  startedAt : Nat := 0
  /-- What the present process was given to read. -/
  input : List InputByte := []
  /-- How many lines of the present process were heard. -/
  heardLines : Nat := 0
  /-- How many lines of its error output were heard. -/
  heardErrors : Nat := 0
  /-- Whether the end of the present process was heard. -/
  heardEnd : Bool := false

namespace LiveAgent

/-- The generation of the present process. -/
def generation (a : LiveAgent) : Nat :=
  a.supervisor.slot.generation

/-- Carries out an action that is possible. -/
def act (a : LiveAgent) (action : Supervisor.Action) : LiveAgent :=
  { a with supervisor := (a.supervisor.step? action).getD a.supervisor }

/-- Starts the program, unless it runs. -/
def start (a : LiveAgent) : LiveAgent :=
  let answer := a.program.map fun _ => a.generation + 1
  let after := a.act (.start answer)
  if after.generation = a.generation then after
  else
    { after with
      startedAt := a.now, input := [], heardLines := 0, heardErrors := 0, heardEnd := false }

/-- Why the program does not run after it was started, if it does not. -/
def startFault? (a : LiveAgent) : Option DiskFault :=
  if a.supervisor.slot.state.isRunning then none
  else
    match a.program with
    | .ok _ => none
    | .error fault => some fault

/-- Sends a request. -/
def send (a : LiveAgent) (r : Request) : LiveAgent :=
  a.act (.send r)

/-- Stops the process. -/
def stop (a : LiveAgent) : LiveAgent :=
  a.act .stop

/-- Lets the writer of the present process write the requests that were handed over. -/
def write (a : LiveAgent) : LiveAgent :=
  match a.supervisor.child? a.generation with
  | none => a
  | some c =>
    let rest := c.accepted.drop c.taken
    let bytes := rest.flatMap Supervisor.wire
    let after := rest.foldl (fun a _ => a.act (.writerWrites a.generation)) a
    { after with input := a.input ++ bytes.map fun b => ⟨a.now, b⟩ }

/-- The end of the process of a generation. -/
def finish (a : LiveAgent) (generation : Nat) (code : Option Int) : LiveAgent :=
  (a.act (.childEnds generation code)).act (.watcherReports generation)

/-- The first generation whose process was killed without a report so far. -/
def killed? (a : LiveAgent) : Option Nat :=
  (a.supervisor.children.findIdx? fun c => c.killed && !c.reported).map (· + 1)

/-- What the present process does, if the program can be started. -/
def trace? (a : LiveAgent) : Option Trace :=
  match a.program with
  | .ok p => some (p.trace a.args a.startedAt a.input)
  | .error _ => none

/-- The lines that are read of the output of a process. -/
def outputLines (a : LiveAgent) (t : Trace) : List Trace.TimedLine :=
  t.linesRead .standard a.lags.line

/-- The lines that are read of the error output of a process and are reported. -/
def errorLines (a : LiveAgent) (t : Trace) : List Trace.TimedLine :=
  (t.linesRead .errors a.lags.errorLine).filter fun l =>
    !(AgentOutput.lineOf ⟨l.bytes, true⟩).isEmpty

/-- The earlier of two notices, the first one if they come at the same time. -/
def sooner : Option (Nat × Notice) → Option (Nat × Notice) → Option (Nat × Notice)
  | some a, some b => if a.1 ≤ b.1 then some a else some b
  | some a, none => some a
  | none, b => b

/-- What is heard next of a process, and when: a line of its output or of its error output, or its end
unless that was heard. -/
def nextOf? (a : LiveAgent) (t : Trace) : Option (Nat × Notice) :=
  let line := ((a.outputLines t)[a.heardLines]?).map fun l =>
    (l.time, Notice.line (AgentOutput.lineOf ⟨l.bytes, true⟩))
  let error := ((a.errorLines t)[a.heardErrors]?).map fun l =>
    (l.time, Notice.errorLine (AgentOutput.lineOf ⟨l.bytes, true⟩))
  let ending := if a.heardEnd then none else t.ending.map fun e =>
    (e.1 + a.lags.ending, Notice.ended e.2)
  sooner (sooner line error) ending

/-- What is heard next of the present process, which runs or has ended by itself. -/
def nextOfProcess? (a : LiveAgent) : Option (Nat × Notice) :=
  if a.supervisor.slot.state.isRunning || a.heardEnd then a.trace?.bind a.nextOf? else none

/-- How many notices there can be at most until every process has ended: the lines of the present one,
and an end for each. -/
def noticesLeft (a : LiveAgent) : Nat :=
  let a := a.write
  let lines := match a.trace? with
    | some t => (a.outputLines t).length + (a.errorLines t).length
    | none => 0
  lines + a.supervisor.children.length

/-- Hears a notice of the present process at a time. -/
def after (a : LiveAgent) (time : Nat) (notice : Notice) : LiveAgent :=
  let a := { a with now := max a.now time }
  match notice with
  | .line _ => { a with heardLines := a.heardLines + 1 }
  | .errorLine _ => { a with heardErrors := a.heardErrors + 1 }
  | .ended code => { a with heardEnd := true }.finish a.generation code

/-- Waits until something is heard. -/
def hear (a : LiveAgent) : Option (LiveAgent × Notice) :=
  match a.killed? with
  | some generation => some (a.finish generation none, .ended none)
  | none =>
    let a := a.write
    a.nextOfProcess?.map fun (time, notice) => (a.after time notice, notice)

/-- What is heard next, if it is heard by a given time. -/
def hearBy (time : Nat) (a : LiveAgent) : Option (LiveAgent × Notice) :=
  a.hear.filter fun r => decide (r.1.now ≤ time)

/-- Waits until enough is heard, `limit` notices at most, and hands each notice on. -/
def hearUntil {σ : Type} (enough : LiveAgent → σ → Bool) (handle : σ → Notice → σ) :
    Nat → LiveAgent → σ → LiveAgent × σ
  | 0, a, s => (a, s)
  | limit + 1, a, s =>
    if enough a s then (a, s)
    else
      match a.hear with
      | none => (a, s)
      | some (a, notice) => hearUntil enough handle limit a (handle s notice)

/-- The most notices that are waited for at once. -/
def patience : Nat := 100000

end LiveAgent

end CaretLayout
