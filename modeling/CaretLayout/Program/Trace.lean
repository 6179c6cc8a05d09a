import CaretLayout.Disk.Tree

/-!
# Processes as traces

A process is described by what it does over time, when its input is given: the bytes that it prints
and when, and how it ends.  Time is counted in milliseconds.  A process that waits for more input
has a trace without an end; more input can only extend the trace.  What is printed is read some time
later.
-/

namespace CaretLayout

/-- The two output streams of a process. -/
inductive OutputStream where
  | standard
  | errors
deriving DecidableEq, Repr

/-- Bytes that a process prints at a time. -/
structure Emission where
  time : Nat
  stream : OutputStream
  bytes : List UInt8
deriving DecidableEq, Repr

/-- A byte of the input of a process, with the time at which it is there. -/
structure InputByte where
  time : Nat
  byte : UInt8
deriving DecidableEq, Repr

/-- What a process does over time. -/
structure Trace where
  emissions : List Emission
  /-- When it ends, and its exit code if it has one. -/
  ending : Option (Nat × Option Int)
deriving DecidableEq, Repr

namespace Trace

/-- The bytes that are printed on a stream, each with its time. -/
def bytesOn (t : Trace) (stream : OutputStream) : List InputByte :=
  (t.emissions.filter (·.stream == stream)).flatMap fun e => e.bytes.map (⟨e.time, ·⟩)

/-- A line that is printed, with the time at which it is complete. -/
structure TimedLine where
  time : Nat
  bytes : List UInt8
deriving DecidableEq, Repr

/-- Cuts timed bytes into lines, `line` being the bytes of the present one in reverse.  What follows
the last line feed is a line only when the stream ends, at `ending`. -/
def cutLines (ending : Option Nat) : List UInt8 → List InputByte → List TimedLine
  | [], [] => []
  | line, [] =>
    match ending with
    | some time => [⟨time, line.reverse⟩]
    | none => []
  | line, b :: more =>
    if b.byte = 10 then ⟨b.time, line.reverse⟩ :: cutLines ending [] more
    else cutLines ending (b.byte :: line) more

/-- The lines that are printed on a stream. -/
def linesOn (t : Trace) (stream : OutputStream) : List TimedLine :=
  cutLines (t.ending.map (·.1)) [] (t.bytesOn stream)

/-- The lines that are printed on a stream, each with the time at which it is read, `lag n` after the
line of number `n` is complete. -/
def linesRead (t : Trace) (stream : OutputStream) (lag : Nat → Nat) : List TimedLine :=
  (t.linesOn stream).mapIdx fun n l => { l with time := l.time + lag n }

end Trace

/-- A program is known by what it does that is started at a time with arguments and gets this input,
after which more may come. -/
structure Program where
  trace : List String → Nat → List InputByte → Trace

/-- How a system starts programs: what the files, the working directory, a path and arguments lead to,
a program or a refusal. -/
abbrev Launcher := Disk → List String → String → List String → Except DiskFault Program

end CaretLayout
