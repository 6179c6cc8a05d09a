import CaretLayout.Program.Trace

/-!
# Input and output of a process

What a process has of the world while it runs: a clock, the input that is still to be read, and what
it has printed.  What is printed goes to a sink: one of the output streams, nowhere, or a capture by
the process itself.
-/

namespace CaretLayout.Emulator

/-- Where printed bytes go. -/
inductive Sink where
  | stream (s : OutputStream)
  /-- To the process itself, at a depth of captures. -/
  | captured (level : Nat)
  | nowhere
deriving DecidableEq, Repr

/-- Bytes that were printed. -/
structure Printed where
  time : Nat
  sink : Sink
  bytes : List UInt8
deriving DecidableEq, Repr

/-- The world of a process. -/
structure Io where
  clock : Nat
  /-- The input that has not been read. -/
  input : List InputByte
  /-- Whether the input ends after these bytes; if not, more may come. -/
  inputEnds : Bool := false
  /-- What was printed, the latest first. -/
  printed : List Printed := []
deriving DecidableEq, Repr

/-- How a program stops. -/
inductive Exit where
  /-- It ends with an exit code. -/
  | finished (code : Nat)
  /-- It waits for more input. -/
  | waiting
  /-- It is killed. -/
  | killed
deriving DecidableEq, Repr

namespace Io

/-- Prints bytes. -/
def print (io : Io) (sink : Sink) (bytes : List UInt8) : Io :=
  if bytes.isEmpty then io else { io with printed := ⟨io.clock, sink, bytes⟩ :: io.printed }

/-- Waits until a time. -/
def waitUntil (io : Io) (time : Nat) : Io :=
  { io with clock := max io.clock time }

/-- Reads a byte, which may have to be waited for. -/
def next? (io : Io) : Option (UInt8 × Io) :=
  match io.input with
  | [] => none
  | b :: rest => some (b.byte, { io.waitUntil b.time with input := rest })

/-- How a program stops that reads all its input. -/
def atInputEnd (io : Io) : Exit :=
  if io.inputEnds then .finished 0 else .waiting

/-- Prints the whole input as it comes. -/
def copyInput (io : Io) (sink : Sink) : Io :=
  let copied := io.input.foldl (fun io b => (io.waitUntil b.time).print sink [b.byte]) io
  { copied with input := [] }

/-- What was printed on the output streams, in order of time. -/
def emissions (io : Io) : List Emission :=
  let all := io.printed.reverse.filterMap fun p =>
    match p.sink with
    | .stream s => some (⟨p.time, s, p.bytes⟩ : Emission)
    | _ => none
  all.mergeSort (fun a b => decide (a.time ≤ b.time))

end Io

end CaretLayout.Emulator
