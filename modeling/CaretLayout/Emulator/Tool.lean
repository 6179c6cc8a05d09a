import CaretLayout.Emulator.Escape
import CaretLayout.Emulator.Io

/-!
# Small programs

The programs that copy, print and sleep, as functions on the world of a process.
-/

namespace CaretLayout.Emulator

/-- Where the output streams of a program go. -/
structure Sinks where
  out : Sink := .stream .standard
  err : Sink := .stream .errors
deriving DecidableEq, Repr

/-- Prints the inputs that are named, `-` for the input of the process. -/
def concatenate (sinks : Sinks) : Nat → List (List UInt8) → Io → Exit × Io
  | status, [], io => (.finished status, io)
  | status, name :: more, io =>
    if name = bytesOf "-" then
      let io := io.copyInput sinks.out
      if io.inputEnds then concatenate sinks status more io else (.waiting, io)
    else if name = bytesOf "/dev/null" then concatenate sinks status more io
    else
      concatenate sinks 1 more
        (io.print sinks.err
          (bytesOf "cat: " ++ name ++ bytesOf ": No such file or directory\n"))

/-- The shortest part of the input that holds this many lines, and what follows it. -/
def leadingLines? : Nat → List InputByte → Option (List InputByte × List InputByte)
  | 0, input => some ([], input)
  | _ + 1, [] => none
  | n + 1, b :: input =>
    (leadingLines? (if b.byte = 10 then n else n + 1) input).map fun (lines, rest) =>
      (b :: lines, rest)

/-- Prints the first lines of the input and reads no further. -/
def printLeading (sinks : Sinks) (count : Nat) (io : Io) : Exit × Io :=
  match leadingLines? count io.input with
  | some (lines, rest) =>
    (.finished 0, { ({ io with input := lines } : Io).copyInput sinks.out with input := rest })
  | none =>
    let io := io.copyInput sinks.out
    (io.atInputEnd, io)

/-- The number of lines that options ask for, ten without any. -/
def lineCount? (words : List (List UInt8)) : Option Nat :=
  let digits? : Option (List UInt8) := match words with
    | [] => some (bytesOf "10")
    | [option, digits] => if option = bytesOf "-n" then some digits else none
    | [45 :: 110 :: digits] => some digits
    | [45 :: digits] => some digits
    | _ => none
  digits?.bind fun digits =>
    if digits.all isDecimal && !digits.isEmpty then some (valueOf 10 digits) else none

/-- The milliseconds of a duration: a number with an optional unit. -/
def milliseconds? (word : List UInt8) : Option Nat :=
  let whole := word.takeWhile isDecimal
  let rest := word.dropWhile isDecimal
  let (part, unit) : List UInt8 × List UInt8 := match rest with
    | 46 :: rest => (rest.takeWhile isDecimal, rest.dropWhile isDecimal)
    | _ => ([], rest)
  let factor : Option Nat := match unit.map charOf with
    | [] => some 1
    | ['s'] => some 1
    | ['m'] => some 60
    | ['h'] => some 3600
    | ['d'] => some 86400
    | _ => none
  if whole.isEmpty && part.isEmpty then none
  else factor.map fun f => valueOf 10 (whole ++ part) * f * 1000 / Nat.pow 10 part.length

/-- Sleeps for the sum of durations. -/
def sleep (sinks : Sinks) (words : List (List UInt8)) (io : Io) : Exit × Io :=
  if words.isEmpty then (.finished 1, io.print sinks.err (bytesOf "sleep: missing operand\n"))
  else
    match words.mapM milliseconds? with
    | some times => (.finished 0, io.waitUntil (io.clock + times.foldr (· + ·) 0))
    | none => (.finished 1, io.print sinks.err (bytesOf "sleep: invalid time interval\n"))

/-- Prints words through the format that the first of them is. -/
def printFormatted (name : String) (sinks : Sinks) (words : List (List UInt8)) (io : Io) :
    Exit × Io :=
  match words with
  | [] => (.finished 1, io.print sinks.err (bytesOf (name ++ ": missing operand\n")))
  | format :: words => (.finished 0, io.print sinks.out (printFormat format words))

/-- Runs a program that is known by its name. -/
def runTool (name : String) (sinks : Sinks) (words : List (List UInt8)) (io : Io) :
    Option (Exit × Io) :=
  match name with
  | "cat" =>
    let words := words.filter (· != bytesOf "-u")
    some (concatenate sinks 0 (if words.isEmpty then [bytesOf "-"] else words) io)
  | "true" => some (.finished 0, io)
  | "false" => some (.finished 1, io)
  | "sleep" => some (sleep sinks words io)
  | "printf" => some (printFormatted "printf" sinks words io)
  | "echo" => some (.finished 0, io.print sinks.out (echoPlain words))
  | "tee" => some (concatenate sinks 0 [bytesOf "-"] io)
  | "head" => some <|
    match lineCount? words with
    | some count => printLeading sinks count io
    | none => (.finished 1, io.print sinks.err (bytesOf "head: invalid number of lines\n"))
  | _ => none

/-- The names of the programs that `runTool` knows. -/
def toolNames : List String :=
  ["cat", "true", "false", "sleep", "printf", "echo", "tee", "head"]

end CaretLayout.Emulator
