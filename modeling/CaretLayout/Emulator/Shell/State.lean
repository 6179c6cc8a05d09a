import CaretLayout.Keyed
import CaretLayout.Emulator.Shell.Arithmetic
import CaretLayout.Emulator.Shell.Pattern
import CaretLayout.Emulator.Shell.Reader
import CaretLayout.Emulator.Tool

/-!
# The state of a running script

What a script has while it runs: variables, parameters, the status of the last command, and where
its output goes.  A script stops before its end when it waits for input, when it exits or is killed,
and when it leaves a loop.
-/

namespace CaretLayout.Emulator.Shell

/-- A running script. -/
structure State where
  io : Io
  bindings : Keyed (List UInt8) := {}
  /-- The name of the script and its parameters. -/
  parameters : List (List UInt8) := [bytesOf "sh"]
  /-- The status of the last command. -/
  status : Nat := 0
  sinks : Sinks := {}
  /-- The depth of captures. -/
  level : Nat := 0

/-- Why a script stops before its end. -/
inductive Halt where
  | waiting
  | exits (code : Nat)
  | killed
  /-- Some loops are left; the last of them goes on with its next round if `again`. -/
  | leaves (again : Bool) (loops : Nat)
deriving DecidableEq, Repr

/-- A part of a script that runs. -/
abbrev Exec (α : Type) := ExceptT Halt (StateM State) α

/-- The number of the process. -/
def processId : Nat := 4242

/-- Sets the status. -/
def setStatus (code : Nat) : Exec Unit :=
  modify fun s => { s with status := code }

/-- Changes the world. -/
def setIo (io : Io) : Exec Unit :=
  modify fun s => { s with io := io }

/-- Prints bytes on the standard output. -/
def printOut (bytes : List UInt8) : Exec Unit :=
  modify fun s => { s with io := s.io.print s.sinks.out bytes }

/-- Complains on the error output. -/
def complain (message : String) : Exec Unit :=
  modify fun s => { s with io := s.io.print s.sinks.err (bytesOf ("sh: 1: " ++ message ++ "\n")) }

/-- Assigns to a variable. -/
def assign (name : String) (value : List UInt8) : Exec Unit :=
  modify fun s => { s with bindings := s.bindings.insert name value }

/-- The value of a variable or parameter. -/
def State.valueOf (s : State) (name : String) : List UInt8 :=
  match name with
  | "?" => bytesOf (toString s.status)
  | "$" => bytesOf (toString processId)
  | "#" => bytesOf (toString (s.parameters.length - 1))
  | "@" => joinWords (s.parameters.drop 1)
  | "*" => joinWords (s.parameters.drop 1)
  | _ =>
    match name.toNat? with
    | some n => (s.parameters[n]?).getD []
    | none => (s.bindings.find? name).getD []

/-- The number that a variable holds, zero if it is empty. -/
def State.number? (s : State) (name : String) : Option Int :=
  let text := s.valueOf name
  if text.isEmpty then some 0
  else (String.ofList (text.map charOf)).toInt?

/-! ### Fields -/

/-- A part of an expanded word: kept together, or split at white space. -/
inductive Chunk where
  | kept (bytes : List WordByte)
  | split (bytes : List UInt8)

/-- Unquoted bytes. -/
def unquoted (bytes : List UInt8) : List WordByte :=
  bytes.map (⟨·, false⟩)

/-- A chunk of bytes that is split unless it is quoted. -/
def chunkOf (quoted : Bool) (bytes : List UInt8) : Chunk :=
  if quoted then .kept (bytes.map (⟨·, true⟩)) else .split bytes

/-- White space between fields. -/
def isFieldSpace (b : UInt8) : Bool :=
  b == 32 || b == 9 || b == 10

/-- Fields as far as they have been put together. -/
structure Fields where
  finished : List (List WordByte) := []
  current : Option (List WordByte) := none

namespace Fields

/-- Adds bytes to the current field. -/
def append (f : Fields) (bytes : List WordByte) : Fields :=
  { f with current := some (f.current.getD [] ++ bytes) }

/-- Ends the current field. -/
def finish (f : Fields) : Fields :=
  { finished := f.finished ++ f.current.toList, current := none }

/-- Adds a chunk. -/
def add (f : Fields) : Chunk → Fields
  | .kept bytes => f.append bytes
  | .split bytes =>
    bytes.foldl (fun f b => if isFieldSpace b then f.finish else f.append [⟨b, false⟩]) f

end Fields

/-- The fields of an expanded word. -/
def fieldsOf (chunks : List Chunk) : List (List UInt8) :=
  ((chunks.foldl Fields.add {}).finish.finished).map (·.map (·.byte))

/-- The bytes of an expanded word that is not split. -/
def wholeOf (chunks : List Chunk) : List WordByte :=
  chunks.flatMap fun
    | .kept bytes => bytes
    | .split bytes => unquoted bytes

/-! ### Reading lines -/

/-- A line that is read, and what becomes of the reader. -/
structure LineRead where
  line : List WordByte
  io : Io
  /-- Whether the line feed was there. -/
  complete : Bool

/-- Reads a line.  Unless it is read raw, a backslash quotes the next byte. -/
def readLine (raw : Bool) : Nat → Io → List WordByte → Option LineRead
  | 0, _, _ => none
  | fuel + 1, io, line =>
    match io.next? with
    | none => if io.inputEnds then some ⟨line.reverse, io, false⟩ else none
    | some (10, io) => some ⟨line.reverse, io, true⟩
    | some (92, io) =>
      if raw then readLine raw fuel io (⟨92, false⟩ :: line)
      else
        match io.next? with
        | none => if io.inputEnds then some ⟨line.reverse, io, false⟩ else none
        | some (10, io) => readLine raw fuel io line
        | some (b, io) => readLine raw fuel io (⟨b, true⟩ :: line)
    | some (b, io) => readLine raw fuel io (⟨b, false⟩ :: line)

/-- Whether a byte separates the fields of a line. -/
def separates (separators : List UInt8) (b : WordByte) : Bool :=
  !b.quoted && separators.contains b.byte

/-- The values of variables from a line: a field for each, and for the last one all that is left. -/
def distribute (separators : List UInt8) : List String → List WordByte → List (String × List UInt8)
  | [], _ => []
  | [name], line =>
    let rest := line.dropWhile (separates separators)
    [(name, (rest.reverse.dropWhile (separates separators)).reverse.map (·.byte))]
  | name :: names, line =>
    let rest := line.dropWhile (separates separators)
    let field := rest.takeWhile (!separates separators ·)
    (name, field.map (·.byte)) ::
      distribute separators names (rest.dropWhile (!separates separators ·))

/-! ### Signals -/

/-- The numbers of signals by name. -/
def signalNumbers : List (String × Nat) := [
  ("HUP", 1), ("INT", 2), ("QUIT", 3), ("ABRT", 6), ("KILL", 9), ("USR1", 10), ("SEGV", 11),
  ("USR2", 12), ("PIPE", 13), ("ALRM", 14), ("TERM", 15), ("CHLD", 17), ("CONT", 18),
  ("STOP", 19), ("TSTP", 20), ("TTIN", 21), ("TTOU", 22), ("URG", 23), ("WINCH", 28)]

/-- The number of a signal that is given by number or name. -/
def signal? (text : String) : Option Nat :=
  let name := if "SIG".toList.isPrefixOf text.toList then (text.toList.drop 3) else text.toList
  match text.toNat? with
  | some n => some n
  | none => (signalNumbers.find? (·.1.toList == name)).map (·.2)

/-- What a signal does to a process. -/
inductive SignalEffect where
  | ignored
  | stopped
  | killed
deriving DecidableEq, Repr

/-- What a signal does to a process that has not arranged for it. -/
def signalEffect (number : Nat) : SignalEffect :=
  if [0, 17, 18, 23, 28].contains number then .ignored
  else if [19, 20, 21, 22].contains number then .stopped
  else .killed

/-- The signal of a `kill` command and the processes it names. -/
def killTarget? : List String → Option (Nat × List String)
  | "-s" :: name :: rest => (signal? name).map (·, rest)
  | word :: rest =>
    match word.toList with
    | '-' :: name => (signal? (String.ofList name)).map (·, rest)
    | _ => some (15, word :: rest)
  | [] => none

/-! ### Tests -/

/-- The truth of a comparison of two words. -/
def compare? (a sign b : String) : Option Bool :=
  let numbers := fun (f : Int → Int → Bool) => do return f (← a.toInt?) (← b.toInt?)
  match sign with
  | "=" => some (a == b)
  | "!=" => some (a != b)
  | "-eq" => numbers (· == ·)
  | "-ne" => numbers (· != ·)
  | "-lt" => numbers (decide <| · < ·)
  | "-le" => numbers (decide <| · ≤ ·)
  | "-gt" => numbers (decide <| · > ·)
  | "-ge" => numbers (decide <| · ≥ ·)
  | _ => none

/-- The truth of a test. -/
def test? : List String → Option Bool
  | [] => some false
  | "!" :: rest@(_ :: _) => (test? rest).map (!·)
  | [a] => some (!a.isEmpty)
  | ["-n", a] => some (!a.isEmpty)
  | ["-z", a] => some a.isEmpty
  | [a, sign, b] => compare? a sign b
  | _ => none

end CaretLayout.Emulator.Shell
