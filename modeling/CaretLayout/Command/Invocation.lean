import CaretLayout.Command.Argument

/-!
# The command line

The subcommands `run`, `classify` and `layouts` with their parameters, and the options that may stand
before or after the name of a subcommand.  Without a subcommand the program runs.
-/

namespace CaretLayout

/-- What the program is asked to do. -/
inductive Command where
  /-- Connect the host and the agent. -/
  | run
  /-- Tell whether a place in a file is code or comment. -/
  | classify (language : Option String) (line column : Nat) (file : String)
  /-- List the layouts that the agent offers. -/
  | layouts (milliseconds : Nat)
deriving DecidableEq, Repr

/-- What the command line says. -/
structure Invocation where
  /-- The configuration file. -/
  config : Option String := none
  /-- The directory for the log file. -/
  logDirectory : Option String := none
  command : Command := .run
deriving DecidableEq, Repr

namespace Invocation

open Argument

/-- The options that stand before or after the name of a subcommand. -/
def sharedOptions : List Parameter := [
  ⟨"config", "--config <CONFIG>", .path⟩,
  ⟨"log-dir", "--log-dir <LOG_DIR>", .path⟩]

/-- The parameters before the name of a subcommand. -/
def outerGrammar : Grammar where
  options := sharedOptions
  hasVersion := true
  subcommands := ["run", "classify", "layouts", "help"]

/-- The parameters of `run`. -/
def runGrammar : Grammar where
  options := sharedOptions

/-- The parameters of `classify`. -/
def classifyGrammar : Grammar where
  options := sharedOptions ++ [
    ⟨"language", "--language <LANGUAGE>", .text⟩,
    ⟨"line", "--line <LINE>", .number⟩,
    ⟨"column", "--column <COLUMN>", .number⟩]
  operand := some ⟨"file", "<FILE>", .path⟩
  required := ["line", "column", "file"]

/-- The parameters of `layouts`. -/
def layoutsGrammar : Grammar where
  options := sharedOptions ++ [⟨"timeout-ms", "--timeout-ms <TIMEOUT_MS>", .number⟩]

/-- How long the agent may take to list its layouts, in milliseconds. -/
def defaultTimeout : Nat := 3000

/-- The number that a parameter was given. -/
def number (v : Values) (name : String) (default : Nat) : Nat :=
  match (v.find? name).map fun s => readWord s.toList with
  | some (.ok n) => n
  | _ => default

/-- The command that a subcommand with these values stands for. -/
def commandOf (name : String) (v : Values) : Command :=
  match name with
  | "classify" =>
    .classify (v.find? "language") (number v "line" 0) (number v "column" 0)
      ((v.find? "file").getD "")
  | "layouts" => .layouts (number v "timeout-ms" defaultTimeout)
  | _ => .run

/-- What a request for help comes to: a word that is no subcommand is an error. -/
def readHelp : List String → Stop
  | [] => .display .help
  | name :: rest =>
    if outerGrammar.subcommands.contains name then
      match rest with
      | [] => .display .help
      | word :: _ => .usage (.unrecognized word)
    else .usage (.unrecognized name)

/-- Reads the arguments of a subcommand. -/
def readSubcommand (name : String) (arguments : List String) : Except Stop Values :=
  match name with
  | "classify" => readAll classifyGrammar arguments
  | "layouts" => readAll layoutsGrammar arguments
  | "run" => readAll runGrammar arguments
  | _ => .error (readHelp arguments)

/-- Reads the command line.  A shared option after the subcommand comes before one in front. -/
def read (arguments : List String) : Except Stop Invocation := do
  let reading ← readFrom outerGrammar false {} arguments
  let (command, inner) ← match reading.subcommand with
    | none => .ok (.run, [])
    | some (name, rest) => do
      let v ← readSubcommand name rest
      pure (commandOf name v, v)
  let outer ← finish outerGrammar reading.progress
  let all : Values := inner ++ outer
  return { config := all.find? "config", logDirectory := all.find? "log-dir", command := command }

end Invocation

end CaretLayout
