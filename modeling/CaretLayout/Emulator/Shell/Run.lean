import CaretLayout.Disk.Path
import CaretLayout.Emulator.Shell.State
import CaretLayout.Text.Utf8

/-!
# Running scripts

Commands run one after another in the state of the script.  Fuel bounds the depth of commands and
the number of rounds of a loop; a script that uses it up counts as one that waits.
-/

namespace CaretLayout.Emulator.Shell

/-- The bytes of a word as text. -/
def textOf (bytes : List UInt8) : String :=
  String.ofList (Text.Utf8.decodeLossy bytes)

/-- Stops as a program stops that the script has become. -/
def become : Exit → Exec Unit
  | .finished code => throw (.exits code)
  | .waiting => throw .waiting
  | .killed => throw .killed

/-- Goes on after a program. -/
def goOnAfter : Exit → Exec Unit
  | .finished code => setStatus code
  | .waiting => throw .waiting
  | .killed => throw .killed

/-- Runs a part of a script apart: an exit ends that part only. -/
def apart (part : Exec Unit) : Exec Unit := do
  let before ← get
  tryCatch part fun halt =>
    match halt with
    | .exits code => setStatus code
    | .leaves _ _ => pure ()
    | halt => throw halt
  modify fun s =>
    { s with bindings := before.bindings, parameters := before.parameters, sinks := before.sinks }

/-- Runs a part of a script with its output captured. -/
def capture (part : Exec Unit) : Exec (List Printed) := do
  let before ← get
  let sink := Sink.captured before.level
  modify fun s => { s with sinks := { s.sinks with out := sink }, level := s.level + 1 }
  let restore : Exec (List Printed) := do
    let after ← get
    let (taken, left) := after.io.printed.partition (·.sink == sink)
    set { after with
          sinks := before.sinks, level := before.level, io := { after.io with printed := left } }
    return taken.reverse
  tryCatch part fun halt => do
    let _ ← restore
    throw halt
  restore

/-- Changes where a stream goes. -/
def redirectTo (stream : Nat) (sink : Sink) : Exec Unit :=
  modify fun s =>
    match stream with
    | 1 => { s with sinks := { s.sinks with out := sink } }
    | 2 => { s with sinks := { s.sinks with err := sink } }
    | _ => s

/-- Where a stream goes. -/
def sinkOf (s : State) : Nat → Sink
  | 1 => s.sinks.out
  | 2 => s.sinks.err
  | _ => .nowhere

/-- Reads a line into variables. -/
def readVariables (words : List (List UInt8)) : Exec Unit := do
  let raw := words.head? = some (bytesOf "-r")
  let names := (if raw then words.drop 1 else words).map textOf
  let s ← get
  let separators := (s.bindings.find? "IFS").getD [32, 9, 10]
  match readLine raw (s.io.input.length + 1) s.io [] with
  | none => throw .waiting
  | some r =>
    setIo r.io
    (distribute separators names r.line).forM fun v => assign v.1 v.2
    setStatus (if r.complete then 0 else 1)

/-- Sends a signal. -/
def kill (words : List (List UInt8)) : Exec Unit :=
  match killTarget? (words.map textOf) with
  | none => do
    complain "kill: invalid signal number or name"
    setStatus 2
  | some (number, targets) =>
    if targets = [toString processId] then
      match signalEffect number with
      | .ignored => setStatus 0
      | .stopped => throw .waiting
      | .killed => throw .killed
    else do
      complain "kill: No such process"
      setStatus 1

/-- Exits with the status that is given, or else that of the last command. -/
def exit (words : List (List UInt8)) : Exec Unit := do
  match words with
  | [] => throw (.exits (← get).status)
  | word :: _ =>
    match (textOf word).toNat? with
    | some n => throw (.exits (n % 256))
    | none =>
      complain ("exit: Illegal number: " ++ textOf word)
      throw (.exits 2)

/-- Assigns what the words of `export` and the like say. -/
def assignWords (words : List (List UInt8)) : Exec Unit := do
  words.forM fun word => do
    let name := word.takeWhile (· != byteOf '=')
    if name.length < word.length then assign (textOf name) (word.drop (name.length + 1))
  setStatus 0

/-- Leaves loops. -/
def leave (again : Bool) (words : List (List UInt8)) : Exec Unit :=
  throw (.leaves again ((words.head?.bind fun w => (textOf w).toNat?).getD 1))

/-- The truth of a test as a status. -/
def setTest (words : List (List UInt8)) : Exec Unit :=
  match test? (words.map textOf) with
  | some b => setStatus (if b then 0 else 1)
  | none => setStatus 2

/-- Runs a command of the shell itself, if there is one of the name. -/
def builtin? (name : String) (words : List (List UInt8)) : Option (Exec Unit) :=
  match name with
  | ":" => some (setStatus 0)
  | "echo" => some do
    printOut (echoEscaped words)
    setStatus 0
  | "read" => some (readVariables words)
  | "exit" => some (exit words)
  | "kill" => some (kill words)
  | "export" => some (assignWords words)
  | "readonly" => some (assignWords words)
  | "local" => some (assignWords words)
  | "trap" => some (setStatus 0)
  | "wait" => some (setStatus 0)
  | "set" => some (setStatus 0)
  | "break" => some (leave false words)
  | "continue" => some (leave true words)
  | "shift" => some do
    modify fun s => { s with parameters := s.parameters.take 1 ++ s.parameters.drop 2 }
    setStatus 0
  | "unset" => some do
    words.forM fun w => modify fun s => { s with bindings := s.bindings.erase (textOf w) }
    setStatus 0
  | "test" => some (setTest words)
  | "[" => some (setTest words.dropLast)
  | _ => none

/-- What follows when a loop is left: whether its rounds go on. -/
def afterLeaving (again : Bool) (loops : Nat) : Exec Bool :=
  if loops ≤ 1 then return again else throw (.leaves again (loops - 1))

/-- Runs the body of a loop, and tells whether the rounds go on. -/
def inLoop (body : Exec Unit) : Exec Bool :=
  tryCatch (do body; return true) fun halt =>
    match halt with
    | .leaves again loops => afterLeaving again loops
    | halt => throw halt

mutual

/-- Expands a piece of a word. -/
def expandPiece : Nat → Piece → Exec Chunk
  | 0, _ => throw .waiting
  | fuel + 1, piece =>
    match piece with
    | .text quoted s => return .kept ((bytesOf (String.ofList s)).map (⟨·, quoted⟩))
    | .variable quoted name => return chunkOf quoted ((← get).valueOf name)
    | .arithmetic quoted expression => do
      match Arithmetic.eval? (← get).number? expression with
      | some n => return chunkOf quoted (bytesOf (toString n))
      | none =>
        complain "arithmetic expression: expecting primary"
        throw (.exits 2)
    | .output quoted script => do
      let printed ← capture (apart (runAll fuel script))
      let bytes := printed.flatMap (·.bytes)
      return chunkOf quoted (bytes.reverse.dropWhile (· == 10)).reverse

/-- Expands a word. -/
def expand : Nat → Word → Exec (List Chunk)
  | 0, _ => throw .waiting
  | fuel + 1, word => word.mapM (expandPiece fuel)

/-- Carries out a redirection. -/
def redirect : Nat → Redirect → Exec Unit
  | 0, _ => throw .waiting
  | fuel + 1, r =>
    match r with
    | .toFile stream file => do
      let _ ← expand fuel file
      redirectTo stream .nowhere
    | .toStream stream other => do redirectTo stream (sinkOf (← get) other)
    | .close stream => redirectTo stream .nowhere
    | .fromFile file => do
      let _ ← expand fuel file
      modify fun s => { s with io := { s.io with input := [], inputEnds := true } }

/-- Runs a part of a script with redirections. -/
def redirected : Nat → List Redirect → Exec Unit → Exec Unit
  | 0, _, _ => throw .waiting
  | fuel + 1, redirects, part => do
    let before ← get
    redirects.forM (redirect fuel)
    part
    modify fun s => { s with sinks := before.sinks }
    if redirects.any (fun | .fromFile _ => true | _ => false) then
      modify fun s =>
        { s with io := { s.io with input := before.io.input, inputEnds := before.io.inputEnds } }

/-- Runs a program that is not part of the shell. -/
def program : Nat → String → List (List UInt8) → Exec Exit
  | 0, _, _ => throw .waiting
  | fuel + 1, name, words => do
    let s ← get
    let base := String.ofList (Path.fileName name.toList)
    match runTool base s.sinks words s.io with
    | some (exit, io) =>
      setIo io
      return exit
    | none =>
      match base, words with
      | "sh", option :: script :: parameters =>
        if option = bytesOf "-c" then
          match read? (textOf script).toList with
          | some script =>
            apart do
              modify fun s =>
                { s with parameters := if parameters.isEmpty then [bytesOf "sh"] else parameters }
              runAll fuel script
            return .finished (← get).status
          | none => return .finished 2
        else return .finished 2
      | _, _ =>
        complain (name ++ ": not found")
        return .finished 127

/-- Runs words as a command. -/
def runWords : Nat → List (List UInt8) → Exec Unit
  | 0, _ => throw .waiting
  | fuel + 1, words =>
    match words with
    | [] => pure ()
    | name :: rest =>
      if name = bytesOf "exec" then
        match rest with
        | [] => pure ()
        | name :: rest => do become (← program fuel (textOf name) rest)
      else
        match builtin? (textOf name) rest with
        | some action => action
        | none => do goOnAfter (← program fuel (textOf name) rest)

/-- Runs a command. -/
def run : Nat → Command → Exec Unit
  | 0, _ => throw .waiting
  | fuel + 1, command =>
    match command with
    | .simple assignments words redirects => do
      let fields ← words.mapM fun w => do return fieldsOf (← expand fuel w)
      let words := fields.flatten
      let before ← get
      assignments.forM fun a => do assign a.1 ((wholeOf (← expand fuel a.2)).map (·.byte))
      if words = [bytesOf "exec"] then redirects.forM (redirect fuel)
      else
        redirected fuel redirects do
          if words.isEmpty then setStatus 0 else runWords fuel words
        if !words.isEmpty then
          assignments.forM fun a =>
            match before.bindings.find? a.1 with
            | some value => assign a.1 value
            | none => modify fun s => { s with bindings := s.bindings.erase a.1 }
    | .both first second => do
      run fuel first
      if (← get).status = 0 then run fuel second
    | .either first second => do
      run fuel first
      if (← get).status ≠ 0 then run fuel second
    | .negated command => do
      run fuel command
      setStatus (if (← get).status = 0 then 1 else 0)
    | .pipe first second => runPipe fuel first second
    | .group body redirects => redirected fuel redirects (runAll fuel body)
    | .subshell body redirects => redirected fuel redirects (apart (runAll fuel body))
    | .choice branches otherwise => runChoice fuel branches otherwise
    | .loop whileFails condition body redirects =>
      redirected fuel redirects do
        setStatus 0
        runLoop fuel whileFails condition body
    | .each name words body => do
      let fields ← words.mapM fun w => do return fieldsOf (← expand fuel w)
      setStatus 0
      runEach fuel name fields.flatten body
    | .cases word arms => do
      let text := (wholeOf (← expand fuel word)).map (·.byte)
      runCases fuel text arms

/-- Runs commands in order. -/
def runAll : Nat → List Command → Exec Unit
  | 0, _ => throw .waiting
  | fuel + 1, commands => commands.forM (run fuel)

/-- Runs two commands, the output of the first being the input of the second. -/
def runPipe : Nat → Command → Command → Exec Unit
  | 0, _, _ => throw .waiting
  | fuel + 1, first, second => do
    let start := (← get).io.clock
    let ended ← get
    let printed ← capture do
      tryCatch (apart (run fuel first)) fun halt =>
        match halt with
        | .waiting => modify fun s => { s with status := 256 }
        | halt => throw halt
    let after ← get
    let waits := after.status = 256
    let input := printed.flatMap fun p => p.bytes.map fun b => (⟨p.time, b⟩ : InputByte)
    set { after with
          status := ended.status
          io := { after.io with clock := start, input := input, inputEnds := !waits } }
    apart (run fuel second)
    if waits then throw .waiting
    modify fun s =>
      { s with io := { s.io with clock := max s.io.clock after.io.clock, input := after.io.input
                                 inputEnds := after.io.inputEnds } }

/-- Runs the branch of the first condition that holds. -/
def runChoice : Nat → List (List Command × List Command) → List Command → Exec Unit
  | 0, _, _ => throw .waiting
  | fuel + 1, branches, otherwise =>
    match branches with
    | [] =>
      if otherwise.isEmpty then setStatus 0 else runAll fuel otherwise
    | (condition, body) :: more => do
      runAll fuel condition
      if (← get).status = 0 then runAll fuel body else runChoice fuel more otherwise

/-- Runs rounds of a loop as long as its condition says. -/
def runLoop : Nat → Bool → List Command → List Command → Exec Unit
  | 0, _, _, _ => throw .waiting
  | fuel + 1, whileFails, condition, body => do
    let before := (← get).status
    let goesOn ← inLoop (runAll fuel condition)
    if goesOn && (((← get).status != 0) == whileFails) then
      if ← inLoop (runAll fuel body) then runLoop fuel whileFails condition body
    else setStatus before

/-- Runs a round of a loop for each word. -/
def runEach : Nat → String → List (List UInt8) → List Command → Exec Unit
  | 0, _, _, _ => throw .waiting
  | fuel + 1, name, words, body =>
    match words with
    | [] => pure ()
    | word :: more => do
      assign name word
      if ← inLoop (runAll fuel body) then runEach fuel name more body

/-- Runs the first arm with a pattern that stands for a text. -/
def runCases : Nat → List UInt8 → List (List Word × List Command) → Exec Unit
  | 0, _, _ => throw .waiting
  | fuel + 1, text, arms =>
    match arms with
    | [] => setStatus 0
    | (patterns, body) :: more => do
      let found ← patterns.mapM fun w => do
        return matchesPattern (wholeOf (← expand fuel w)) text
      if found.contains true then
        setStatus 0
        runAll fuel body
      else runCases fuel text more

end

/-- The fuel for scripts. -/
def fuel : Nat := 4000

/-- What is left of a script that has stopped. -/
def exitOf : Except Halt Unit × State → Exit × Io
  | (.ok (), s) => (.finished s.status, s.io)
  | (.error .waiting, s) => (.waiting, s.io)
  | (.error (.exits code), s) => (.finished code, s.io)
  | (.error .killed, s) => (.killed, s.io)
  | (.error (.leaves _ _), s) => (.finished s.status, s.io)

/-- Runs a script with the name and the parameters that follow it. -/
def runScript (script : List Char) (parameters : List (List UInt8)) (io : Io) : Exit × Io :=
  match read? script with
  | some commands =>
    let parameters := if parameters.isEmpty then [bytesOf "sh"] else parameters
    exitOf ((runAll fuel commands).run { io := io, parameters := parameters })
  | none => (.finished 2, io.print (.stream .errors) (bytesOf "sh: 1: Syntax error\n"))

end CaretLayout.Emulator.Shell
