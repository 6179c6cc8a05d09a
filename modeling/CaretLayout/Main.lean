import CaretLayout.Command.Execute
import CaretLayout.Emulator.Installed

/-!
# The program

The outer layer: it looks up the files that the command line names, and prints what the library
says.  For the main loop it reads the input as it comes and keeps the time.  Agents are programs that
the emulator knows.
-/

namespace CaretLayout

/-- The names from the root of a path, without detours. -/
def straightNames (working : List String) (path : String) : List String :=
  (Disk.namesOf path).foldl
    (fun names name =>
      if name = "." then names else if name = ".." then names.dropLast else names ++ [name])
    (if Disk.isAbsolute path then [] else working)

/-- Adds what stands at a place to a disk, and tells whether it is a directory. -/
def lookAt (d : Disk) (names : List String) : IO (Disk × Bool) := do
  try
    let bytes ← IO.FS.readBinFile ("/" ++ "/".intercalate names)
    return (d.write names bytes.toList, false)
  catch
    | .inappropriateType .. =>
      return ({ d with directories := names :: d.directories }, true)
    | _ => return (d, false)

/-- Adds what stands on the way to a place to a disk, as far as the way leads. -/
def lookAlong (d : Disk) (names : List String) : List String → IO Disk
  | [] => return d
  | name :: rest => do
    let (d, isDirectory) ← lookAt d (names ++ [name])
    if isDirectory then lookAlong d (names ++ [name]) rest else return d

/-- Adds what stands at a path to a disk. -/
def lookUp (working : List String) (d : Disk) (path : String) : IO Disk :=
  lookAlong d [] (straightNames working path)

/-- A directory named by the environment, or one below the home directory. -/
def userDirectory (name fallback : String) : IO (Option String) := do
  match ← IO.getEnv name with
  | some directory =>
    if Disk.isAbsolute directory then return some directory
    else return (← IO.getEnv "HOME").map (AgentLocation.below · fallback)
  | none => return (← IO.getEnv "HOME").map (AgentLocation.below · fallback)

/-- What the program finds, as far as the given paths lead. -/
def observe (paths : List String) (input : List UInt8) : IO World := do
  let working := Disk.namesOf (toString (← IO.currentDir))
  let app := (toString (← IO.appPath)).toList
  let configHome ← userDirectory "XDG_CONFIG_HOME" ".config"
  let cacheHome ← userDirectory "XDG_CACHE_HOME" ".cache"
  let discovered := configHome.toList.map fun d =>
    AgentLocation.below (AgentLocation.below d "als") "als.toml"
  let disk ← ("als.toml" :: discovered ++ paths).foldlM (lookUp working)
    { directories := [working] }
  return {
    disk := disk, launch := Emulator.launch, working := working
    configHome := configHome, cacheHome := cacheHome
    bundle := String.ofList (Path.parent (Path.parent app)), input := input }

/-- The files that a command line names. -/
def namedFiles (i : Invocation) : List String :=
  i.config.toList ++ match i.command with
    | .classify _ _ _ file => [file]
    | _ => []

/-- Makes the log file, if its directory can be had. -/
def makeLog (directory : String) : IO Unit := do
  try
    IO.FS.createDirAll directory
    IO.FS.writeBinFile (AgentLocation.below directory World.logFile) ByteArray.empty
  catch _ => return ()

/-- Prints messages to the host. -/
def tell (messages : List HostMessage) : IO Unit := do
  let out ← IO.getStdout
  for m in messages do
    out.putStr (String.ofList m.line)
  out.flush

/-- Reads up to the next line feed, or to the end of the input. -/
partial def readPiece (input : IO.FS.Stream) (piece : ByteArray) : IO ByteArray := do
  let next ← input.read 1
  let piece := piece ++ next
  if next.isEmpty || next.toList = [Text.lineFeed] then return piece
  else readPiece input piece

/-- Goes on until the next piece of input has come. -/
partial def untilInput (s : Settings) (started : Nat) (piece : Task (Except IO.Error ByteArray))
    (c : Connection) : IO Connection := do
  let time ← IO.monoMsNow
  let (c, messages) := c.goOnTo s (time - started) LiveAgent.patience
  tell messages
  if ← IO.hasFinished piece then return c
  else
    IO.sleep 5
    untilInput s started piece c

/-- Reads the input piece by piece until the main loop ends. -/
partial def readOn (s : Settings) (started : Nat) (buffer : Text.Buffer)
    (progress : HostStream.Progress) (c : Connection) : IO Unit := do
  let input ← IO.getStdin
  let piece ← IO.asTask (readPiece input ByteArray.empty)
  let c ← untilInput s started piece c
  match piece.get with
  | .ok bytes =>
    let (buffer, segments) := buffer.feed bytes.toList
    let after := HostStream.handleSegments progress segments
    let after :=
      if bytes.isEmpty then HostStream.finish (HostStream.handleRest after buffer .closed) .closed
      else after
    let (c, messages) := c.feedAll s (after.events.drop progress.events.length)
    tell messages
    if after.stopped.isNone && c.loop.isOpen then readOn s started buffer after c
  | .error fault =>
    let after := HostStream.finish progress (.failed (toString fault))
    tell (c.feedAll s (after.events.drop progress.events.length)).2

/-- Connects the host and the agent. -/
def connect (w : World) (s : Settings) : IO Unit := do
  let started ← IO.monoMsNow
  let (c, messages) := (Connection.initial s (w.agent s) none).start
  tell messages
  readOn s started {} (HostStream.start none false) c

/-- Prints a report. -/
def present (r : Report) : IO UInt32 := do
  IO.print r.out
  for line in r.err do
    IO.eprintln line
  return UInt32.ofNat r.exitCode

/-- A world in which nothing is found. -/
def emptyWorld : World where
  disk := {}
  launch := Emulator.launch
  working := []
  configHome := none
  cacheHome := none
  bundle := ""
  input := []

/-- Carries out what the command line asks for. -/
def carryOut (arguments : List String) : IO UInt32 := do
  match Invocation.read arguments with
  | .error _ => present (emptyWorld.execute arguments)
  | .ok i =>
    let w ← observe (namedFiles i) []
    makeLog (i.logDirectory.getD w.usualLogDirectory)
    match i.command, w.settings i.config with
    | .run, .ok s =>
      connect w s
      return 0
    | _, _ => present (w.execute arguments)

end CaretLayout

/-- The program. -/
def main (arguments : List String) : IO UInt32 :=
  CaretLayout.carryOut arguments
