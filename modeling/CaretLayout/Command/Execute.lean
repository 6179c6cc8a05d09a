import CaretLayout.Command.Classify
import CaretLayout.Command.Invocation
import CaretLayout.Command.Run
import CaretLayout.Config.Source

/-!
# The program as a whole

From the arguments, the files and the input of the program to what it prints, its exit code, and the
files afterwards.  Every run that gets past its arguments makes an empty log file if its directory
can be had.
-/

namespace CaretLayout

/-- What the program finds. -/
structure World where
  disk : Disk
  /-- How programs are started. -/
  launch : Launcher
  /-- The working directory. -/
  working : List String
  /-- The directory for configuration files. -/
  configHome : Option String
  /-- The directory for files that can be made again. -/
  cacheHome : Option String
  /-- The bundle that the program belongs to. -/
  bundle : String
  input : List UInt8

/-- What the program leaves. -/
structure Report where
  exitCode : Nat
  out : String := ""
  /-- The lines of the error output. -/
  err : List String := []
  disk : Disk

namespace World

/-- The name of the log file. -/
def logFile : String := "als.log"

/-- What the program shows as its version. -/
def versionLine : String := "als 0.0.1\n"

/-- The configuration file that is read when none is named: one in the working directory if it is
there, or else one in the directory for configuration files. -/
def discovered (w : World) : String :=
  if w.disk.holds w.working "als.toml" then "als.toml"
  else
    match w.configHome with
    | some directory => AgentLocation.below (AgentLocation.below directory "als") "als.toml"
    | none => "als.toml"

/-- The directory for the log file when none is named. -/
def usualLogDirectory (w : World) : String :=
  match w.cacheHome with
  | some directory => AgentLocation.below directory "als"
  | none => "."

/-- Makes an empty log file, if its directory can be had. -/
def startLog (w : World) (directory : String) : World :=
  match w.disk.makeDirectory w.working directory with
  | some (disk, names) => { w with disk := disk.write (names ++ [logFile]) [] }
  | none => w

/-- Loads the configuration. -/
def settings (w : World) (named : Option String) : Except Failure Settings :=
  let path := named.getD w.discovered
  match Config.load path (w.disk.read w.working path) with
  | .ok loaded => .ok (loaded.config.settings w.bundle)
  | .error fault => .error (.readingConfig path fault)

/-- The agent of the settings, before it is started. -/
def agent (w : World) (s : Settings) : LiveAgent :=
  s.newAgent w.launch w.disk w.working

/-- What a command prints. -/
def perform (w : World) (s : Settings) : Command → Except Failure String
  | .run =>
    .ok (String.ofList ((Connection.runAll s (w.agent s) w.input).flatMap HostMessage.line))
  | .classify language line column file =>
    (s.classifyFile language file (w.disk.read w.working file) line column).map fun finding =>
      finding.scope.name ++ "\n"
  | .layouts milliseconds => (Inventory.ask (w.agent s) milliseconds).map Inventory.print

/-- Carries out what the command line asks for. -/
def invoke (w : World) (i : Invocation) : Report :=
  let w := w.startLog (i.logDirectory.getD w.usualLogDirectory)
  match (w.settings i.config).bind fun s => w.perform s i.command with
  | .ok out => { exitCode := 0, out := out, disk := w.disk }
  | .error failure => { exitCode := 1, err := failure.report, disk := w.disk }

/-- Runs the program. -/
def execute (w : World) (arguments : List String) : Report :=
  match Invocation.read arguments with
  | .ok i => w.invoke i
  | .error (.display .version) => { exitCode := 0, out := versionLine, disk := w.disk }
  | .error (.display .help) => { exitCode := 0, disk := w.disk }
  | .error (.usage e) => { exitCode := 2, err := [e.message], disk := w.disk }

end World

end CaretLayout
