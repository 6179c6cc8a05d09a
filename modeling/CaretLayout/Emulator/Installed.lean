import CaretLayout.Emulator.Shell.Run

/-!
# Emulated programs

The small programs that can be run here as agents, and where they are installed.  A program is found
the way a system finds it: a path with a slash leads to a file, and any other name is looked for among
the installed programs.

Everything else takes the way programs are started as given (`World.launch`), and what is proved holds
for whatever programs these are.  Only the outer layer starts emulated ones.
-/

namespace CaretLayout.Emulator

/-- The program that does this in a world when it is given arguments. -/
def programOf (run : List (List UInt8) → Io → Exit × Io) : Program where
  trace := fun args start input =>
    let (exit, io) := run (args.map bytesOf) { clock := start, input := input }
    { emissions := io.emissions
      ending := match exit with
        | .finished code => some (io.clock, some (code % 256 : Nat))
        | .killed => some (io.clock, none)
        | .waiting => none }

/-- A small program that is known by its name. -/
def tool (name : String) : Program :=
  programOf fun words io => (runTool name {} words io).getD (.finished 0, io)

/-- Runs the shell with its arguments. -/
def runShell (words : List (List UInt8)) (io : Io) : Exit × Io :=
  match words with
  | option :: script :: parameters =>
    if option = bytesOf "-c" then
      Shell.runScript (Text.Utf8.decodeLossy script) parameters io
    else (.finished 2, io)
  | _ => (io.atInputEnd, io)

/-- The shell. -/
def shell : Program :=
  programOf runShell

/-- A program that says nothing and ends at once. -/
def brief : Program :=
  programOf fun _ io => (.finished 0, io)

/-- The names of the shell. -/
def shellNames : List String :=
  ["sh", "dash"]

/-- The names of programs whose output is of no interest to anyone. -/
def briefNames : List String :=
  ["date", "env", "hostname", "id", "ls", "pwd", "uname", "whoami"]

/-- The program of a name. -/
def ofName? (name : String) : Option Program :=
  if toolNames.contains name then some (tool name)
  else if shellNames.contains name then some shell
  else if briefNames.contains name then some brief
  else none

/-! ### Where programs are -/

/-- The directories that programs are looked for in. -/
def programDirectories : List (List String) :=
  [["usr", "bin"], ["bin"]]

/-- The files and directories that every system has. -/
def systemDisk : Disk where
  files :=
    (programDirectories.flatMap fun d =>
      (toolNames ++ shellNames ++ briefNames).map fun n => (d ++ [n], [])) ++
    [["dev", "null"], ["etc", "hostname"], ["etc", "hosts"], ["etc", "passwd"]].map (·, [])
  directories :=
    [["home"], ["lib"], ["opt"], ["proc"], ["root"], ["sbin"], ["tmp"], ["usr", "lib"],
     ["usr", "local", "bin"], ["usr", "sbin"], ["usr", "share"], ["var", "log"], ["var", "tmp"]]

/-- The program of a file, if the file is one. -/
def programAt (names : List String) : Except DiskFault Program :=
  if programDirectories.contains names.dropLast then
    match names.getLast?.bind ofName? with
    | some p => .ok p
    | none => .error .denied
  else .error .denied

/-- The program that a name among the installed programs or a path leads to. -/
def findProgram (d : Disk) (working : List String) (path : String) : Except DiskFault Program :=
  if path.isEmpty then .error .missing
  else if path.toList.contains '/' then
    match d.resolve working path with
    | .ok (.file names _) => programAt names
    | .ok (.directory _) => .error .denied
    | .error fault => .error fault
  else if path = "." || path = ".." then .error .denied
  else if Disk.maxNameBytes < path.utf8ByteSize then .error .nameTooLong
  else
    match ofName? path with
    | some p => .ok p
    | none => .error .missing

/-- Starts programs on a system with these files besides its own. -/
def launch : Launcher := fun d working path args =>
  if (path :: args).any (·.toList.contains (Char.ofNat 0)) then .error .holdsNul
  else findProgram (systemDisk.union d) working path

end CaretLayout.Emulator
