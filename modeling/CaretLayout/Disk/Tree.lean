import CaretLayout.Disk.Fault
import CaretLayout.Text.Utf8

/-!
# Files and directories

A disk is a set of files and a set of directories, each under the list of the names that lead to it
from the root.  Every directory on the way to a file exists, whether it is listed or not.  Paths are
resolved one name at a time, so that every name but the last must be that of a directory.
-/

namespace CaretLayout

/-- Files and directories by their names from the root. -/
structure Disk where
  files : List (List String × List UInt8) := []
  directories : List (List String) := []
deriving DecidableEq, Repr

namespace Disk

/-- The longest name of a file, in bytes. -/
def maxNameBytes : Nat := 255

/-- The names of a path, in order, without the empty ones between slashes that follow one another. -/
def namesOf (path : String) : List String :=
  ((path.toList.splitOn '/').map String.ofList).filter (!·.isEmpty)

/-- Whether the path starts at the root. -/
def isAbsolute (path : String) : Bool :=
  path.toList.head? = some '/'

/-- Whether the path can only mean a directory, since a slash ends it. -/
def endsInSlash (path : String) : Bool :=
  path.toList.getLast? = some '/'

/-- Whether there is a directory. -/
def hasDirectory (d : Disk) (names : List String) : Bool :=
  names.isEmpty || d.directories.contains names ||
    (d.directories ++ d.files.map (·.1)).any fun p => names.isPrefixOf p && p != names

/-- The contents of a file. -/
def file? (d : Disk) (names : List String) : Option (List UInt8) :=
  (d.files.find? (·.1 == names)).map (·.2)

/-- What stands at a place. -/
inductive Place where
  | file (names : List String) (bytes : List UInt8)
  | directory (names : List String)
deriving DecidableEq, Repr

/-- What a name stands for inside a directory. -/
def enter (d : Disk) (here : List String) (name : String) : Except DiskFault Place :=
  if name = "." then .ok (.directory here)
  else if name = ".." then .ok (.directory here.dropLast)
  else if maxNameBytes < name.utf8ByteSize then .error .nameTooLong
  else
    let names := here ++ [name]
    match d.file? names with
    | some bytes => .ok (.file names bytes)
    | none => if d.hasDirectory names then .ok (.directory names) else .error .missing

/-- What a sequence of names leads to. -/
def walk (d : Disk) : Place → List String → Except DiskFault Place
  | place, [] => .ok place
  | .file _ _, _ :: _ => .error .notDirectory
  | .directory here, name :: rest =>
    match d.enter here name with
    | .ok place => d.walk place rest
    | .error fault => .error fault

/-- Where a path starts, seen from the working directory. -/
def start (working : List String) (path : String) : Place :=
  .directory (if isAbsolute path then [] else working)

/-- What stands at a path, seen from the working directory. -/
def resolve (d : Disk) (working : List String) (path : String) : Except DiskFault Place :=
  if path.isEmpty then .error .missing
  else
    match d.walk (start working path) (namesOf path) with
    | .ok (.file names bytes) =>
      if endsInSlash path then .error .notDirectory else .ok (.file names bytes)
    | found => found

/-- Whether anything stands at a path. -/
def holds (d : Disk) (working : List String) (path : String) : Bool :=
  (d.resolve working path).toBool

/-- The contents of the file at a path. -/
def read (d : Disk) (working : List String) (path : String) : Except DiskFault (List UInt8) :=
  match d.resolve working path with
  | .ok (.file _ bytes) => .ok bytes
  | .ok (.directory _) => .error .isDirectory
  | .error fault => .error fault

/-- Goes through the names and makes the directories that are missing on the way.  A file on the way
stops it. -/
def makeOnWay (d : Disk) (here : List String) : List String → Option (Disk × List String)
  | [] => some (d, here)
  | name :: rest =>
    match d.enter here name with
    | .ok (.directory names) => d.makeOnWay names rest
    | .ok (.file _ _) => none
    | .error .missing =>
      makeOnWay { d with directories := d.directories ++ [here ++ [name]] } (here ++ [name]) rest
    | .error _ => none

/-- Makes a directory with all that are missing on the way to it, and says where it is. -/
def makeDirectory (d : Disk) (working : List String) (path : String) :
    Option (Disk × List String) :=
  d.makeOnWay (if isAbsolute path then [] else working) (namesOf path)

/-- Writes a file in place of any earlier one. -/
def write (d : Disk) (names : List String) (bytes : List UInt8) : Disk :=
  { d with files := d.files.filter (!·.1 == names) ++ [(names, bytes)] }

/-- The files and directories of two disks, those of the first before those of the second. -/
def union (d e : Disk) : Disk where
  files := d.files ++ e.files
  directories := d.directories ++ e.directories

/-- The paths of the files below a directory, seen from there, sorted. -/
def listing (d : Disk) (below : List String) : List String :=
  let inside := d.files.filterMap fun f =>
    if below.isPrefixOf f.1 then some ("/".intercalate (f.1.drop below.length)) else none
  inside.mergeSort (fun a b => decide (a ≤ b))

end Disk

/-- Reads bytes as text. -/
def DiskFault.textOf (bytes : List UInt8) : Except DiskFault (List Char) :=
  match Text.Utf8.decode bytes with
  | .ok text => .ok text
  | .error _ => .error .notText

end CaretLayout
