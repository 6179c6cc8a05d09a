import CaretLayout.Command.Failure
import CaretLayout.Disk.Path
import CaretLayout.Disk.Tree
import CaretLayout.Marker.Extension
import CaretLayout.Settings
import CaretLayout.Text.Line

/-!
# Classifying a place in a file

The command tells whether a place in a file is code or comment.  The language is the one that is
asked for, or else the one that the extension of the file stands for; a file without either has the
fallback rule.
-/

namespace CaretLayout

/-- The language of a file: the one asked for, or else the one of its extension. -/
def languageOfFile (asked : Option String) (path : String) : String :=
  (asked <|> (Path.extension? path).bind Extension.language?).getD ""

/-- Where a place in a text stands. -/
def Settings.classifyText (s : Settings) (language : String) (text : List Char)
    (line column : Nat) : Finding :=
  classifyLines (s.table.lookup language) (Text.lines text) line column s.lookback

/-- Where a place in the file at `path` stands, from what reading the file gave. -/
def Settings.classifyFile (s : Settings) (language : Option String) (path : String)
    (contents : Except DiskFault (List UInt8)) (line column : Nat) : Except Failure Finding :=
  match contents.bind DiskFault.textOf with
  | .ok text => .ok (s.classifyText (languageOfFile language path) text line column)
  | .error fault => .error (.reading path fault)

/-- A file that holds a text is classified as the text is. -/
theorem Settings.classifyFile_ok (s : Settings) {bytes : List UInt8} {text : List Char}
    (hfile : DiskFault.textOf bytes = .ok text) (language : Option String) (path : String)
    (line column : Nat) : s.classifyFile language path (.ok bytes) line column =
      .ok (s.classifyText (languageOfFile language path) text line column) := by
  have hread : (Except.ok bytes : Except DiskFault _).bind DiskFault.textOf = .ok text := hfile
  rw [classifyFile, hread]

end CaretLayout
