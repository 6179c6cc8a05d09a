import CaretLayout.Config.Decode
import CaretLayout.Disk.Tree
import CaretLayout.Log

/-!
# Where a configuration comes from

A configuration is read from a file.  Without a file, and with a file that is no configuration, the
defaults apply, so that a slip in the file never keeps the program from running.  Only a file that
is there and cannot be read is an error.
-/

namespace CaretLayout.Config

/-- A configuration with the file that gave it, none for the defaults, and what is logged about that. -/
structure Loaded where
  config : Config := {}
  source : Option String := none
  log : List Log.Record
deriving DecidableEq, Repr

/-- The configuration when there is no file at a path. -/
def loadedMissing (path : String) : Loaded where
  log := [{ level := .info, topic := "config", event := "config_missing_using_defaults",
            fields := [("path", .text path)] }]

/-- The configuration of a file with the given text. -/
def loadText (path : String) (text : List Char) : Loaded :=
  match parse? text with
  | some config =>
    { config := config
      source := some path
      log := [{ level := .info, topic := "config", event := "config_loaded",
                fields := [("path", .text path), ("languages", .count config.languages.size)] }] }
  | none =>
    { log := [{ level := .warn, topic := "config", event := "config_parse_failed_using_defaults",
                fields := [("path", .text path), ("error", .complaint text)] }] }

/-- The configuration of the file at a path, from what reading the file gave. -/
def load (path : String) : Except DiskFault (List UInt8) → Except DiskFault Loaded
  | .ok bytes => (DiskFault.textOf bytes).map (loadText path)
  | .error .missing => .ok (loadedMissing path)
  | .error fault => .error fault

/-- What is logged when the configured time of rest is used. -/
def Dispatch.quietLog (d : Dispatch) : List Log.Record :=
  if d.quietMs = d.debounceMs then []
  else
    [{ level := .info, topic := "config", event := "debounce_ms_clamped",
       fields := [("raw", .count d.debounceMs), ("clamped", .count d.quietMs),
                  ("max", .count maxDebounceMs)] }]

end CaretLayout.Config
