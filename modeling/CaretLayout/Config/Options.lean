import CaretLayout.Keyed

/-!
# Options

What a configuration file can say, section by section.  Every option has a default, so that a
configuration without any options is a configuration like any other.
-/

namespace CaretLayout

namespace Config

/-- The keyboard layouts. -/
structure Layouts where
  /-- The layout for code. -/
  english : String := "00000409"
  /-- The layout for comments. -/
  chinese : String := "00000804"
deriving DecidableEq, Repr

/-- How the classifier looks at a document. -/
structure Classifier where
  /-- How many lines above the cursor are looked at. -/
  lookbackLines : Nat := 500
deriving DecidableEq, Repr

/-- When layouts are switched. -/
structure Dispatch where
  /-- Whether switching is on at the start. -/
  enabled : Bool := true
  /-- How long the cursor must rest, in milliseconds, as it is written. -/
  debounceMs : Nat := 120
  /-- The languages that are left alone. -/
  excludedLanguages : List String := ["log"]
deriving DecidableEq, Repr

/-- Where the agent is looked for when no path is given. -/
inductive AgentMode where
  | development
  | production
deriving DecidableEq, Repr

/-- How the agent is started. -/
structure Agent where
  mode : AgentMode := .development
  /-- The development checkout. -/
  projectRoot : Option String := none
  /-- The installed bundle. -/
  bundleDir : Option String := none
  /-- The agent program, which comes before the mode. -/
  path : Option String := none
  args : List String := []
deriving DecidableEq, Repr

/-- The comment markers of a language. -/
structure Language where
  line : List String := []
  block : List (String × String) := []
deriving DecidableEq, Repr

end Config

/-- A configuration. -/
structure Config where
  layouts : Config.Layouts := {}
  classifier : Config.Classifier := {}
  dispatch : Config.Dispatch := {}
  agent : Config.Agent := {}
  /-- Languages that are added or get another rule. -/
  languages : Keyed Config.Language := {}
deriving DecidableEq, Repr

namespace Config

/-- The longest time that the cursor must rest, in milliseconds. -/
def maxDebounceMs : Nat := 2000

/-- How long the cursor must rest, in milliseconds. -/
def Dispatch.quietMs (d : Dispatch) : Nat :=
  min d.debounceMs maxDebounceMs

/-- The name of a mode. -/
def AgentMode.name : AgentMode → String
  | .development => "development"
  | .production => "production"

/-- The mode of a name. -/
def AgentMode.ofName? (name : String) : Option AgentMode :=
  [development, production].find? (·.name == name)

end Config

end CaretLayout
