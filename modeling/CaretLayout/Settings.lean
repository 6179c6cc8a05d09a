import CaretLayout.Agent.Location
import CaretLayout.Config.Options
import CaretLayout.Dispatch.Dispatcher

/-!
# Settings

What a configuration means for the program: the rule table with the configured languages, the
layouts of the scopes, the time of rest, and the place of the agent.
-/

namespace CaretLayout

/-- What the program works with. -/
structure Settings where
  table : RuleTable
  layouts : LayoutPair
  /-- How many lines above the cursor are looked at. -/
  lookback : Nat
  /-- How long the cursor must rest, in milliseconds. -/
  quiet : Nat
  /-- Whether switching is on at the start. -/
  enabled : Bool
  /-- The languages that are left alone. -/
  excluded : List String
  agent : AgentLocation
  agentArgs : List String

namespace Config

/-- The marker rule of a configured language. -/
def Language.rule (l : Language) : MarkerRule :=
  .ofStrings l.line l.block

/-- The rule table with the configured languages. -/
def table (c : Config) : RuleTable :=
  (RuleTable.known.overrideAll (c.languages.entries.map fun e => (e.1, e.2.rule))).1

/-- Where the agent is looked for, `bundle` being the bundle that the program itself belongs to. -/
def Agent.location (a : Agent) (bundle : String) : AgentLocation :=
  match a.path, a.mode with
  | some path, _ => .explicit path
  | none, .development => .development (a.projectRoot.getD ".")
  | none, .production => .production (a.bundleDir.getD bundle)

/-- The settings of a configuration. -/
def settings (c : Config) (bundle : String) : Settings where
  table := c.table
  layouts := ⟨c.layouts.english, c.layouts.chinese⟩
  lookback := c.classifier.lookbackLines
  quiet := c.dispatch.quietMs
  enabled := c.dispatch.enabled
  excluded := c.dispatch.excludedLanguages
  agent := c.agent.location bundle
  agentArgs := c.agent.args

end Config

namespace Settings

/-- The dispatcher of a new session. -/
def newDispatcher (s : Settings) (enabled : Bool) : Dispatcher :=
  ({ layouts := s.layouts, enabled := enabled } : Dispatcher).excluding s.excluded

end Settings

end CaretLayout
