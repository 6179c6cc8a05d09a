import CaretLayout.Keyed
import CaretLayout.Log
import CaretLayout.Marker.Language

/-!
# Rules by language

The rule table maps language identifiers to marker rules.  It starts with the known languages and is
changed by overrides only, each of which adds a language or replaces a rule.  Looking up never
fails: an identifier without a rule has the fallback rule, which no override changes.
-/

namespace CaretLayout

/-- Marker rules by language identifier. -/
structure RuleTable where
  rules : Keyed MarkerRule
deriving Repr

namespace RuleTable

/-- The rule of a language without one. -/
def fallback : MarkerRule :=
  .slashes

/-- Stores a rule for each identifier of a family. -/
def addFamily (rules : Keyed MarkerRule) (f : LanguageFamily) : Keyed MarkerRule :=
  f.ids.foldl (fun m id => m.insert id f.rule) rules

/-- The table of the known languages. -/
def known : RuleTable :=
  ⟨LanguageFamily.known.foldl addFamily {}⟩

/-- The rule of a language, or the fallback rule. -/
def lookup (t : RuleTable) (language : String) : MarkerRule :=
  (t.rules.find? language).getD fallback

/-- Whether a language has a rule of its own. -/
def contains (t : RuleTable) (language : String) : Bool :=
  t.rules.contains language

/-- Adds or replaces the rule of a language. -/
def override (t : RuleTable) (language : String) (rule : MarkerRule) : RuleTable :=
  ⟨t.rules.insert language rule⟩

/-- What an override is logged as: the language, and whether a rule was there before. -/
def overrideRecord (t : RuleTable) (language : String) : Log.Record where
  level := .debug
  topic := "syntax.table"
  event := "rule_override"
  fields := [("language", .text language), ("replaced", .flag (t.contains language))]

/-- Overrides in order, with their log. -/
def overrideAll : RuleTable → List (String × MarkerRule) → RuleTable × List Log.Record
  | t, [] => (t, [])
  | t, (language, rule) :: more =>
    let (after, log) := overrideAll (t.override language rule) more
    (after, t.overrideRecord language :: log)

/-- The number of languages with a rule of their own. -/
def size (t : RuleTable) : Nat :=
  t.rules.size

/-- The languages with a rule of their own, sorted. -/
def languages (t : RuleTable) : List String :=
  t.rules.keys.mergeSort (fun a b => decide (a ≤ b))

end RuleTable

end CaretLayout
