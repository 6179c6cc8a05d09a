import CaretLayout.Agent.Request
import CaretLayout.Cursor.Scope
import CaretLayout.Marker.Table

/-!
# Switching on change

A dispatcher remembers the scope that it saw last in one editing session and asks for a layout only
when the scope changes.  Before the first cursor and after switching has been turned on again it has
no scope, so that the next cursor always brings the layout into step.

Operations return the new dispatcher and an `Outcome`: the switch, the requests to be sent, and the
log.
-/

namespace CaretLayout

/-- The keyboard layout of each scope. -/
structure LayoutPair where
  code : String := "00000409"
  comment : String := "00000804"
deriving DecidableEq, Repr

/-- The layout of a scope. -/
def LayoutPair.of (l : LayoutPair) : Scope → String
  | .code => l.code
  | .comment => l.comment

/-- The cursor of a view, as a dispatcher sees it. -/
structure CursorView where
  language : String
  /-- The kind of content, where it differs from the language. -/
  contentKind : Option String
  context : CursorContext
deriving DecidableEq, Repr

/-- A change of scope that asks for a layout. -/
structure Switch where
  scope : Scope
  layout : String
deriving DecidableEq, Repr

/-- What an operation of a dispatcher does besides changing it. -/
structure Outcome where
  switch : Option Switch := none
  sent : List Request := []
  /-- How many switches are counted. -/
  counted : Nat := 0
  log : List Log.Record := []
deriving DecidableEq, Repr

/-- Switches layouts when the scope of a session changes. -/
structure Dispatcher where
  /-- The scope seen last. -/
  current : Option Scope := none
  layouts : LayoutPair
  enabled : Bool := true
  /-- Languages and kinds of content that are left alone. -/
  excluded : String → Bool := fun _ => false

namespace Dispatcher

/-- The dispatcher that leaves the listed languages alone. -/
def excluding (d : Dispatcher) (ids : List String) : Dispatcher :=
  { d with excluded := fun id => ids.contains id }

/-- Turns switching on or off.  Turning it on again forgets the scope. -/
def setEnabled (d : Dispatcher) (enabled : Bool) : Dispatcher × Outcome :=
  let current := if enabled && !d.enabled then none else d.current
  ({ d with current := current, enabled := enabled },
   { log := [{ level := .info, topic := "dispatch.mode", event := "switching_enabled_changed",
               fields := [("enabled", .flag enabled)] }] })

/-- Turns switching off if it is on, and on if it is off. -/
def toggle (d : Dispatcher) : Dispatcher × Outcome :=
  d.setEnabled (!d.enabled)

/-- Whether a view is left alone, by its language or its kind of content. -/
def isExcluded (d : Dispatcher) (language : String) (contentKind : Option String) : Bool :=
  d.excluded language || contentKind.any d.excluded

/-- Takes in the scope of the cursor, `none` when it is not known. -/
def observe (d : Dispatcher) (scope : Option Scope) : Dispatcher × Outcome :=
  if scope = d.current then (d, {})
  else
    match scope with
    | none =>
      (d, { log := [{ level := .debug, topic := "dispatch.mode", event := "unknown_mode_ignored" }] })
    | some s =>
      let layout := d.layouts.of s
      ({ d with current := some s },
       { switch := some ⟨s, layout⟩
         sent := [.switch layout]
         counted := 1
         log := [{ level := .info, topic := "dispatch.mode", event := "mode_switch",
                   fields := [("from", .text (Scope.nameOr d.current)), ("to", .text s.name),
                              ("layout", .text layout)] }] })

/-- Takes in a cursor: nothing happens while switching is off or in a view that is left alone. -/
def cursorMoved (d : Dispatcher) (table : RuleTable) (view : CursorView) : Dispatcher × Outcome :=
  if !d.enabled then (d, {})
  else if d.isExcluded view.language view.contentKind then
    (d, { log := [{ level := .trace, topic := "dispatch.mode", event := "excluded_view",
                    fields := [("language", .text view.language)] }] })
  else
    let finding := view.context.classify (table.lookup view.language)
    let (after, outcome) := d.observe (some finding.scope)
    (after, { outcome with log := finding.log ++ outcome.log })

end Dispatcher

end CaretLayout
