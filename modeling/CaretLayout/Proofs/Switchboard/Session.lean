import CaretLayout.Proofs.Dispatch.Debouncer
import CaretLayout.Proofs.Dispatch.Dispatcher
import CaretLayout.Switchboard.Basic

/-!
# What holds of a session

`Session.Fits s on name` says what the switchboard keeps true of the session `name` while switching
is on or off as `on` says: the dispatcher follows the settings and the flag, and a
cursor waits only in its own session, only while switching is on, and only if there is a time of
rest.  Every operation of the switchboard on a session preserves it.
-/

namespace CaretLayout

/-! ### Cursors under settings -/

namespace CursorEvent

/-- The scope of a cursor. -/
def scope (s : Settings) (c : CursorEvent) : Scope :=
  (classifyLines (s.table.lookup c.language) (c.lines.map String.toList) c.relativeLine c.column
    s.lookback).scope

/-- Whether the view of a cursor is left alone. -/
def isLeftAlone (s : Settings) (c : CursorEvent) : Bool :=
  s.excluded.contains c.language || c.contentKind.any s.excluded.contains

/-- What the host is told when the scope of the session of a cursor changes to that of the cursor.
-/
def modeMessage (s : Settings) (c : CursorEvent) : HostMessage :=
  .mode c.session (c.scope s).name (s.layouts.of (c.scope s))

theorem scope_view (s : Settings) (c : CursorEvent) :
    (c.view s.lookback).scope s.table = c.scope s := rfl

end CursorEvent

/-! ### The invariant of a session -/

/-- What holds of the session of a name while switching is on or off. -/
structure Session.Fits (s : Settings) (on : Bool) (name : String) (session : Session) : Prop where
  enabled : session.dispatcher.enabled = on
  layouts : session.dispatcher.layouts = s.layouts
  excluded : session.dispatcher.excluded = fun id => s.excluded.contains id
  quiet : session.debouncer.quiet = s.quiet
  /-- A cursor waits in its own session. -/
  home : ∀ w, session.debouncer.waiting = some w → w.item.session = name
  /-- Nothing waits while switching is off. -/
  idle : on = false → session.debouncer.waiting = none
  /-- Nothing waits where there is no time of rest. -/
  prompt : s.quiet = 0 → session.debouncer.waiting = none

namespace Session

variable {s : Settings} {on : Bool} {name : String} {session : Session}

theorem fits_new (s : Settings) (on : Bool) (name : String) : (new s on).Fits s on name where
  enabled := rfl
  layouts := rfl
  excluded := rfl
  quiet := rfl
  home := fun _ h => by cases h
  idle := fun _ => rfl
  prompt := fun _ => rfl

theorem Fits.setEnabled (h : session.Fits s on name) (next : Bool) :
    (session.setEnabled next).Fits s next name where
  enabled := rfl
  layouts := h.layouts
  excluded := h.excluded
  quiet := by cases next <;> exact h.quiet
  home := fun w hw => by
    cases next
    · cases hw
    · exact h.home w hw
  idle := fun hoff => by subst hoff; rfl
  prompt := fun hq => by
    cases next
    · rfl
    · exact h.prompt hq

theorem Fits.withoutDue (h : session.Fits s on name) (now : Nat) :
    (session.withoutDue now).Fits s on name := by
  unfold Session.withoutDue
  rcases session.debouncer.poll_cases now with hp | ⟨w, -, -, hp⟩
  · rw [hp]
    exact h
  · rw [hp]
    exact ⟨h.enabled, h.layouts, h.excluded, h.quiet, fun _ hw => (by cases hw), fun _ => rfl,
      fun _ => rfl⟩

theorem Fits.dispatched (h : session.Fits s on name) (table : RuleTable) (view : CursorView) :
    Fits s on name
      { session with dispatcher := (session.dispatcher.cursorMoved table view).1 } := by
  obtain ⟨current, hd⟩ := Dispatcher.cursorMoved_fst session.dispatcher table view
  rw [hd]
  exact ⟨h.enabled, h.layouts, h.excluded, h.quiet, h.home, h.idle, h.prompt⟩

theorem Fits.scheduled (h : session.Fits s true name) (hq : s.quiet ≠ 0) (now : Nat)
    {c : CursorEvent} (hc : c.session = name) :
    Fits s true name { session with debouncer := session.debouncer.schedule now c } where
  enabled := h.enabled
  layouts := h.layouts
  excluded := h.excluded
  quiet := h.quiet
  home := fun w hw => by rw [← Option.some.inj hw]; exact hc
  idle := fun hoff => by cases hoff
  prompt := fun hz => absurd hz hq

theorem Fits.isExcluded (h : session.Fits s on name) (c : CursorEvent) :
    session.dispatcher.isExcluded (c.view s.lookback).language (c.view s.lookback).contentKind =
      c.isLeftAlone s := by
  unfold Dispatcher.isExcluded
  rw [h.excluded]
  rfl

end Session

/-! ### Taking in a cursor -/

namespace Switchboard

variable {s : Settings} {b : Switchboard}

theorem cursor_of_off (s : Settings) (hoff : b.enabled = false) (now : Nat) (c : CursorEvent) :
    b.cursor s now c = (b, []) := by
  rw [cursor, hoff, if_pos (by decide)]

/-- A cursor that comes while switching is on is dispatched at once if there is no time of rest. -/
theorem cursor_of_prompt (hq : s.quiet = 0) (hon : b.enabled = true) (now : Nat) (c : CursorEvent) :
    b.cursor s now c = b.dispatch s c := by
  rw [cursor, hon, if_neg (by decide), if_pos hq]

/-- A cursor that comes while switching is on waits if there is a time of rest. -/
theorem cursor_of_rest (hq : s.quiet ≠ 0) (hon : b.enabled = true) (now : Nat) (c : CursorEvent) :
    b.cursor s now c = (b.schedule s now c, []) := by
  rw [cursor, hon, if_neg (by decide), if_neg hq]

end Switchboard

/-! ### A small case -/

/-- Settings under which every language has the line comments of the fallback rule, and only logs
are left alone. -/
def Settings.small (quiet : Nat) : Settings where
  table := ⟨{}⟩
  layouts := {}
  lookback := 500
  quiet := quiet
  enabled := true
  excluded := ["log"]
  agent := .explicit ""
  agentArgs := []

/-- A cursor in a line with a comment. -/
def CursorEvent.small (session : String) (column : Nat) : CursorEvent where
  session := session
  language := "c"
  line := 0
  column := column
  lines := ["x // y"]
  firstLine := 0
  contentKind := none

end CaretLayout
