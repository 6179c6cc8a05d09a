import CaretLayout.Proofs.Switchboard.Session
import Mathlib.Tactic.SplitIfs

/-!
# Switchboards that agree

Two switchboards agree when switching is on in both or in none, and they keep the same sessions with
the same dispatchers.  What waits in the sessions, and the time of rest, may differ: an operation that
does not let a cursor wait has the same effects on both, and they still agree after it.
-/

namespace CaretLayout

/-- The settings with another time of rest. -/
def Settings.withQuiet (s : Settings) (quiet : Nat) : Settings :=
  { s with quiet := quiet }

namespace Switchboard

variable {s : Settings} {quiet quiet' : Nat} {b b' b₀ : Switchboard}

/-- That two switchboards keep the same sessions with the same dispatchers. -/
structure Agree (b b' : Switchboard) : Prop where
  enabled : b.enabled = b'.enabled
  dispatcher : ∀ name, (b.sessions.find? name).map (·.dispatcher) =
    (b'.sessions.find? name).map (·.dispatcher)

theorem Agree.symm (h : Agree b b') : Agree b' b :=
  ⟨h.enabled.symm, fun name => (h.dispatcher name).symm⟩

theorem Agree.trans (h : Agree b b') (h' : Agree b' b₀) : Agree b b₀ :=
  ⟨h.enabled.trans h'.enabled, fun name => (h.dispatcher name).trans (h'.dispatcher name)⟩

/-- That two operations have the same effects and leave switchboards that agree. -/
structure Same (p p' : Switchboard × List Effect) : Prop where
  agree : Agree p.1 p'.1
  effects : p.2 = p'.2

theorem Same.trans {p p' p'' : Switchboard × List Effect} (h : Same p p') (h' : Same p' p'') :
    Same p p'' :=
  ⟨h.agree.trans h'.agree, h.effects.trans h'.effects⟩

/-- A new session has the same dispatcher whatever the time of rest. -/
theorem Agree.session (h : Agree b b') (name : String) :
    (b.session (s.withQuiet quiet) name).dispatcher =
      (b'.session (s.withQuiet quiet') name).dispatcher := by
  have hname := h.dispatcher name
  unfold Switchboard.session
  rcases hb : b.sessions.find? name with _ | session
  · rcases hb' : b'.sessions.find? name with _ | session'
    · rw [h.enabled]
      rfl
    · rw [hb, hb'] at hname
      cases hname
  · rcases hb' : b'.sessions.find? name with _ | session'
    · rw [hb, hb'] at hname
      cases hname
    · rw [hb, hb'] at hname
      exact Option.some.inj hname

/-- It is the same to dispatch a cursor where the dispatcher of its session is the same and the other
sessions agree. -/
theorem same_dispatch_of (c : CursorEvent) (hon : b.enabled = b'.enabled)
    (hown : (b.session (s.withQuiet quiet) c.session).dispatcher =
      (b'.session (s.withQuiet quiet') c.session).dispatcher)
    (hothers : ∀ name, c.session ≠ name → (b.sessions.find? name).map (·.dispatcher) =
      (b'.sessions.find? name).map (·.dispatcher)) :
    Same (b.dispatch (s.withQuiet quiet) c) (b'.dispatch (s.withQuiet quiet') c) := by
  have hmoved : (b.session (s.withQuiet quiet) c.session).dispatcher.cursorMoved s.table
      (c.view s.lookback) = (b'.session (s.withQuiet quiet') c.session).dispatcher.cursorMoved
        s.table (c.view s.lookback) := by rw [hown]
  refine ⟨⟨hon, fun name => ?_⟩, congrArg (fun p : Dispatcher × Outcome => effectsOf c.session p.2) hmoved⟩
  show ((b.sessions.insert _ _).find? name).map _ = ((b'.sessions.insert _ _).find? name).map _
  rw [Keyed.find?_insert, Keyed.find?_insert]
  by_cases hname : c.session = name
  · rw [if_pos hname, if_pos hname]
    exact congrArg (fun p : Dispatcher × Outcome => some p.1) hmoved
  · rw [if_neg hname, if_neg hname]
    exact hothers name hname

theorem Agree.dispatch (h : Agree b b') (c : CursorEvent) :
    Same (b.dispatch (s.withQuiet quiet) c) (b'.dispatch (s.withQuiet quiet') c) :=
  same_dispatch_of c h.enabled (h.session c.session) fun name _ => h.dispatcher name

/-- A cursor that waits makes no difference to its own dispatch. -/
theorem same_dispatch_schedule (s : Settings) (quiet now : Nat) (b : Switchboard)
    (c : CursorEvent) :
    Same ((b.schedule (s.withQuiet quiet) now c).dispatch (s.withQuiet quiet) c)
      (b.dispatch (s.withQuiet quiet) c) := by
  have hfind : ∀ name, (b.schedule (s.withQuiet quiet) now c).sessions.find? name =
      if c.session = name then some { b.session (s.withQuiet quiet) c.session with
        debouncer := (b.session (s.withQuiet quiet) c.session).debouncer.schedule now c }
      else b.sessions.find? name :=
    fun name => Keyed.find?_insert _ _ _ _
  refine same_dispatch_of c rfl ?_ fun name hname => ?_
  · unfold Switchboard.session
    rw [hfind, if_pos rfl]
    rfl
  · rw [hfind, if_neg hname]

theorem agree_withoutDue (now : Nat) (b : Switchboard) : Agree (b.withoutDue now) b where
  enabled := rfl
  dispatcher := fun name => by
    show ((b.sessions.mapValues _).find? name).map _ = _
    rw [Keyed.find?_mapValues, Option.map_map]
    rfl

theorem Agree.toggle (h : Agree b b') : Same b.toggle b'.toggle where
  effects := congrArg (fun on => [Effect.message (.enabled (!on))]) h.enabled
  agree.enabled := congrArg (!·) h.enabled
  agree.dispatcher := fun name => by
    have hmap := congrArg (Option.map fun d => (d.setEnabled (!b.enabled)).1) (h.dispatcher name)
    rw [Option.map_map, Option.map_map] at hmap
    show ((b.sessions.mapValues (Session.setEnabled (!b.enabled))).find? name).map _ =
      ((b'.sessions.mapValues (Session.setEnabled (!b'.enabled))).find? name).map _
    rw [← h.enabled, Keyed.find?_mapValues, Keyed.find?_mapValues, Option.map_map, Option.map_map]
    exact hmap

theorem Agree.close (h : Agree b b') (closed : String) :
    Agree { b with sessions := b.sessions.erase closed }
      { b' with sessions := b'.sessions.erase closed } where
  enabled := h.enabled
  dispatcher := fun name => by
    show ((b.sessions.erase closed).find? name).map _ = ((b'.sessions.erase closed).find? name).map _
    rw [Keyed.find?_erase, Keyed.find?_erase]
    split_ifs
    · rfl
    · exact h.dispatcher name

end Switchboard

end CaretLayout
