import CaretLayout.Proofs.Switchboard.Session
import CaretLayout.Switchboard.Run
import Mathlib.Tactic.SplitIfs

/-!
# Lanes

What happens to a session depends on the other sessions in no way.  A *lane* is all that one session
can see of the switchboard: whether switching is on, and what is kept of the session.  Lanes take
the same steps as the switchboard, but a visit of all sessions is to them only a time
(`Moment.flush`), and they give out only the messages that tell the mode of their session.

`Lane.Fits` is what holds of a lane, and `Lane.Fits.run` that it goes on to hold.
-/

namespace CaretLayout

/-! ### Mode messages -/

/-- Whether a message tells the mode of a session. -/
def HostMessage.isModeOf (name : String) : HostMessage → Bool
  | .mode session _ _ => session == name
  | _ => false

/-- The messages among effects that tell the mode of a session. -/
def Effect.modesOf (name : String) (l : List Effect) : List HostMessage :=
  (Effect.messages l).filter (HostMessage.isModeOf name)

namespace Effect

@[simp] theorem modesOf_nil (name : String) : modesOf name [] = [] := rfl

theorem modesOf_append (name : String) (l l' : List Effect) :
    modesOf name (l ++ l') = modesOf name l ++ modesOf name l' := by
  simp only [modesOf, messages, List.filterMap_append, List.filter_append]

theorem modesOf_flatten (name : String) : ∀ ls : List (List Effect),
    modesOf name ls.flatten = (ls.map (modesOf name)).flatten
  | [] => rfl
  | l :: ls => by
    rw [List.flatten_cons, modesOf_append, modesOf_flatten name ls, List.map_cons,
      List.flatten_cons]

end Effect

/-! ### Lanes -/

/-- What happens at a time: an event, or a visit of all sessions. -/
inductive Moment where
  | event (now : Nat) (e : Event)
  | flush (now : Nat)
deriving DecidableEq, Repr

/-- A step without the order in which it visits the sessions. -/
def Switchboard.Step.moment : Switchboard.Step → Moment
  | .event now e => .event now e
  | .flush now _ => .flush now

/-- What a session can see of the switchboard. -/
structure Lane where
  /-- Whether switching is on. -/
  enabled : Bool
  /-- What is kept of the session, if anything. -/
  session : Option Session

/-- The lane of a session. -/
def Switchboard.lane (b : Switchboard) (name : String) : Lane :=
  ⟨b.enabled, b.sessions.find? name⟩

/-- What the host is told of a switch. -/
def Switch.messages (session : String) (w : Option Switch) : List HostMessage :=
  (w.map fun w => HostMessage.mode session w.scope.name w.layout).toList

namespace Lane

/-- The session of a lane, a new one if there is none yet. -/
def present (s : Settings) (l : Lane) : Session :=
  l.session.getD (.new s l.enabled)

/-- Hands a cursor to the dispatcher of the session. -/
def dispatch (s : Settings) (l : Lane) (c : CursorEvent) : Lane × List HostMessage :=
  let (dispatcher, outcome) := (l.present s).dispatcher.cursorMoved s.table (c.view s.lookback)
  (⟨l.enabled, some { l.present s with dispatcher := dispatcher }⟩,
   Switch.messages c.session outcome.switch)

/-- Hands on a cursor if there is one. -/
def dispatch? (s : Settings) (l : Lane) : Option CursorEvent → Lane × List HostMessage
  | some c => l.dispatch s c
  | none => (l, [])

/-- Lets a cursor wait. -/
def schedule (s : Settings) (now : Nat) (l : Lane) (c : CursorEvent) : Lane :=
  ⟨l.enabled,
   some { l.present s with debouncer := (l.present s).debouncer.schedule now c }⟩

/-- Takes in a cursor of the session, unless switching is off. -/
def cursor (s : Settings) (now : Nat) (l : Lane) (c : CursorEvent) : Lane × List HostMessage :=
  if !l.enabled then (l, [])
  else if s.quiet = 0 then l.dispatch s c
  else (l.schedule s now c, [])

/-- Turns switching off if it is on, and on if it is off. -/
def toggle (l : Lane) : Lane :=
  ⟨!l.enabled, l.session.map (Session.setEnabled (!l.enabled))⟩

/-- Takes in an event.  Cursors and closings of other sessions are ignored. -/
def handle (s : Settings) (name : String) (now : Nat) (l : Lane) : Event → Lane × List HostMessage
  | .host (.cursor c) => if c.session = name then l.cursor s now c else (l, [])
  | .host .toggle => (l.toggle, [])
  | .host (.close closed) => if closed = name then (⟨l.enabled, none⟩, []) else (l, [])
  | _ => (l, [])

/-- The cursor that is due, if one is. -/
def due (now : Nat) (l : Lane) : Option CursorEvent :=
  l.session.bind fun session => (session.debouncer.poll now).2

/-- The lane without the cursor that is due. -/
def withoutDue (now : Nat) (l : Lane) : Lane :=
  ⟨l.enabled, l.session.map (Session.withoutDue now)⟩

/-- Dispatches the cursor if it is due. -/
def flush (s : Settings) (now : Nat) (l : Lane) : Lane × List HostMessage :=
  (l.withoutDue now).dispatch? s (l.due now)

/-- Takes a step. -/
def step (s : Settings) (name : String) (l : Lane) : Moment → Lane × List HostMessage
  | .event now e => l.handle s name now e
  | .flush now => l.flush s now

/-- Takes steps in order, with the mode messages of each. -/
def run (s : Settings) (name : String) : Lane → List Moment → Lane × List (List HostMessage)
  | l, [] => (l, [])
  | l, m :: more =>
    ((run s name (l.step s name m).1 more).1,
     (l.step s name m).2 :: (run s name (l.step s name m).1 more).2)

theorem run_append (s : Settings) (name : String) : ∀ (l : Lane) (first second : List Moment),
    l.run s name (first ++ second) =
      (((l.run s name first).1.run s name second).1,
       (l.run s name first).2 ++ ((l.run s name first).1.run s name second).2)
  | l, [], second => rfl
  | l, m :: first, second => by
    simp only [List.cons_append, run, run_append s name _ first second]

variable {s : Settings} {name : String} {l : Lane}

theorem step_cursor (s : Settings) (l : Lane) (now : Nat) {c : CursorEvent}
    (hc : c.session = name) :
    l.step s name (.event now (.host (.cursor c))) = l.cursor s now c :=
  if_pos hc

theorem step_close (s : Settings) (l : Lane) (now : Nat) :
    l.step s name (.event now (.host (.close name))) = (⟨l.enabled, none⟩, []) :=
  if_pos rfl

/-! ### Taking in a cursor -/

theorem cursor_of_off (s : Settings) (hoff : l.enabled = false) (now : Nat) (c : CursorEvent) :
    l.cursor s now c = (l, []) := by
  rw [cursor, hoff, if_pos (by decide)]

/-- A cursor that comes while switching is on is dispatched at once if there is no time of rest. -/
theorem cursor_of_prompt (hq : s.quiet = 0) (hon : l.enabled = true) (now : Nat) (c : CursorEvent) :
    l.cursor s now c = l.dispatch s c := by
  rw [cursor, hon, if_neg (by decide), if_pos hq]

/-- A cursor that comes while switching is on waits if there is a time of rest. -/
theorem cursor_of_rest (hq : s.quiet ≠ 0) (hon : l.enabled = true) (now : Nat) (c : CursorEvent) :
    l.cursor s now c = (l.schedule s now c, []) := by
  rw [cursor, hon, if_neg (by decide), if_neg hq]

/-! ### What holds of a lane -/

/-- What holds of the lane of a session. -/
def Fits (s : Settings) (name : String) (l : Lane) : Prop :=
  ∀ session, l.session = some session → session.Fits s l.enabled name

theorem Fits.present (h : l.Fits s name) : (l.present s).Fits s l.enabled name := by
  unfold Lane.present
  rcases hs : l.session with _ | session
  · exact Session.fits_new s l.enabled name
  · exact h session hs

theorem fits_some {on : Bool} {session : Session} (h : session.Fits s on name) :
    Fits s name ⟨on, some session⟩ := by
  intro other ho
  rw [← Option.some.inj ho]
  exact h

theorem dispatch_eq (s : Settings) (l : Lane) (c : CursorEvent) : l.dispatch s c =
    (⟨l.enabled, some { l.present s with
        dispatcher := ((l.present s).dispatcher.cursorMoved s.table (c.view s.lookback)).1 }⟩,
     Switch.messages c.session
      ((l.present s).dispatcher.cursorMoved s.table (c.view s.lookback)).2.switch) := rfl

/-- A cursor is dispatched without a message if switching is off, if its view is left alone or if
the session has its scope already. -/
theorem Fits.dispatch_of_quiet (h : l.Fits s name) {c : CursorEvent} (hq : l.enabled = false ∨
      c.isLeftAlone s = true ∨ (l.present s).dispatcher.current = some (c.scope s)) :
    l.dispatch s c = (⟨l.enabled, some (l.present s)⟩, []) := by
  have hquiet : (l.present s).dispatcher.enabled = false ∨
      (l.present s).dispatcher.isExcluded (c.view s.lookback).language
        (c.view s.lookback).contentKind = true ∨
      (l.present s).dispatcher.current = some ((c.view s.lookback).scope s.table) := by
    rw [h.present.enabled, h.present.isExcluded, CursorEvent.scope_view]
    exact hq
  obtain ⟨hd, hw, -⟩ := Dispatcher.cursorMoved_of_quiet hquiet
  rw [dispatch_eq, hd, hw]
  rfl

/-- Otherwise the session takes its scope over, and the host is told. -/
theorem Fits.dispatch_of_change (h : l.Fits s name) {c : CursorEvent} (hon : l.enabled = true)
    (hx : c.isLeftAlone s = false) (hc : (l.present s).dispatcher.current ≠ some (c.scope s)) :
    l.dispatch s c = (⟨l.enabled, some { l.present s with
        dispatcher := { (l.present s).dispatcher with current := some (c.scope s) } }⟩,
      [c.modeMessage s]) := by
  obtain ⟨hd, hw, -⟩ := Dispatcher.cursorMoved_of_change (h.present.enabled.trans hon)
    ((h.present.isExcluded c).trans hx) hc
  rw [dispatch_eq, hd, hw, CursorEvent.scope_view]
  refine Prod.ext rfl ?_
  show Switch.messages c.session (some ⟨_, (l.present s).dispatcher.layouts.of _⟩) = _
  rw [h.present.layouts]
  rfl

theorem Fits.dispatch (h : l.Fits s name) (c : CursorEvent) : (l.dispatch s c).1.Fits s name :=
  fits_some (h.present.dispatched s.table (c.view s.lookback))

theorem Fits.schedule (h : l.Fits s name) (hq : s.quiet ≠ 0) (hon : l.enabled = true) (now : Nat)
    {c : CursorEvent} (hc : c.session = name) : (l.schedule s now c).Fits s name := by
  have hp := h.present
  rw [hon] at hp
  rw [Lane.schedule, hon]
  exact fits_some (hp.scheduled hq now hc)

theorem Fits.cursor (h : l.Fits s name) (now : Nat) {c : CursorEvent} (hc : c.session = name) :
    (l.cursor s now c).1.Fits s name := by
  rcases hon : l.enabled with _ | _
  · rw [cursor_of_off s hon]
    exact h
  · by_cases hq : s.quiet = 0
    · rw [cursor_of_prompt hq hon]
      exact h.dispatch c
    · rw [cursor_of_rest hq hon]
      exact h.schedule hq hon now hc

theorem Fits.toggle (h : l.Fits s name) : l.toggle.Fits s name := by
  intro session hs
  obtain ⟨old, ho, rfl⟩ := Option.map_eq_some_iff.mp hs
  exact (h old ho).setEnabled _

theorem Fits.withoutDue (h : l.Fits s name) (now : Nat) : (l.withoutDue now).Fits s name := by
  intro session hs
  obtain ⟨old, ho, rfl⟩ := Option.map_eq_some_iff.mp hs
  exact (h old ho).withoutDue now

theorem Fits.flush (h : l.Fits s name) (now : Nat) : (l.flush s now).1.Fits s name := by
  unfold Lane.flush
  rcases l.due now with _ | c
  · exact h.withoutDue now
  · exact (h.withoutDue now).dispatch c

/-- A step of a lane preserves what holds of it. -/
theorem Fits.step (h : l.Fits s name) (m : Moment) : (l.step s name m).1.Fits s name := by
  cases m with
  | flush now => exact h.flush now
  | event now e =>
    change (l.handle s name now e).1.Fits s name
    unfold Lane.handle
    split
    · split_ifs with hc
      · exact h.cursor now hc
      · exact h
    · exact h.toggle
    · split_ifs
      · exact fun session hs => by cases hs
      · exact h
    · exact h

theorem Fits.run : ∀ {l : Lane}, l.Fits s name → ∀ ms : List Moment, (l.run s name ms).1.Fits s name
  | _, h, [] => h
  | _, h, m :: more => Fits.run (h.step m) more

end Lane

end CaretLayout
