import CaretLayout.Proofs.Dispatch.Epochs
import CaretLayout.Proofs.Switchboard.Waiting

/-!
# Epochs of a session

Without a time of rest a session is told of each change of its scope.  An *epoch* begins with the
first cursor, after the session has been closed and when switching is turned on again; in it the
host is told of a scope unless the last one was the same, and nothing is known of the scopes before
it.

`Moment.history` is what has happened to a session, the scopes of its cursors and the ends of its
epochs, and what is told of it is its `epochScopes`.  `Lane.Fits.run_changes` is the theorem for a
lane.
-/

namespace CaretLayout

/-! ### What has happened to a session -/

namespace Moment

/-- What something that happens adds to the history of a session, while switching is on or off: the
scope of a cursor, or `none` where an epoch ends. -/
def mark (s : Settings) (name : String) (on : Bool) : Moment → Option (Option Scope)
  | .event _ (.host (.cursor c)) =>
    if c.session = name ∧ on = true ∧ c.isLeftAlone s = false then some (some (c.scope s)) else none
  | .event _ (.host (.close closed)) => if closed = name then some none else none
  | .event _ (.host .toggle) => if on then none else some none
  | _ => none

/-- Whether switching is on after something has happened. -/
def enabledAfter (on : Bool) : Moment → Bool
  | .event _ (.host .toggle) => !on
  | _ => on

/-- The scopes of a session, with `none` where an epoch ends.  Whether switching is on at first is
given. -/
def history (s : Settings) (name : String) : Bool → List Moment → List (Option Scope)
  | _, [] => []
  | on, m :: more => (m.mark s name on).toList ++ history s name (m.enabledAfter on) more

/-- What does not disturb a session adds nothing to its history. -/
theorem mark_of_rest {name : String} {m : Moment} (hm : m.disturbs name = false) (s : Settings)
    (on : Bool) : m.mark s name on = none ∧ m.enabledAfter on = on := by
  match m with
  | .event _ (.host (.cursor c)) =>
    have hc : ¬ c.session = name := beq_eq_false_iff_ne.mp hm
    exact ⟨if_neg fun h => hc h.1, rfl⟩
  | .event _ (.host (.close closed)) => exact ⟨if_neg (beq_eq_false_iff_ne.mp hm), rfl⟩
  | .event _ (.host .toggle) => cases hm
  | .event _ (.host .listLayouts) => exact ⟨rfl, rfl⟩
  | .event _ (.host .shutdown) => exact ⟨rfl, rfl⟩
  | .event _ (.agent _) => exact ⟨rfl, rfl⟩
  | .event _ (.agentExited _) => exact ⟨rfl, rfl⟩
  | .event _ .shutdown => exact ⟨rfl, rfl⟩
  | .flush _ => exact ⟨rfl, rfl⟩

end Moment

/-! ### What a lane tells -/

namespace Lane

variable {s : Settings} {name : String} {l : Lane}

/-- The scope that the session of a lane has seen last. -/
def last (l : Lane) : Option Scope :=
  l.session.bind (·.dispatcher.current)

theorem last_present (s : Settings) (l : Lane) : (l.present s).dispatcher.current = l.last := by
  unfold present last
  rcases l.session with _ | session <;> rfl

theorem Fits.last_toggle (h : l.Fits s name) :
    l.toggle.last = if l.enabled then l.last else none := by
  obtain ⟨on, session⟩ := l
  rcases session with _ | session
  · cases on <;> rfl
  · have hon := (h session rfl).enabled
    cases on
    · show (if (true && !session.dispatcher.enabled) = true then none else _) = none
      rw [hon]
      rfl
    · rfl

/-- What a session that has seen a scope last is told of another one. -/
def told (s : Settings) (name : String) (last : Option Scope) (k : Scope) : List HostMessage :=
  if last = some k then [] else [.mode name k.name (s.layouts.of k)]

theorem Fits.dispatch_last (h : l.Fits s name) (hon : l.enabled = true) {c : CursorEvent}
    (hc : c.session = name) (hx : c.isLeftAlone s = false) :
    (l.dispatch s c).1.last = some (c.scope s) ∧
      (l.dispatch s c).2 = told s name l.last (c.scope s) := by
  rw [← last_present s l]
  by_cases hcur : (l.present s).dispatcher.current = some (c.scope s)
  · rw [h.dispatch_of_quiet (Or.inr (Or.inr hcur)), told, if_pos hcur]
    exact ⟨hcur, rfl⟩
  · rw [h.dispatch_of_change hon hx hcur, told, if_neg hcur, ← hc]
    exact ⟨rfl, rfl⟩

/-- **One step of a lane** where there is no time of rest: nothing, the end of an epoch, or the
scope of a cursor, which the session is told of if it is a new one. -/
theorem Fits.step_prompt (h : l.Fits s name) (hq : s.quiet = 0) (m : Moment) :
    (l.step s name m).1.enabled = m.enabledAfter l.enabled ∧
    ((m.mark s name l.enabled = none ∧ (l.step s name m).1.last = l.last ∧
        (l.step s name m).2 = []) ∨
      (m.mark s name l.enabled = some none ∧ (l.step s name m).1.last = none ∧
        (l.step s name m).2 = []) ∨
      ∃ k, m.mark s name l.enabled = some (some k) ∧ (l.step s name m).1.last = some k ∧
        (l.step s name m).2 = told s name l.last k) := by
  rcases hm : m.disturbs name with _ | _
  · obtain ⟨hmark, hon⟩ := Moment.mark_of_rest hm s l.enabled
    have hstep : l.step s name m = (l, []) := step_of_rest hm fun w hw => by
      rw [← waiting_present s l, h.present.prompt hq] at hw
      cases hw
    rw [hstep]
    exact ⟨hon.symm, Or.inl ⟨hmark, rfl, rfl⟩⟩
  · rcases Moment.disturbs_iff.mp hm with ⟨t, c, rfl, hc⟩ | ⟨t, rfl⟩ | ⟨t, rfl⟩
    · rw [step_cursor s l t hc]
      rcases hon : l.enabled with _ | _
      · rw [cursor_of_off s hon]
        exact ⟨hon, Or.inl ⟨if_neg fun h => (by cases h.2.1), rfl, rfl⟩⟩
      · rw [cursor_of_prompt hq hon]
        rcases hx : c.isLeftAlone s with _ | _
        · obtain ⟨hlast, htold⟩ := h.dispatch_last hon hc hx
          exact ⟨hon, Or.inr (Or.inr ⟨c.scope s, if_pos ⟨hc, rfl, hx⟩, hlast, htold⟩)⟩
        · rw [h.dispatch_of_quiet (Or.inr (Or.inl hx))]
          refine ⟨hon, Or.inl ⟨if_neg fun h => ?_, last_present s l, rfl⟩⟩
          rw [hx] at h
          cases h.2.2
    · rw [step_close]
      exact ⟨rfl, Or.inr (Or.inl ⟨if_pos rfl, rfl, rfl⟩)⟩
    · refine ⟨rfl, ?_⟩
      have hlast := h.last_toggle
      rcases hon : l.enabled with _ | _
      · rw [hon] at hlast
        exact Or.inr (Or.inl ⟨rfl, hlast, rfl⟩)
      · rw [hon] at hlast
        exact Or.inl ⟨rfl, hlast, rfl⟩

/-- What a lane tells where there is no time of rest is the changes of its history. -/
theorem Fits.run_changes (hq : s.quiet = 0) : ∀ {l : Lane} (ms : List Moment), l.Fits s name →
    (l.run s name ms).2.flatten = (changes l.last (Moment.history s name l.enabled ms)).map
      fun k => .mode name k.name (s.layouts.of k)
  | _, [], _ => rfl
  | l, m :: ms, h => by
    -- the flag of the history is that of the lane after each step
    have ih := Fits.run_changes hq ms (h.step m)
    obtain ⟨hon, hcases⟩ := h.step_prompt hq m
    rw [hon] at ih
    simp only [Lane.run, List.flatten_cons, ih, Moment.history]
    rcases hcases with ⟨hmark, hlast, htold⟩ | ⟨hmark, hlast, htold⟩ | ⟨k, hmark, hlast, htold⟩
    · rw [hmark, hlast, htold]
      rfl
    · rw [hmark, hlast, htold]
      rfl
    · rw [hmark, hlast, htold, told, Option.toList_some, List.singleton_append, changes]
      by_cases hk : l.last = some k
      · rw [if_pos hk, if_pos hk, List.nil_append, hk]
      · rw [if_neg hk, if_neg hk]
        rfl

end Lane

end CaretLayout
