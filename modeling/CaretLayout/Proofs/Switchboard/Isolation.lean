import CaretLayout.Proofs.Switchboard.Sound

/-!
# Sessions do not interfere

What happens to a session is decided by its own cursors and closings, by the toggles and by the
times of the visits.  A run without everything else tells the host the same modes of the session and
leaves the same of it (`run_without_others`), in whatever order either run visits the sessions.
-/

namespace CaretLayout

/-- Whether something that happens can matter to a session: everything but the cursors and closings
of other sessions, the requests for layouts and what is heard of the agent. -/
def Moment.concerns (name : String) : Moment → Bool
  | .event _ (.host (.cursor c)) => c.session == name
  | .event _ (.host (.close closed)) => closed == name
  | .event _ (.host .listLayouts) => false
  | .event _ (.agent _) => false
  | .event _ (.agentExited _) => false
  | _ => true

namespace Lane

variable {s : Settings} {name : String}

theorem step_of_not_concerns {m : Moment} (h : m.concerns name = false) (l : Lane) :
    l.step s name m = (l, []) := by
  match m with
  | .event now (.host (.cursor c)) =>
    have hc : ¬ c.session = name := by simpa [Moment.concerns] using h
    exact if_neg hc
  | .event now (.host (.close closed)) =>
    have hc : ¬ closed = name := by simpa [Moment.concerns] using h
    exact if_neg hc
  | .event now (.host .listLayouts) => rfl
  | .event now (.agent _) => rfl
  | .event now (.agentExited _) => rfl
  | .event now (.host .toggle) => cases h
  | .event now (.host .shutdown) => cases h
  | .event now .shutdown => cases h
  | .flush now => cases h

/-- A lane goes through the same without what does not concern it. -/
theorem run_filter_concerns (s : Settings) (name : String) : ∀ (l : Lane) (ms : List Moment),
    (l.run s name (ms.filter (·.concerns name))).1 = (l.run s name ms).1 ∧
      (l.run s name (ms.filter (·.concerns name))).2.flatten = (l.run s name ms).2.flatten
  | l, [] => ⟨rfl, rfl⟩
  | l, m :: ms => by
    by_cases hm : m.concerns name = true
    · obtain ⟨ih1, ih2⟩ := run_filter_concerns s name (l.step s name m).1 ms
      rw [List.filter_cons_of_pos hm]
      simp only [run, List.flatten_cons]
      exact ⟨ih1, by rw [ih2]⟩
    · have hstep := step_of_not_concerns (s := s) (by simpa using hm) l
      rw [List.filter_cons_of_neg hm]
      simp only [run, hstep, List.flatten_cons, List.nil_append]
      exact run_filter_concerns s name l ms

end Lane

namespace Switchboard

open Effect (modesOf)

/-- Whatever happens, some run goes through it. -/
theorem exists_visits (s : Settings) : ∀ (ms : List Moment) (b : Switchboard),
    ∃ steps, Visits s b steps ∧ steps.map Step.moment = ms
  | [], _ => ⟨[], trivial, rfl⟩
  | .event now e :: ms, b => by
    obtain ⟨steps, hv, hms⟩ := exists_visits s ms (b.step s (.event now e)).1
    exact ⟨.event now e :: steps, ⟨trivial, hv⟩, by rw [List.map_cons, hms]; rfl⟩
  | .flush now :: ms, b => by
    obtain ⟨steps, hv, hms⟩ := exists_visits s ms (b.step s (.flush now b.sessions.keys)).1
    exact ⟨.flush now b.sessions.keys :: steps, ⟨List.Perm.refl _, hv⟩,
      by rw [List.map_cons, hms]; rfl⟩

/-- **Sessions do not interfere.**  Leave out of a run what does not concern a session.  There is a
run of what is left, and every such run, whatever the orders of its visits, has the same mode
messages for the session and ends with the same dispatcher and debouncer of it. -/
theorem run_without_others (s : Settings) (steps : List Step) (hv : Visits s (initial s) steps)
    (name : String) :
    (∃ own, Visits s (initial s) own ∧
      own.map Step.moment = (steps.map Step.moment).filter (·.concerns name)) ∧
    ∀ own, Visits s (initial s) own →
      own.map Step.moment = (steps.map Step.moment).filter (·.concerns name) →
      modesOf name ((initial s).run s own).2.flatten =
          modesOf name ((initial s).run s steps).2.flatten ∧
        ((initial s).run s own).1.sessions.find? name =
          ((initial s).run s steps).1.sessions.find? name := by
  refine ⟨exists_visits s _ _, fun own hown hsame => ?_⟩
  have hsound := sound_initial s
  obtain ⟨hlane, hmodes⟩ := Lane.run_filter_concerns s name ((initial s).lane name)
    (steps.map Step.moment)
  rw [← hsame] at hlane hmodes
  constructor
  · rw [hsound.modesOf_run hown, hsound.modesOf_run hv, hmodes]
  · rw [← (hsound.lane_run name hown).1, ← (hsound.lane_run name hv).1] at hlane
    exact congrArg Lane.session hlane

/-- Without the other session and the request for layouts, the session `a` of the small run goes
through the same. -/
theorem smallRun_without_others :
    modesOf "a" ((initial (.small 100)).run (.small 100)
        [.event 0 (.host (.cursor (.small "a" 5))), .flush 115 ["a"], .event 155 (.host .toggle),
          .event 157 (.host .toggle), .event 160 (.host (.cursor (.small "a" 1))),
          .flush 300 ["a"]]).2.flatten =
      modesOf "a" ((initial (.small 100)).run (.small 100) smallRun).2.flatten :=
  ((run_without_others (.small 100) smallRun (by decide) "a").2 _ (by decide) (by decide)).1

end Switchboard

end CaretLayout
