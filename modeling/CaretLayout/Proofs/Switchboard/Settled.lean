import CaretLayout.Proofs.Switchboard.Sound
import CaretLayout.Proofs.Switchboard.Waiting

/-!
# With a time of rest only settled cursors are told of, and all of them

A cursor is settled when its session has not been disturbed for the time of rest, that is, when
there was no other cursor of the session, no closing of it and no toggle.  Where there is a time of
rest, the host is told of the scopes of settled cursors and of no others, of each at most once, and
a cursor that settles is not lost (`settles_run`).

The times of the steps need not be in order.
-/

namespace CaretLayout.Switchboard

open Effect (modesOf)

variable {s : Settings} {steps : List Step} {name : String}

/-- Whether a step ends the rest of a session: a cursor of it, its closing, or a toggle. -/
def Step.disturbs (name : String) (next : Step) : Bool :=
  next.moment.disturbs name

/-- Whether a step is a visit at or after a deadline. -/
def Step.isVisitFrom (deadline : Nat) (next : Step) : Bool :=
  next.moment.isVisitFrom deadline

/-- That a run ends with a session at rest since one of its cursors, which came at a time while
switching was on. -/
def RestsSince (s : Settings) (name : String) (t : Nat) (c : CursorEvent) (steps : List Step) :
    Prop :=
  ∃ early late, steps = early ++ .event t (.host (.cursor c)) :: late ∧ c.session = name ∧
    ((initial s).run s early).1.enabled = true ∧ ∀ next ∈ late, next.disturbs name = false

/-- The effects of a part of a run. -/
def effectsFrom (s : Settings) (before part : List Step) : List Effect :=
  (((initial s).run s before).1.run s part).2.flatten

/-- What holds of the mode messages of a session where there is a time of rest. -/
structure Settles (s : Settings) (name : String) (steps : List Step) : Prop where
  /-- The host is told only in visits, and only of cursors that have settled. -/
  fresh : ∀ before next after, steps = before ++ next :: after →
    ∀ x ∈ modesOf name (effectsFrom s before [next]),
      ∃ now order t c, next = .flush now order ∧ RestsSince s name t c before ∧
        t + s.quiet ≤ now ∧ x = c.modeMessage s
  /-- The host is told at most once of a cursor before its session is disturbed, and by `fresh` not
  at all afterwards. -/
  once : ∀ before t c late after, steps = before ++ .event t (.host (.cursor c)) :: late ++ after →
    c.session = name → (∀ next ∈ late, next.disturbs name = false) →
    (modesOf name (effectsFrom s before (.event t (.host (.cursor c)) :: late))).length ≤ 1
  /-- A cursor that settles decides the scope of its session. -/
  kept : ∀ before t c late now order after,
    steps = before ++ .event t (.host (.cursor c)) :: late ++ .flush now order :: after →
    c.session = name → ((initial s).run s before).1.enabled = true → c.isLeftAlone s = false →
    (∀ next ∈ late, next.disturbs name = false ∧ next.isVisitFrom (t + s.quiet) = false) →
    t + s.quiet ≤ now →
    ∃ session,
      ((initial s).run s (before ++ .event t (.host (.cursor c)) :: late ++
          [.flush now order])).1.sessions.find? name = some session ∧
        session.dispatcher.current = some (c.scope s)

/-! ### From the lanes to the switchboard -/

theorem Step.eq_event_of_moment {next : Step} {now : Nat} {e : Event}
    (h : next.moment = .event now e) : next = .event now e := by
  cases next with
  | event now' e' => cases h; rfl
  | flush now' order => cases h

theorem Step.exists_eq_flush_of_moment {next : Step} {now : Nat} (h : next.moment = .flush now) :
    ∃ order, next = .flush now order := by
  cases next with
  | event now' e' => cases h
  | flush now' order => cases h; exact ⟨order, rfl⟩

theorem lane_run_initial (name : String) (hv : Visits s (initial s) steps) :
    ((initial s).run s steps).1.lane name =
      (((initial s).lane name).run s name (steps.map Step.moment)).1 :=
  ((sound_initial s).lane_run name hv).1

theorem lane_run_append (name : String) {before part : List Step}
    (hv : Visits s (initial s) (before ++ part)) :
    ((initial s).run s (before ++ part)).1.lane name =
      ((((initial s).run s before).1.lane name).run s name (part.map Step.moment)).1 := by
  obtain ⟨hbefore, hpart⟩ := (visits_append s _ before part).mp hv
  rw [run_append]
  exact (((sound_initial s).run hbefore).lane_run name hpart).1

theorem modesOf_effectsFrom (name : String) {before part : List Step}
    (hv : Visits s (initial s) (before ++ part)) :
    modesOf name (effectsFrom s before part) =
      ((((initial s).run s before).1.lane name).run s name (part.map Step.moment)).2.flatten := by
  obtain ⟨hbefore, hpart⟩ := (visits_append s _ before part).mp hv
  exact ((sound_initial s).run hbefore).modesOf_run hpart name

/-- A cursor that waits after a run is one since which its session has been at rest. -/
theorem restsSince_of_waiting (hq : s.quiet ≠ 0) (hv : Visits s (initial s) steps)
    {w : Waiting CursorEvent} (hw : (((initial s).run s steps).1.lane name).waiting = some w) :
    ∃ t c, RestsSince s name t c steps ∧ w = ⟨c, t + s.quiet⟩ := by
  rw [lane_run_initial name hv] at hw
  rcases ((sound_initial s).fits name).waiting_run hq hw with ⟨hw', -⟩ |
    ⟨early, t, c, late, hms, hc, hon, hlate, hwc⟩
  · cases hw'
  · obtain ⟨earlySteps, rest, rfl, rfl, hrest⟩ := List.map_eq_append_iff.mp hms
    obtain ⟨next, lateSteps, rfl, hnext, rfl⟩ := List.map_eq_cons_iff.mp hrest
    obtain rfl := Step.eq_event_of_moment hnext
    have hearly := ((visits_append s _ earlySteps _).mp hv).1
    rw [← lane_run_initial name hearly] at hon
    exact ⟨t, c, ⟨earlySteps, lateSteps, rfl, hc, hon,
      fun next hnext => hlate next.moment (List.mem_map_of_mem hnext)⟩, hwc⟩

/-! ### The theorem -/

/-- **Where there is a time of rest, only settled cursors are told of, each at most once, and no
settled cursor is lost.** -/
theorem settles_run (hq : s.quiet ≠ 0) (hv : Visits s (initial s) steps) (name : String) :
    Settles s name steps where
  fresh := by
    rintro before next after rfl x hx
    rw [List.append_cons] at hv
    have hfirst := ((visits_append s _ (before ++ [next]) after).mp hv).1
    have hbefore := ((visits_append s _ before [next]).mp hfirst).1
    have hfits := ((sound_initial s).run hbefore).fits name
    rw [modesOf_effectsFrom name hfirst] at hx
    change x ∈ (((_ : Lane).step s name next.moment).2 ++ [] : List HostMessage) at hx
    rw [List.append_nil] at hx
    obtain ⟨now, w, hnext, hw, hle, rfl⟩ := hfits.mem_step hq hx
    obtain ⟨order, rfl⟩ := Step.exists_eq_flush_of_moment hnext
    obtain ⟨t, c, hrests, rfl⟩ := restsSince_of_waiting hq hbefore hw
    exact ⟨now, order, t, c, rfl, hrests, hle, rfl⟩
  once := by
    rintro before t c late after rfl - hlate
    have hfirst := ((visits_append s _ _ after).mp hv).1
    have hbefore := ((visits_append s _ before _).mp hfirst).1
    rw [modesOf_effectsFrom name hfirst]
    exact (((sound_initial s).run hbefore).fits name).length_run_cursor_le_one hq t c
      (List.forall_mem_map.mpr hlate)
  kept := by
    rintro before t c late now order after rfl hc hon hx hlate hnow
    have hsplit : before ++ .event t (.host (.cursor c)) :: late ++ .flush now order :: after =
        before ++ (.event t (.host (.cursor c)) :: late ++ [.flush now order]) ++ after := by
      simp
    rw [hsplit] at hv
    have hfirst := ((visits_append s _ _ after).mp hv).1
    have hbefore := ((visits_append s _ before _).mp hfirst).1
    have hfits := ((sound_initial s).run hbefore).fits name
    obtain ⟨session, hs, hcurrent⟩ := hfits.settle hq hon hc hx
      (List.forall_mem_map.mpr fun next hn => (hlate next hn).1)
      (List.forall_mem_map.mpr fun next hn => (hlate next hn).2) hnow
    refine ⟨session, ?_, hcurrent⟩
    have hlane := lane_run_append name hfirst
    rw [List.map_append, List.map_cons] at hlane
    rw [List.append_assoc, ← hs]
    exact congrArg Lane.session hlane

/-- In the small run the session `a` is told of twice. -/
theorem settles_smallRun : Settles (.small 100) "a" smallRun ∧
    modesOf "a" (effectsFrom (.small 100) [] smallRun) =
      [(CursorEvent.small "a" 5).modeMessage (.small 100),
        (CursorEvent.small "a" 1).modeMessage (.small 100)] :=
  ⟨settles_run (by decide) (by decide) "a", by decide⟩

end CaretLayout.Switchboard
