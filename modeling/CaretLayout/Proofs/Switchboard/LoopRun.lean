import CaretLayout.Proofs.Switchboard.Sound
import CaretLayout.Switchboard.Loop

/-!
# The main loop goes through runs

As long as the output takes every message and no event ends the loop, feeding events to the main
loop is a run of the switchboard in which each event comes after a visit of all sessions
(`feedAll_eq_run`).  So what holds of all runs of the switchboard holds of the main loop.
-/

namespace CaretLayout.MainLoop

variable {s : Settings} {l : MainLoop}

/-- Feeds events in order. -/
def feedAll (s : Settings) : MainLoop → List (Nat × Event) → MainLoop × List Effect
  | l, [] => (l, [])
  | l, (now, e) :: more =>
    ((feedAll s (l.feed s now e).1 more).1,
     (l.feed s now e).2 ++ (feedAll s (l.feed s now e).1 more).2)

/-- What happens when events are fed: before each of them all sessions are visited. -/
def moments (events : List (Nat × Event)) : List Moment :=
  events.flatMap fun p => [.flush p.1, .event p.1 p.2]

/-- An output that takes every message takes all effects. -/
theorem perform_of_room (hroom : l.room = none) : ∀ effects : List Effect,
    l.perform effects = (l, effects)
  | [] => rfl
  | .request r :: effects => by
    rw [perform, perform_of_room hroom effects]
  | .message m :: effects => by
    rw [perform, hroom]
    simp only [perform_of_room hroom effects]

theorem wake_eq (hopen : l.isOpen = true) (hroom : l.room = none) (now : Nat) :
    l.wake s now = ({ l with board := (l.board.flush s now).1 }, (l.board.flush s now).2) := by
  rw [wake, if_pos hopen]
  exact perform_of_room (l := { l with board := (l.board.flush s now).1 }) hroom _

theorem take_eq (hopen : l.isOpen = true) (hroom : l.room = none) (now : Nat) {e : Event}
    (he : e.endsLoop = false) :
    l.take s now e = ({ l with board := (l.board.handle s now e).1 },
      (l.board.handle s now e).2) := by
  rw [take, hopen, he]
  exact perform_of_room (l := { l with board := (l.board.handle s now e).1 }) hroom _

/-- One event that is fed is two steps of the switchboard. -/
theorem feed_eq (hopen : l.isOpen = true) (hroom : l.room = none) (now : Nat) {e : Event}
    (he : e.endsLoop = false) :
    l.feed s now e =
      ({ l with board :=
          (l.board.run s [.flush now l.board.sessions.keys, .event now e]).1 },
        (l.board.run s [.flush now l.board.sessions.keys, .event now e]).2.flatten) := by
  have hwake := wake_eq (s := s) hopen hroom now
  have htake := take_eq (s := s) (l := { l with board := (l.board.flush s now).1 }) hopen hroom
    now he
  rw [feed, hwake]
  simp only [htake, Switchboard.run, Switchboard.step, List.flatten_cons, List.flatten_nil,
    List.append_nil]
  rfl

/-- **The main loop goes through runs of the switchboard.** -/
theorem feedAll_eq_run : ∀ {l : MainLoop}, l.isOpen = true → l.room = none →
    ∀ events : List (Nat × Event), (∀ p ∈ events, p.2.endsLoop = false) →
      ∃ steps, Switchboard.Visits s l.board steps ∧
        steps.map Switchboard.Step.moment = moments events ∧
        l.feedAll s events = ({ l with board := (l.board.run s steps).1 },
          (l.board.run s steps).2.flatten)
  | l, _, _, [], _ => ⟨[], trivial, rfl, rfl⟩
  | l, hopen, hroom, (now, e) :: events, he => by
    have hfeed := feed_eq (s := s) hopen hroom now (he (now, e) (by simp))
    obtain ⟨steps, hv, hms, hall⟩ := feedAll_eq_run (l := (l.feed s now e).1)
      (by rw [hfeed]; exact hopen) (by rw [hfeed]; exact hroom) events
      fun p hp => he p (by simp [hp])
    rw [hfeed] at hv hall
    refine ⟨[.flush now l.board.sessions.keys, .event now e] ++ steps, ?_, ?_, ?_⟩
    · exact ⟨List.Perm.refl _, trivial, hv⟩
    · rw [List.map_append, hms]
      rfl
    · rw [feedAll, hfeed, hall, Switchboard.run_append, List.flatten_append]

end CaretLayout.MainLoop
