import CaretLayout.Proofs.Dispatch.Debouncer
import CaretLayout.Proofs.Switchboard.Sound

/-!
# What is kept of the sessions is consistent

The flag of the switchboard is mirrored in every session, and what waits in a session is a cursor of
it, with a deadline, while switching is on.  `Lane.Kept` says so of one session, and every operation
preserves it.  So it holds of all sessions after any steps, at any times, whichever sessions a visit
goes to and wherever it is broken off (`run_consistent`).
-/

namespace CaretLayout

/-! ### One session -/

/-- What holds of the lane of a session, the debouncer being seen as two fields. -/
structure Lane.Kept (s : Settings) (name : String) (l : Lane) : Prop where
  fits : l.Fits s name
  reached : ∀ session, l.session = some session → session.debouncer.fields.Reached

namespace Lane

variable {s : Settings} {name : String} {l : Lane}

theorem Kept.reached_present (h : l.Kept s name) : (l.present s).debouncer.fields.Reached := by
  unfold present
  rcases hs : l.session with _ | session
  · exact .new s.quiet
  · exact h.reached session hs

theorem Kept.dispatch (h : l.Kept s name) (c : CursorEvent) : (l.dispatch s c).1.Kept s name where
  fits := h.fits.dispatch c
  reached := fun session hs => by
    rw [dispatch_eq] at hs
    rw [← Option.some.inj hs]
    exact h.reached_present

theorem Kept.cursor (h : l.Kept s name) (now : Nat) {c : CursorEvent} (hc : c.session = name) :
    (l.cursor s now c).1.Kept s name := by
  rcases hon : l.enabled with _ | _
  · rw [cursor_of_off s hon]
    exact h
  · by_cases hq : s.quiet = 0
    · rw [cursor_of_prompt hq hon]
      exact h.dispatch c
    · rw [cursor_of_rest hq hon]
      refine ⟨h.fits.schedule hq hon now hc, fun session hs => ?_⟩
      rw [← Option.some.inj hs, Debouncer.fields_schedule]
      exact h.reached_present.schedule now c

theorem Kept.toggle (h : l.Kept s name) : l.toggle.Kept s name where
  fits := h.fits.toggle
  reached := fun session hs => by
    obtain ⟨old, ho, rfl⟩ := Option.map_eq_some_iff.mp hs
    unfold Session.setEnabled
    split_ifs
    · exact h.reached old ho
    · exact (h.reached old ho).cancel

theorem Kept.withoutDue (h : l.Kept s name) (now : Nat) : (l.withoutDue now).Kept s name where
  fits := h.fits.withoutDue now
  reached := fun session hs => by
    obtain ⟨old, ho, rfl⟩ := Option.map_eq_some_iff.mp hs
    have hpoll := (h.reached old ho).poll now
    rwa [← Debouncer.fields_poll] at hpoll

theorem kept_closed (s : Settings) (name : String) (on : Bool) : Kept s name ⟨on, none⟩ where
  fits := fun _ hs => by cases hs
  reached := fun _ hs => by cases hs

theorem Kept.handle (h : l.Kept s name) (now : Nat) (e : Event) :
    (l.handle s name now e).1.Kept s name := by
  unfold Lane.handle
  split
  · split_ifs with hc
    · exact h.cursor now hc
    · exact h
  · exact h.toggle
  · split_ifs
    · exact kept_closed s name l.enabled
    · exact h
  · exact h

end Lane

/-! ### All sessions -/

namespace Switchboard

variable {s : Settings} {b : Switchboard}

/-- What holds of every session. -/
def AllKept (s : Settings) (b : Switchboard) : Prop :=
  ∀ name, (b.lane name).Kept s name

theorem AllKept.dispatch (h : AllKept s b) (c : CursorEvent) : AllKept s (b.dispatch s c).1 := by
  intro name
  rw [lane_dispatch_fst]
  split_ifs
  · exact (h name).dispatch c
  · exact h name

theorem AllKept.dispatchAll : ∀ {b : Switchboard} (cs : List CursorEvent), AllKept s b →
    AllKept s (b.dispatchAll s cs).1
  | _, [], h => h
  | _, c :: cs, h => AllKept.dispatchAll cs (h.dispatch c)

theorem AllKept.withoutDue (h : AllKept s b) (now : Nat) : AllKept s (b.withoutDue now) := by
  intro name
  rw [lane_withoutDue]
  exact (h name).withoutDue now

/-- A step preserves what holds of every session, whichever sessions it visits. -/
theorem AllKept.step (h : AllKept s b) (next : Step) : AllKept s (b.step s next).1 := by
  cases next with
  | event now e =>
    intro name
    have hlane : (b.step s (.event now e)).1.lane name = ((b.lane name).handle s name now e).1 :=
      congrArg Prod.fst (lane_handle s now b e name)
    rw [hlane]
    exact (h name).handle now e
  | flush now order => exact (h.withoutDue now).dispatchAll _

theorem AllKept.run : ∀ {b : Switchboard} (steps : List Step), AllKept s b →
    AllKept s (b.run s steps).1
  | _, [], h => h
  | _, next :: steps, h => AllKept.run steps (h.step next)

theorem nodup_keys_run : ∀ {b : Switchboard} (steps : List Step), b.sessions.keys.Nodup →
    (b.run s steps).1.sessions.keys.Nodup
  | _, [], h => h
  | _, next :: steps, h => nodup_keys_run steps (nodup_keys_step h next)

/-! ### The theorem -/

/-- What is kept of the sessions is consistent. -/
structure Consistent (s : Settings) (b : Switchboard) : Prop where
  /-- No session is kept twice. -/
  nodup : b.sessions.keys.Nodup
  /-- Every session has the flag of the switchboard. -/
  enabled : ∀ p ∈ b.sessions.entries, p.2.dispatcher.enabled = b.enabled
  /-- Nothing waits while switching is off. -/
  idle : b.enabled = false → ∀ p ∈ b.sessions.entries,
    p.2.debouncer.pending = none ∧ p.2.debouncer.deadline = none
  /-- What waits has a deadline, and there is no other deadline. -/
  paired : ∀ p ∈ b.sessions.entries,
    p.2.debouncer.pending.isSome = p.2.debouncer.deadline.isSome
  /-- The debouncer is one that operations on the item and on the deadline lead to. -/
  reached : ∀ p ∈ b.sessions.entries, p.2.debouncer.fields.Reached
  /-- A cursor waits in its own session. -/
  home : ∀ p ∈ b.sessions.entries, ∀ c, p.2.debouncer.pending = some c → c.session = p.1
  /-- Nothing waits where there is no time of rest. -/
  prompt : s.quiet = 0 → ∀ p ∈ b.sessions.entries, p.2.debouncer.pending = none

theorem AllKept.consistent (h : AllKept s b) (hnodup : b.sessions.keys.Nodup) :
    Consistent s b := by
  have hkept : ∀ p ∈ b.sessions.entries,
      p.2.Fits s b.enabled p.1 ∧ p.2.debouncer.fields.Reached := by
    intro p hp
    have hfind : (b.lane p.1).session = some p.2 := Keyed.find?_of_mem hnodup hp
    exact ⟨(h p.1).fits p.2 hfind, (h p.1).reached p.2 hfind⟩
  exact {
    nodup := hnodup
    enabled := fun p hp => (hkept p hp).1.enabled
    idle := fun hoff p hp => by
      have hnone := (hkept p hp).1.idle hoff
      rw [Debouncer.pending, Debouncer.deadline, hnone]
      exact ⟨rfl, rfl⟩
    paired := fun p hp => (hkept p hp).2.paired
    reached := fun p hp => (hkept p hp).2
    home := fun p hp c hc => by
      obtain ⟨w, hw, rfl⟩ := Option.map_eq_some_iff.mp hc
      exact (hkept p hp).1.home w hw
    prompt := fun hq p hp => by
      rw [Debouncer.pending, (hkept p hp).1.prompt hq]
      rfl }

theorem allKept_initial (s : Settings) : AllKept s (initial s) :=
  fun name => Lane.kept_closed s name s.enabled

/-- **What is kept of the sessions is consistent** after any steps at any times, and also in the midst
of a visit, when some of the cursors that are due have been dispatched and the others are given up. -/
theorem run_consistent (s : Settings) (steps : List Step) :
    Consistent s ((initial s).run s steps).1 ∧
    ∀ now order count, Consistent s ((((initial s).run s steps).1.withoutDue now).dispatchAll s
      ((((initial s).run s steps).1.due now order).take count)).1 := by
  have hkept := (allKept_initial s).run steps
  have hnodup := nodup_keys_run (s := s) (b := initial s) steps List.nodup_nil
  refine ⟨hkept.consistent hnodup, fun now order count => ?_⟩
  exact ((hkept.withoutDue now).dispatchAll _).consistent
    (nodup_keys_dispatchAll s _ _ (nodup_keys_mapValues hnodup _))

end Switchboard

end CaretLayout
