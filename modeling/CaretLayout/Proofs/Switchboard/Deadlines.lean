import CaretLayout.Proofs.Switchboard.Consistent
import CaretLayout.Proofs.Switchboard.Waiting
import Mathlib.Data.List.Nodup
import Mathlib.Data.List.ReduceOption
import Mathlib.Order.Bounds.Defs

/-!
# After a visit nothing is due

The main loop visits all sessions and then sleeps up to the next deadline.  A visit takes what is due
out of all sessions before it dispatches any of it, and dispatching lets nothing wait and brings in
no session.  So each cursor that is due is dispatched once, what is not due stays as it is, and the
next deadline is the earliest of those that are left, which is still to come (`run_visited`): the
loop neither sleeps past a cursor nor wakes without need.
-/

namespace CaretLayout

/-! ### One session -/

namespace Lane

variable {s : Settings} {now : Nat} {l : Lane}

/-- After a visit, what was not due still waits. -/
theorem waiting_flush (s : Settings) (now : Nat) (l : Lane) :
    (l.flush s now).1.waiting = l.waiting.filter fun w => decide (now < w.deadline) := by
  unfold flush
  rcases l.due now with _ | c
  · exact waiting_withoutDue now l
  · exact (waiting_dispatch s _ c).trans (waiting_withoutDue now l)

/-- In a visit the dispatcher takes in what is due, and nothing waits any more. -/
theorem flush_of_due {session : Session} {w : Waiting CursorEvent}
    (hs : l.session = some session) (hw : session.debouncer.waiting = some w)
    (hle : w.deadline ≤ now) :
    l.flush s now = (⟨l.enabled, some
        { dispatcher := (session.dispatcher.cursorMoved s.table (w.item.view s.lookback)).1
          debouncer := { session.debouncer with waiting := none } }⟩,
      Switch.messages w.item.session
        (session.dispatcher.cursorMoved s.table (w.item.view s.lookback)).2.switch) := by
  have hwaiting : l.waiting = some w := waiting_eq_some.mpr ⟨session, hs, hw⟩
  have hpresent : (l.withoutDue now).present s =
      { session with debouncer := { session.debouncer with waiting := none } } := by
    rw [present, withoutDue, hs, Option.map_some, Option.getD_some, Session.withoutDue,
      Debouncer.poll_of_le hw hle]
  rw [(flush_of_waiting hwaiting hle).1, dispatch_eq, hpresent]
  rfl

end Lane

/-! ### All sessions -/

namespace Switchboard

open Effect (modesOf)

variable {s : Settings} {b : Switchboard} {now : Nat}

/-- The deadlines of the cursors that wait. -/
def deadlines (b : Switchboard) : Set Nat :=
  {t | ∃ name w, (b.lane name).waiting = some w ∧ w.deadline = t}

/-- That a cursor waits in a session and is due. -/
def IsDue (b : Switchboard) (now : Nat) (c : CursorEvent) : Prop :=
  ∃ name w, (b.lane name).waiting = some w ∧ w.deadline ≤ now ∧ w.item = c

/-- What holds after a visit of all sessions at a time. -/
structure Visited (s : Settings) (now : Nat) (before : Switchboard)
    (after : Switchboard × List Effect) : Prop where
  /-- No deadline has come. -/
  later : ∀ t ∈ after.1.deadlines, now < t
  /-- The sessions are those that there were. -/
  keys : after.1.sessions.keys = before.sessions.keys
  /-- A session in which nothing is due is as it was, and what waits in it still waits. -/
  rest : ∀ name, (∀ w, (before.lane name).waiting = some w → now < w.deadline) →
    after.1.lane name = before.lane name
  /-- The cursors that are due have been dispatched one after the other, each of them once. -/
  dispatched : ∃ cs : List CursorEvent, cs.Nodup ∧ (∀ c, c ∈ cs ↔ before.IsDue now c) ∧
    after = (before.withoutDue now).dispatchAll s cs
  /-- Where one was due, the dispatcher has taken it in, the host has been told what comes of it, and
  nothing waits. -/
  taken : ∀ name session w, before.sessions.find? name = some session →
    session.debouncer.waiting = some w → w.deadline ≤ now →
    after.1.sessions.find? name = some
        { dispatcher := (session.dispatcher.cursorMoved s.table (w.item.view s.lookback)).1
          debouncer := { session.debouncer with waiting := none } } ∧
      modesOf name after.2 = Switch.messages name
        (session.dispatcher.cursorMoved s.table (w.item.view s.lookback)).2.switch
  /-- There is no next deadline exactly when nothing waits. -/
  idle : after.1.nextDeadline = none ↔ ∀ name, (after.1.lane name).waiting = none
  /-- The next deadline is the earliest of all, and still to come. -/
  next : ∀ t, after.1.nextDeadline = some t → IsLeast after.1.deadlines t ∧ now < t

/-! ### The next deadline -/

theorem foldr_earlier_eq_min? (times : List (Option Nat)) :
    times.foldr earlier none = times.reduceOption.min? := by
  induction times with
  | nil => rfl
  | cons time times ih =>
    rw [List.foldr_cons, ih]
    cases time with
    | none => rw [List.reduceOption_cons_of_none, earlier]
    | some a =>
      rw [List.reduceOption_cons_of_some, List.min?_cons]
      rcases times.reduceOption.min? with _ | b <;> rfl

/-- The next deadline is the least that a pass through the sessions meets. -/
theorem nextDeadline_eq_min? (b : Switchboard) : b.nextDeadline =
    (b.sessions.values.filterMap fun session => session.debouncer.deadline).min? := by
  rw [nextDeadline, foldr_earlier_eq_min?, List.reduceOption, List.filterMap_map]
  rfl

/-- Such a pass meets all deadlines. -/
theorem mem_deadlines_iff (h : b.sessions.keys.Nodup) {t : Nat} : t ∈ b.deadlines ↔
    t ∈ b.sessions.values.filterMap fun session => session.debouncer.deadline := by
  rw [List.mem_filterMap]
  constructor
  · rintro ⟨name, w, hw, rfl⟩
    obtain ⟨session, hs, hsw⟩ := Lane.waiting_eq_some.mp hw
    refine ⟨session, (Keyed.mem_values_iff h).mpr ⟨name, hs⟩, ?_⟩
    rw [Debouncer.deadline, hsw]
    rfl
  · rintro ⟨session, hmem, ht⟩
    obtain ⟨name, hs⟩ := (Keyed.mem_values_iff h).mp hmem
    obtain ⟨w, hw, rfl⟩ := Option.map_eq_some_iff.mp ht
    exact ⟨name, w, Lane.waiting_eq_some.mpr ⟨session, hs, hw⟩, rfl⟩

theorem nextDeadline_eq_none_iff (h : b.sessions.keys.Nodup) :
    b.nextDeadline = none ↔ ∀ name, (b.lane name).waiting = none := by
  rw [nextDeadline_eq_min?, List.min?_eq_none_iff, List.eq_nil_iff_forall_not_mem]
  simp only [← mem_deadlines_iff h]
  constructor
  · intro hno name
    rcases hw : (b.lane name).waiting with _ | w
    · rfl
    · exact absurd ⟨name, w, hw, rfl⟩ (hno w.deadline)
  · rintro hnone t ⟨name, w, hw, -⟩
    rw [hnone name] at hw
    cases hw

/-- The next deadline is the earliest one. -/
theorem isLeast_of_nextDeadline (h : b.sessions.keys.Nodup) {t : Nat}
    (ht : b.nextDeadline = some t) : IsLeast b.deadlines t := by
  rw [nextDeadline_eq_min?, List.min?_eq_some_iff] at ht
  simp only [← mem_deadlines_iff h] at ht
  exact ⟨ht.1, fun u hu => ht.2 u hu⟩

/-! ### What a visit dispatches -/

/-- A cursor of a session that is there brings in no other. -/
theorem keys_dispatch {c : CursorEvent} (h : c.session ∈ b.sessions.keys) :
    (b.dispatch s c).1.sessions.keys = b.sessions.keys :=
  (Keyed.keys_insert ..).trans (if_pos h)

theorem keys_dispatchAll : ∀ {cs : List CursorEvent} {b : Switchboard},
    (∀ c ∈ cs, c.session ∈ b.sessions.keys) →
      (b.dispatchAll s cs).1.sessions.keys = b.sessions.keys
  | [], _, _ => rfl
  | c :: cs, b, h => by
    obtain ⟨hc, hcs⟩ := List.forall_mem_cons.mp h
    have hkeys : (b.dispatch s c).1.sessions.keys = b.sessions.keys := keys_dispatch hc
    have hrest : ∀ c' ∈ cs, c'.session ∈ (b.dispatch s c).1.sessions.keys := by
      rw [hkeys]
      exact hcs
    exact (keys_dispatchAll hrest).trans hkeys

theorem isDue_iff {c : CursorEvent} :
    b.IsDue now c ↔ ∃ name, (b.lane name).due now = some c := by
  refine exists_congr fun name => ?_
  rw [Lane.due_eq, Option.map_eq_some_iff]
  refine exists_congr fun w => ?_
  rw [Option.filter_eq_some_iff, decide_eq_true_eq, and_assoc]

theorem mem_due_iff {order : List String} {c : CursorEvent} :
    c ∈ b.due now order ↔ ∃ name ∈ order, (b.lane name).due now = some c :=
  List.mem_filterMap

/-- No cursor is met twice, since each waits in its own session. -/
theorem Sound.nodup_due (h : Sound s b) {order : List String} (horder : order.Nodup) :
    (b.due now order).Nodup :=
  horder.filterMap fun _ _ _ hc hc' => (h.due_session hc).symm.trans (h.due_session hc')

/-- A visit of all sessions meets everything that is due. -/
theorem mem_due_iff_isDue {order : List String} (horder : order.Perm b.sessions.keys)
    {c : CursorEvent} : c ∈ b.due now order ↔ b.IsDue now c := by
  rw [mem_due_iff, isDue_iff]
  refine exists_congr fun name => and_iff_right_of_imp fun hc => ?_
  obtain ⟨session, hs, -⟩ := Option.bind_eq_some_iff.mp hc
  refine horder.mem_iff.mpr ((Keyed.mem_keys_iff _ _).mpr ?_)
  rw [show b.sessions.find? name = some session from hs]
  exact Option.some_ne_none session

theorem Sound.keys_flushIn (h : Sound s b) {order : List String}
    (horder : order.Perm b.sessions.keys) :
    (b.flushIn s now order).1.sessions.keys = b.sessions.keys := by
  have hkeys : (b.withoutDue now).sessions.keys = b.sessions.keys := Keyed.keys_mapValues ..
  refine (keys_dispatchAll fun c hc => ?_).trans hkeys
  obtain ⟨name, hname, hdue⟩ := mem_due_iff.mp hc
  rw [hkeys, h.due_session hdue]
  exact horder.mem_iff.mp hname

/-! ### The theorem -/

/-- A visit of all sessions, in any order. -/
theorem Sound.visited (h : Sound s b) (now : Nat) {order : List String}
    (horder : order.Perm b.sessions.keys) : Visited s now b (b.flushIn s now order) := by
  have hlane : ∀ name, ((b.flushIn s now order).1.lane name,
      modesOf name (b.flushIn s now order).2) = (b.lane name).flush s now :=
    h.lane_flushIn horder
  have hwaiting : ∀ name, ((b.flushIn s now order).1.lane name).waiting =
      (b.lane name).waiting.filter fun w => decide (now < w.deadline) := fun name =>
    (congrArg (·.1.waiting) (hlane name)).trans (Lane.waiting_flush s now (b.lane name))
  have hkeys : (b.flushIn s now order).1.sessions.keys = b.sessions.keys := h.keys_flushIn horder
  have hnodup : (b.flushIn s now order).1.sessions.keys.Nodup := by
    rw [hkeys]
    exact h.nodup
  have hlater : ∀ t ∈ (b.flushIn s now order).1.deadlines, now < t := by
    rintro t ⟨name, w, hw, rfl⟩
    rw [hwaiting] at hw
    exact of_decide_eq_true (Option.filter_eq_some_iff.mp hw).2
  exact {
    later := hlater
    keys := hkeys
    rest := fun name hrest =>
      congrArg Prod.fst ((hlane name).trans (Lane.flush_of_rest hrest))
    dispatched := ⟨b.due now order, h.nodup_due (horder.nodup_iff.mpr h.nodup),
      fun _ => mem_due_iff_isDue horder, rfl⟩
    taken := fun name session w hs hw hle => by
      have hflush := (hlane name).trans (Lane.flush_of_due hs hw hle)
      rw [(h.fits name session hs).home w hw] at hflush
      exact ⟨congrArg (·.1.session) hflush, congrArg Prod.snd hflush⟩
    idle := nextDeadline_eq_none_iff hnodup
    next := fun t ht =>
      ⟨isLeast_of_nextDeadline hnodup ht, hlater t (isLeast_of_nextDeadline hnodup ht).1⟩ }

/-- **After a visit nothing is due.**  After any steps, at any time and in whatever order all sessions
are visited, what was due has been dispatched, each cursor once, everything else is as it was, and the
next deadline is the earliest of those that are left, each of which is still to come. -/
theorem run_visited (s : Settings) (steps : List Step) (now : Nat) {order : List String}
    (horder : order.Perm ((initial s).run s steps).1.sessions.keys) :
    Visited s now ((initial s).run s steps).1 (((initial s).run s steps).1.flushIn s now order) := by
  have hkept := (allKept_initial s).run steps
  have hsound : Sound s ((initial s).run s steps).1 :=
    ⟨nodup_keys_run steps List.nodup_nil, fun name => (hkept name).fits⟩
  exact hsound.visited now horder

/-- Three cursors wait, two of which are due at the same time. -/
def threeWaiting : List Step :=
  [.event 0 (.host (.cursor (.small "a" 5))), .event 0 (.host (.cursor (.small "b" 1))),
    .event 10 (.host (.cursor (.small "c" 5)))]

/-- A visit between the deadlines dispatches two of the cursors, and the next deadline is that of the
third one. -/
theorem threeWaiting_visited :
    Visited (.small 100) 105 ((initial (.small 100)).run (.small 100) threeWaiting).1
        (((initial (.small 100)).run (.small 100) threeWaiting).1.flushIn (.small 100) 105
          ["b", "c", "a"]) ∧
      (((initial (.small 100)).run (.small 100) threeWaiting).1.flushIn (.small 100) 105
          ["b", "c", "a"]).2 =
        [.request (.switch "00000409"), .message (.mode "b" "code" "00000409"),
          .request (.switch "00000804"), .message (.mode "a" "comment" "00000804")] ∧
      (((initial (.small 100)).run (.small 100) threeWaiting).1.flushIn (.small 100) 105
          ["b", "c", "a"]).1.nextDeadline = some 110 :=
  ⟨run_visited (.small 100) threeWaiting 105 (by decide), by decide, by decide⟩

end Switchboard

end CaretLayout
