import CaretLayout.Proofs.Switchboard.Lane

/-!
# The cursor that waits in a lane

A lane holds back at most one cursor.  It waits from when it is taken in until the session is
disturbed, by another cursor, by its closing or by a toggle, or until a visit at or after its
deadline dispatches it.  Anything else leaves the lane as it is (`Lane.step_of_rest`).

`Lane.Fits.step_cases` is what one step can do where there is a time of rest.  It tells where a
waiting cursor comes from (`Lane.Fits.waiting_run`) and that it is told of once at most
(`Lane.Fits.length_run_le_one`).  Conversely a cursor that is not disturbed is dispatched
(`Lane.Fits.settle`).
-/

namespace CaretLayout

namespace Moment

/-- Whether something that happens ends the rest of a session: a cursor of it, its closing, or a
toggle. -/
def disturbs (name : String) : Moment → Bool
  | .event _ (.host (.cursor c)) => c.session == name
  | .event _ (.host (.close closed)) => closed == name
  | .event _ (.host .toggle) => true
  | _ => false

theorem disturbs_iff {name : String} {m : Moment} : m.disturbs name = true ↔
    (∃ t c, m = .event t (.host (.cursor c)) ∧ c.session = name) ∨
      (∃ t, m = .event t (.host (.close name))) ∨ ∃ t, m = .event t (.host .toggle) := by
  constructor
  · intro h
    match m with
    | .event t (.host (.cursor c)) => exact Or.inl ⟨t, c, rfl, beq_iff_eq.mp h⟩
    | .event t (.host (.close closed)) =>
      obtain rfl : closed = name := beq_iff_eq.mp h
      exact Or.inr (Or.inl ⟨t, rfl⟩)
    | .event t (.host .toggle) => exact Or.inr (Or.inr ⟨t, rfl⟩)
    | .event _ (.host .listLayouts) => cases h
    | .event _ (.host .shutdown) => cases h
    | .event _ (.agent _) => cases h
    | .event _ (.agentExited _) => cases h
    | .event _ .shutdown => cases h
    | .flush _ => cases h
  · rintro (⟨t, c, rfl, hc⟩ | ⟨t, rfl⟩ | ⟨t, rfl⟩)
    · exact beq_iff_eq.mpr hc
    · exact beq_self_eq_true name
    · rfl

/-- Whether something that happens is a visit at or after a deadline. -/
def isVisitFrom (deadline : Nat) : Moment → Bool
  | .flush now => decide (deadline ≤ now)
  | .event _ _ => false

theorem isVisitFrom_iff {deadline : Nat} {m : Moment} :
    m.isVisitFrom deadline = true ↔ ∃ now, m = .flush now ∧ deadline ≤ now := by
  constructor
  · intro h
    cases m with
    | flush now => exact ⟨now, rfl, of_decide_eq_true h⟩
    | event now e => cases h
  · rintro ⟨now, rfl, hle⟩
    exact decide_eq_true hle

end Moment

namespace Lane

variable {s : Settings} {name : String} {l : Lane}

/-- The cursor that waits. -/
def waiting (l : Lane) : Option (Waiting CursorEvent) :=
  l.session.bind (·.debouncer.waiting)

theorem waiting_eq_some {w : Waiting CursorEvent} : l.waiting = some w ↔
    ∃ session, l.session = some session ∧ session.debouncer.waiting = some w :=
  Option.bind_eq_some_iff

theorem waiting_present (s : Settings) (l : Lane) :
    (l.present s).debouncer.waiting = l.waiting := by
  unfold present waiting
  rcases l.session with _ | session <;> rfl

/-! ### Dispatching -/

theorem waiting_dispatch (s : Settings) (l : Lane) (c : CursorEvent) :
    (l.dispatch s c).1.waiting = l.waiting := by
  rw [dispatch_eq]
  exact waiting_present s l

/-- What is told of a cursor that is dispatched is its scope, or nothing. -/
theorem Fits.dispatch_messages (h : l.Fits s name) (c : CursorEvent) :
    (l.dispatch s c).2 = [] ∨ (l.dispatch s c).2 = [c.modeMessage s] := by
  by_cases hq : l.enabled = false ∨ c.isLeftAlone s = true ∨
      (l.present s).dispatcher.current = some (c.scope s)
  · rw [h.dispatch_of_quiet hq]
    exact Or.inl rfl
  · simp only [not_or, Bool.not_eq_false, Bool.not_eq_true] at hq
    rw [h.dispatch_of_change hq.1 hq.2.1 hq.2.2]
    exact Or.inr rfl

/-- A cursor that is dispatched while switching is on, in a view that is not left alone, decides the
scope of its session. -/
theorem Fits.current_of_dispatch (h : l.Fits s name) (hon : l.enabled = true) {c : CursorEvent}
    (hx : c.isLeftAlone s = false) :
    ∃ session, (l.dispatch s c).1.session = some session ∧
      session.dispatcher.current = some (c.scope s) := by
  by_cases hc : (l.present s).dispatcher.current = some (c.scope s)
  · rw [h.dispatch_of_quiet (Or.inr (Or.inr hc))]
    exact ⟨_, rfl, hc⟩
  · rw [h.dispatch_of_change hon hx hc]
    exact ⟨_, rfl, rfl⟩

/-! ### Visits -/

/-- What is due has waited up to its deadline. -/
theorem due_eq (now : Nat) (l : Lane) :
    l.due now = (l.waiting.filter fun w => decide (w.deadline ≤ now)).map (·.item) := by
  unfold due waiting
  rcases l.session with _ | session
  · rfl
  · rw [Option.bind_some, Option.bind_some, Debouncer.poll_eq]

/-- What is not due goes on waiting. -/
theorem waiting_withoutDue (now : Nat) (l : Lane) :
    (l.withoutDue now).waiting = l.waiting.filter fun w => decide (now < w.deadline) := by
  unfold withoutDue waiting
  rcases l.session with _ | session
  · rfl
  · rw [Option.map_some, Option.bind_some, Option.bind_some, Session.withoutDue,
      Debouncer.poll_eq]

theorem flush_of_waiting {w : Waiting CursorEvent} {now : Nat} (hw : l.waiting = some w)
    (hle : w.deadline ≤ now) :
    l.flush s now = (l.withoutDue now).dispatch s w.item ∧ (l.withoutDue now).waiting = none := by
  have hdue : l.due now = some w.item := by
    rw [due_eq, hw, Option.filter_some, if_pos (decide_eq_true hle), Option.map_some]
  have hleft : (l.withoutDue now).waiting = none := by
    rw [waiting_withoutDue, hw, Option.filter_some,
      if_neg fun hlt => absurd (of_decide_eq_true hlt) (Nat.not_lt.mpr hle)]
  refine ⟨?_, hleft⟩
  rw [flush, hdue]
  rfl

/-- A visit before the deadline, and any visit if nothing waits, leaves the lane as it is. -/
theorem flush_of_rest {now : Nat} (hw : ∀ w, l.waiting = some w → now < w.deadline) :
    l.flush s now = (l, []) := by
  obtain ⟨on, session⟩ := l
  rcases session with _ | session
  · rfl
  · have hpoll : session.debouncer.poll now = (session.debouncer, none) := by
      rcases hsw : session.debouncer.waiting with _ | w
      · exact Debouncer.poll_of_none hsw
      · exact Debouncer.poll_of_lt hsw (hw w hsw)
    rw [flush, due, withoutDue, Option.bind_some, Option.map_some, Session.withoutDue, hpoll]
    rfl

/-! ### Steps -/

/-- **Rest**: what neither disturbs a session nor is a visit at or after the deadline of the waiting
cursor leaves the lane as it is. -/
theorem step_of_rest {m : Moment} (hm : m.disturbs name = false)
    (hw : ∀ w, l.waiting = some w → m.isVisitFrom w.deadline = false) :
    l.step s name m = (l, []) := by
  match m with
  | .flush now =>
    exact flush_of_rest fun w h => by simpa [Moment.isVisitFrom] using hw w h
  | .event now (.host (.cursor c)) =>
    have hc : ¬ c.session = name := by simpa [Moment.disturbs] using hm
    exact if_neg hc
  | .event now (.host (.close closed)) =>
    have hc : ¬ closed = name := by simpa [Moment.disturbs] using hm
    exact if_neg hc
  | .event now (.host .toggle) => cases hm
  | .event now (.host .listLayouts) => rfl
  | .event now (.host .shutdown) => rfl
  | .event now (.agent _) => rfl
  | .event now (.agentExited _) => rfl
  | .event now .shutdown => rfl

theorem run_of_rest : ∀ {ms : List Moment}, (∀ m ∈ ms, m.disturbs name = false) →
    (∀ m ∈ ms, ∀ w, l.waiting = some w → m.isVisitFrom w.deadline = false) →
    (l.run s name ms).1 = l ∧ (l.run s name ms).2.flatten = []
  | [], _, _ => ⟨rfl, rfl⟩
  | m :: ms, hm, hw => by
    have hstep := step_of_rest (s := s) (hm m (by simp)) (hw m (by simp))
    simp only [run, hstep, List.flatten_cons, List.nil_append]
    exact run_of_rest (fun m' h => hm m' (by simp [h])) fun m' h => hw m' (by simp [h])

theorem Fits.waiting_schedule (h : l.Fits s name) (now : Nat) (c : CursorEvent) :
    (l.schedule s now c).waiting = some ⟨c, now + s.quiet⟩ := by
  show some (Waiting.mk c (now + (l.present s).debouncer.quiet)) = _
  rw [h.present.quiet]

theorem Fits.waiting_of_off (h : l.Fits s name) (hoff : l.enabled = false) : l.waiting = none := by
  rw [← waiting_present s l]
  exact h.present.idle hoff

/-- Nothing waits after a toggle. -/
theorem Fits.waiting_toggle (h : l.Fits s name) : l.toggle.waiting = none := by
  rcases hon : l.enabled with _ | _
  · -- turning switching on leaves the debouncer alone, and nothing waited in it
    have hwait := h.waiting_of_off hon
    rw [Lane.toggle, hon]
    rcases hs : l.session with _ | session
    · rfl
    · rw [waiting, hs] at hwait
      exact hwait
  · refine h.toggle.waiting_of_off ?_
    show (!l.enabled) = false
    rw [hon]
    rfl

/-- **One step of a lane** where there is a time of rest: a cursor of the session is taken in, a
cursor that is due is dispatched, the session is disturbed so that nothing waits, or the lane stays
as it is. -/
theorem Fits.step_cases (h : l.Fits s name) (hq : s.quiet ≠ 0) (m : Moment) :
    (∃ t c, m = .event t (.host (.cursor c)) ∧ c.session = name ∧ l.enabled = true ∧
      (l.step s name m).1.waiting = some ⟨c, t + s.quiet⟩ ∧ (l.step s name m).2 = []) ∨
    (∃ now w, m = .flush now ∧ l.waiting = some w ∧ w.deadline ≤ now ∧
      (l.step s name m).1.waiting = none ∧
      ((l.step s name m).2 = [] ∨ (l.step s name m).2 = [w.item.modeMessage s])) ∨
    (m.disturbs name = true ∧ (l.step s name m).1.waiting = none ∧ (l.step s name m).2 = []) ∨
    (m.disturbs name = false ∧ l.step s name m = (l, [])) := by
  rcases hm : m.disturbs name with _ | _
  · by_cases hw : ∃ w, l.waiting = some w ∧ m.isVisitFrom w.deadline = true
    · obtain ⟨w, hw, hvisit⟩ := hw
      obtain ⟨now, rfl, hle⟩ := Moment.isVisitFrom_iff.mp hvisit
      obtain ⟨hflush, hnone⟩ := flush_of_waiting (s := s) hw hle
      refine Or.inr (Or.inl ⟨now, w, rfl, hw, hle, ?_, ?_⟩)
      · show (l.flush s now).1.waiting = none
        rw [hflush, waiting_dispatch, hnone]
      · show (l.flush s now).2 = [] ∨ (l.flush s now).2 = _
        rw [hflush]
        exact (h.withoutDue now).dispatch_messages w.item
    · refine Or.inr (Or.inr (Or.inr ⟨rfl, step_of_rest hm fun w hw' => ?_⟩))
      exact Bool.eq_false_iff.mpr fun hvisit => hw ⟨w, hw', hvisit⟩
  · rcases Moment.disturbs_iff.mp hm with ⟨t, c, rfl, hc⟩ | ⟨t, rfl⟩ | ⟨t, rfl⟩
    · rw [step_cursor s l t hc]
      rcases hon : l.enabled with _ | _
      · rw [cursor_of_off s hon]
        exact Or.inr (Or.inr (Or.inl ⟨rfl, h.waiting_of_off hon, rfl⟩))
      · rw [cursor_of_rest hq hon]
        exact Or.inl ⟨t, c, rfl, hc, rfl, h.waiting_schedule t c, rfl⟩
    · rw [step_close]
      exact Or.inr (Or.inr (Or.inl ⟨rfl, rfl, rfl⟩))
    · exact Or.inr (Or.inr (Or.inl ⟨rfl, h.waiting_toggle, rfl⟩))

/-! ### Runs -/

/-- What a step tells of its session is the scope of the cursor that waited and is due. -/
theorem Fits.mem_step (h : l.Fits s name) (hq : s.quiet ≠ 0) {m : Moment} {x : HostMessage}
    (hx : x ∈ (l.step s name m).2) : ∃ now w, m = .flush now ∧ l.waiting = some w ∧
      w.deadline ≤ now ∧ x = w.item.modeMessage s := by
  rcases h.step_cases hq m with ⟨t, c, -, -, -, -, hm⟩ | ⟨now, w, rfl, hw, hle, -, hm⟩ |
    ⟨-, -, hm⟩ | ⟨-, hm⟩
  · rw [hm] at hx
    cases hx
  · rcases hm with hm | hm
    · rw [hm] at hx
      cases hx
    · rw [hm] at hx
      exact ⟨now, w, rfl, hw, hle, List.mem_singleton.mp hx⟩
  · rw [hm] at hx
    cases hx
  · rw [hm] at hx
    cases hx

/-- **Where a waiting cursor comes from**: it has waited all the time, or it was taken in while
switching was on, and its session has not been disturbed since. -/
theorem Fits.waiting_run (hq : s.quiet ≠ 0) : ∀ {l : Lane} {ms : List Moment}
    {w : Waiting CursorEvent}, l.Fits s name → (l.run s name ms).1.waiting = some w →
    (l.waiting = some w ∧ ∀ m ∈ ms, m.disturbs name = false) ∨
      ∃ early t c late, ms = early ++ .event t (.host (.cursor c)) :: late ∧ c.session = name ∧
        (l.run s name early).1.enabled = true ∧ (∀ m ∈ late, m.disturbs name = false) ∧
        w = ⟨c, t + s.quiet⟩
  | l, [], w, _, hw => Or.inl ⟨hw, fun _ h => by cases h⟩
  | l, m :: ms, w, h, hw => by
    rcases Fits.waiting_run hq (h.step m) hw with ⟨hw', hms⟩ |
      ⟨early, t, c, late, rfl, hc, hon, hlate, rfl⟩
    · -- what waits after `m` and through the rest came with `m` or was there before it
      rcases h.step_cases hq m with ⟨t, c, rfl, hc, hon, hw'', -⟩ | ⟨now, w', -, -, -, hnone, -⟩ |
        ⟨-, hnone, -⟩ | ⟨hm, hstep⟩
      · rw [hw''] at hw'
        exact Or.inr ⟨[], t, c, ms, rfl, hc, hon, hms, (Option.some.inj hw').symm⟩
      · rw [hnone] at hw'
        cases hw'
      · rw [hnone] at hw'
        cases hw'
      · rw [hstep] at hw'
        refine Or.inl ⟨hw', fun m' hm' => ?_⟩
        rcases List.mem_cons.mp hm' with rfl | hm'
        · exact hm
        · exact hms m' hm'
    · exact Or.inr ⟨m :: early, t, c, late, rfl, hc, hon, hlate, rfl⟩

/-- Until it is disturbed, a session is told of once at most. -/
theorem Fits.length_run_le_one (hq : s.quiet ≠ 0) : ∀ {l : Lane} {ms : List Moment}, l.Fits s name →
    (∀ m ∈ ms, m.disturbs name = false) → (l.run s name ms).2.flatten.length ≤ 1
  | _, [], _, _ => Nat.zero_le 1
  | l, m :: ms, h, hms => by
    have hrest : ∀ m' ∈ ms, m'.disturbs name = false := fun m' h' => hms m' (by simp [h'])
    have ih := Fits.length_run_le_one hq (h.step m) hrest
    have hm := hms m (by simp)
    simp only [Lane.run, List.flatten_cons, List.length_append]
    rcases h.step_cases hq m with ⟨t, c, rfl, hc, -⟩ | ⟨now, w, -, -, -, hnone, hone⟩ |
      ⟨hm', -⟩ | ⟨-, hstep⟩
    · have : (c.session == name) = false := hm
      rw [hc, beq_self_eq_true] at this
      cases this
    · -- what waited has been given out, so the rest of the run tells nothing
      have hsilent := (run_of_rest (s := s) hrest fun _ _ w hw => by
        rw [hnone] at hw
        cases hw).2
      rw [hsilent]
      rcases hone with hone | hone
      · rw [hone]
        exact Nat.zero_le 1
      · rw [hone]
        exact Nat.le_refl 1
    · rw [hm] at hm'
      cases hm'
    · rw [hstep] at ih ⊢
      rw [List.length_nil, Nat.zero_add]
      exact ih

theorem Fits.length_run_cursor_le_one (hq : s.quiet ≠ 0) (h : l.Fits s name) (t : Nat)
    (c : CursorEvent) {late : List Moment} (hlate : ∀ m ∈ late, m.disturbs name = false) :
    (l.run s name (.event t (.host (.cursor c)) :: late)).2.flatten.length ≤ 1 := by
  have hsilent : (l.step s name (.event t (.host (.cursor c)))).2 = [] := by
    refine List.eq_nil_iff_forall_not_mem.mpr fun x hx => ?_
    obtain ⟨now, w, hm, -⟩ := h.mem_step hq hx
    cases hm
  simp only [Lane.run, List.flatten_cons, hsilent, List.nil_append]
  exact (h.step _).length_run_le_one hq hlate

/-- **A settled cursor decides**: a cursor that is taken in, in a view that is not left alone, and
is then not disturbed up to a visit at or after its deadline, decides the scope of its session
there. -/
theorem Fits.settle (h : l.Fits s name) (hq : s.quiet ≠ 0) (hon : l.enabled = true) {t : Nat}
    {c : CursorEvent} (hc : c.session = name) (hx : c.isLeftAlone s = false) {late : List Moment}
    (hlate : ∀ m ∈ late, m.disturbs name = false)
    (hearly : ∀ m ∈ late, m.isVisitFrom (t + s.quiet) = false) {now : Nat}
    (hnow : t + s.quiet ≤ now) :
    ∃ session, (l.run s name (.event t (.host (.cursor c)) :: late ++ [.flush now])).1.session =
        some session ∧ session.dispatcher.current = some (c.scope s) := by
  have hstep : l.step s name (.event t (.host (.cursor c))) = (l.schedule s t c, []) := by
    rw [step_cursor s l t hc, cursor_of_rest hq hon]
  have hwait : (l.schedule s t c).waiting = some ⟨c, t + s.quiet⟩ := h.waiting_schedule t c
  have hfits : (l.schedule s t c).Fits s name := h.schedule hq hon t hc
  have hrest := (run_of_rest (s := s) (l := l.schedule s t c) hlate fun m hm w hw => by
    rw [hwait] at hw
    rw [← Option.some.inj hw]
    exact hearly m hm).1
  have hflush := (flush_of_waiting (s := s) hwait hnow).1
  have hrun : (l.run s name (.event t (.host (.cursor c)) :: late ++ [.flush now])).1 =
      (((l.schedule s t c).withoutDue now).dispatch s c).1 := by
    rw [run_append]
    simp only [Lane.run, hstep, hrest]
    show ((l.schedule s t c).flush s now).1 = _
    rw [hflush]
  rw [hrun]
  exact (hfits.withoutDue now).current_of_dispatch hon hx

end Lane

end CaretLayout
