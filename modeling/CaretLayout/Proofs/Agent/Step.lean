import CaretLayout.Agent.Supervisor

/-!
# What a supervisor can do in one step

Seen from its slot, a step of the supervisor is one of three things (`step?_cases`): nothing changes
(`Rests`), a generation begins (`Begins`), or the present generation ends (`Ends`).  Whatever happens,
processes only go on: none is lost, and neither an end nor a kill is taken back (`Continues`).
-/

namespace CaretLayout

theorem AgentState.isRunning_iff {state : AgentState} :
    state.isRunning = true ↔ state = .running := by
  cases state <;> simp [isRunning]

/-- One process later on: neither its end nor its kill is taken back. -/
structure AgentChild.Later (c c' : AgentChild) : Prop where
  ended : ∀ e, c.ended = some e → c'.ended = some e
  killed : c.killed = true → c'.killed = true

namespace AgentChild

variable {c c' : AgentChild}

theorem Later.refl (c : AgentChild) : c.Later c :=
  ⟨fun _ h => h, fun h => h⟩

theorem isAtLarge_iff : c.isAtLarge = true ↔ c.ended = none ∧ c.killed = false := by
  simp [isAtLarge]

theorem Later.isAtLarge (h : c.Later c') (hc : c'.isAtLarge = true) : c.isAtLarge = true := by
  obtain ⟨hended, hkilled⟩ := isAtLarge_iff.mp hc
  refine isAtLarge_iff.mpr ⟨?_, ?_⟩
  · rcases he : c.ended with _ | e
    · rfl
    · rw [h.ended e he] at hended
      cases hended
  · rcases hk : c.killed with _ | _
    · rfl
    · rw [h.killed hk] at hkilled
      cases hkilled

end AgentChild

namespace Supervisor

variable {s s' : Supervisor} {a : Action} {generation : Nat} {c c' : AgentChild}

/-! ### The processes -/

theorem child?_setChild (h : s.child? generation = some c) (c' : AgentChild) (other : Nat) :
    (s.setChild generation c').child? other =
      if other = generation then some c' else s.child? other := by
  unfold child? at h
  split at h
  · cases h
  · next hg =>
    obtain ⟨hlt, -⟩ := List.getElem?_eq_some_iff.mp h
    unfold child? setChild
    by_cases ho : other = generation
    · subst ho
      rw [if_neg hg, if_pos rfl, List.getElem?_set_self hlt]
    · rw [if_neg ho]
      split
      · rfl
      · rw [List.getElem?_set_ne (by omega)]

theorem length_setChild (s : Supervisor) (generation : Nat) (c : AgentChild) :
    (s.setChild generation c).children.length = s.children.length :=
  List.length_set

/-- The processes of one state go on in another. -/
def Continues (s s' : Supervisor) : Prop :=
  ∀ generation, Option.Rel AgentChild.Later (s.child? generation) (s'.child? generation)

theorem Continues.refl (s : Supervisor) : s.Continues s := by
  intro generation
  rcases s.child? generation with _ | c
  · exact .none
  · exact .some (.refl c)

theorem continues_setChild (h : s.child? generation = some c) (hl : c.Later c') :
    s.Continues (s.setChild generation c') := by
  intro other
  rw [child?_setChild h]
  split
  · next ho =>
    rw [ho, h]
    exact .some hl
  · exact Continues.refl s other

theorem Continues.child? (h : s.Continues s') (hc : s.child? generation = some c) :
    ∃ c', s'.child? generation = some c' ∧ c.Later c' := by
  have hrel := h generation
  rw [hc] at hrel
  rcases hs : s'.child? generation with _ | c'
  · rw [hs] at hrel
    cases hrel
  · rw [hs] at hrel
    cases hrel with
    | some hl => exact ⟨c', rfl, hl⟩

theorem Continues.child?_of (h : s.Continues s') (hc : s'.child? generation = some c') :
    ∃ c, s.child? generation = some c ∧ c.Later c' := by
  have hrel := h generation
  rw [hc] at hrel
  rcases hs : s.child? generation with _ | c
  · rw [hs] at hrel
    cases hrel
  · rw [hs] at hrel
    cases hrel with
    | some hl => exact ⟨c, rfl, hl⟩

/-- How a process ended is not forgotten. -/
theorem Continues.ended (h : s.Continues s') {e : Option Int}
    (hc : ∃ c, s.child? generation = some c ∧ c.ended = some e) :
    ∃ c, s'.child? generation = some c ∧ c.ended = some e := by
  obtain ⟨c, hc, hended⟩ := hc
  obtain ⟨c', hc', hl⟩ := h.child? hc
  exact ⟨c', hc', hl.ended e hended⟩

/-! ### The three things that a step can be -/

/-- A step that leaves the slot as it is. -/
structure Rests (s s' : Supervisor) : Prop where
  slot : s'.slot = s.slot
  published : s'.published = s.published
  starts : s'.starts = s.starts
  length : s'.children.length = s.children.length
  continues : s.Continues s'

/-- A step that begins a generation. -/
structure Begins (s s' : Supervisor) (processId : Nat) : Prop where
  idle : s.slot.state ≠ .running
  slot : s'.slot = { state := .running, generation := s.slot.generation + 1, hasInput := true,
                     hasKill := true, processId := some processId }
  published : s'.published = s.published ++ [.running]
  starts : s'.starts = s.starts + 1
  children : s'.children = s.children ++ [({} : AgentChild)]

/-- A step that ends the present generation, whose process has ended or is killed. -/
structure Ends (s s' : Supervisor) (code : Option Int) : Prop where
  running : s.slot.state = .running
  slot : s'.slot = { s.slot with state := .exited code, hasInput := false, hasKill := false,
                                 processId := none }
  published : s'.published = s.published ++ [.exited code]
  starts : s'.starts = s.starts
  length : s'.children.length = s.children.length
  continues : s.Continues s'
  notAtLarge : ∀ c, s'.child? s.slot.generation = some c → c.isAtLarge = false
  code : ∀ n, code = some n →
    ∃ c, s'.child? s.slot.generation = some c ∧ c.ended = some (some n)

theorem rests_setChild (h : s.child? generation = some c) (hl : c.Later c') :
    s.Rests (s.setChild generation c') :=
  ⟨rfl, rfl, rfl, length_setChild s generation c', continues_setChild h hl⟩

theorem Rests.refl (s : Supervisor) : s.Rests s :=
  ⟨rfl, rfl, rfl, rfl, .refl s⟩

/-! ### Starting and stopping -/

theorem start_of_running (h : s.slot.state = .running) (answer : Except DiskFault Nat) :
    s.start answer = s := by
  unfold start
  rw [if_pos (AgentState.isRunning_iff.mpr h)]

theorem start_error (h : s.slot.state ≠ .running) (fault : DiskFault) :
    s.start (.error fault) = { s with failures := s.failures ++ [fault] } := by
  unfold start
  rw [if_neg (mt AgentState.isRunning_iff.mp h)]

theorem begins_start_ok (h : s.slot.state ≠ .running) (processId : Nat) :
    s.Begins (s.start (.ok processId)) processId := by
  unfold start
  rw [if_neg (mt AgentState.isRunning_iff.mp h)]
  exact ⟨h, rfl, rfl, rfl, rfl⟩

theorem stop_of_idle (h : s.slot.state ≠ .running) : s.stop = s := by
  unfold stop
  rw [if_neg (mt AgentState.isRunning_iff.mp h)]

theorem ends_stop (h : s.slot.state = .running) : s.Ends s.stop none := by
  unfold stop
  rw [if_pos (AgentState.isRunning_iff.mpr h)]
  rcases hc : s.child? s.slot.generation with _ | c
  · refine ⟨h, rfl, rfl, rfl, rfl, .refl s, fun c hc' => ?_, fun n hn => by cases hn⟩
    exact absurd (hc.symm.trans hc') (by simp)
  · have hl : c.Later { c with killed := true } := ⟨fun _ he => he, fun _ => rfl⟩
    refine ⟨h, rfl, rfl, rfl, length_setChild s _ _, continues_setChild hc hl, fun c' hc' => ?_,
      fun n hn => by cases hn⟩
    have hnew := (child?_setChild hc { c with killed := true } s.slot.generation).symm.trans hc'
    rw [if_pos rfl] at hnew
    rw [← Option.some.inj hnew]
    simp [AgentChild.isAtLarge]

/-! ### The tasks -/

theorem receiver?_eq_some (h : s.receiver? = some c) :
    s.slot.state = .running ∧ s.child? s.slot.generation = some c ∧ c.writing = true := by
  unfold receiver? at h
  split at h
  · next hrun =>
    rw [Bool.and_eq_true] at hrun
    obtain ⟨hc, hw⟩ := Option.filter_eq_some_iff.mp h
    exact ⟨AgentState.isRunning_iff.mp hrun.1, hc, hw⟩
  · cases h

theorem rests_send (s : Supervisor) (r : Request) : s.Rests (s.send r) := by
  unfold send
  rcases hr : s.receiver? with _ | c
  · exact ⟨rfl, rfl, rfl, rfl, .refl s⟩
  · obtain ⟨-, hc, -⟩ := receiver?_eq_some hr
    have hl : c.Later { c with accepted := c.accepted ++ [r] } := ⟨fun _ he => he, fun hk => hk⟩
    exact ⟨rfl, rfl, rfl, length_setChild s _ _, continues_setChild hc hl⟩

/-- A report of a process that is not the running one. -/
theorem rests_report (hc : s.child? generation = some c) (code : Option Int)
    (h : ¬ (s.slot.generation = generation ∧ s.slot.state = .running)) :
    s.Rests (s.report generation c code) := by
  have hl : c.Later { c with reported := true } := ⟨fun _ he => he, fun hk => hk⟩
  unfold report
  rw [if_neg (by rw [AgentState.isRunning_iff]; exact h)]
  exact ⟨rfl, rfl, rfl, length_setChild s _ _, continues_setChild hc hl⟩

/-- The report of the running process. -/
theorem ends_report (hc : s.child? s.slot.generation = some c) {code : Option Int}
    (hcode : c.ended = some code) (h : s.slot.state = .running) :
    s.Ends (s.report s.slot.generation c code) code := by
  have hl : c.Later { c with reported := true } := ⟨fun _ he => he, fun hk => hk⟩
  have hnew : (s.setChild s.slot.generation { c with reported := true }).child?
      s.slot.generation = some { c with reported := true } := by
    rw [child?_setChild hc, if_pos rfl]
  unfold report
  rw [if_pos ⟨rfl, AgentState.isRunning_iff.mpr h⟩]
  refine ⟨h, rfl, rfl, rfl, length_setChild s _ _, continues_setChild hc hl, fun c' hc' => ?_,
    fun n hn => ⟨_, hnew, by rw [hcode, hn]⟩⟩
  rw [← Option.some.inj (hnew.symm.trans hc')]
  simp [AgentChild.isAtLarge, hcode]

theorem childEnds_eq_some {code : Option Int}
    (h : s.step? (.childEnds generation code) = some s') :
    ∃ c, s.child? generation = some c ∧ c.ended = none ∧
      s' = s.setChild generation { c with ended := some code } := by
  simp only [step?, Option.bind_eq_bind, Option.bind_eq_some_iff] at h
  obtain ⟨c, hc, h⟩ := h
  split at h
  · cases h
  · next hended =>
    exact ⟨c, hc, by simpa using hended, (Option.some.inj h).symm⟩

theorem watcherReports_eq_some (h : s.step? (.watcherReports generation) = some s') :
    ∃ c code, s.child? generation = some c ∧ c.ended = some code ∧
      s' = s.report generation c code := by
  simp only [step?, Option.bind_eq_bind, Option.bind_eq_some_iff] at h
  obtain ⟨c, hc, code, hcode, h⟩ := h
  split at h
  · cases h
  · exact ⟨c, code, hc, hcode, (Option.some.inj h).symm⟩

theorem writerWrites_eq_some (h : s.step? (.writerWrites generation) = some s') :
    ∃ c r, s.child? generation = some c ∧ c.next? = some r ∧ c.writing = true ∧
      s' = s.setChild generation
        { c with taken := c.taken + 1, written := c.written ++ wire r } := by
  simp only [step?, Option.bind_eq_bind, Option.bind_eq_some_iff] at h
  obtain ⟨c, hc, r, hr, h⟩ := h
  split at h
  · next hw => exact ⟨c, r, hc, hr, hw, (Option.some.inj h).symm⟩
  · cases h

theorem writerFails_eq_some {bytes : Nat}
    (h : s.step? (.writerFails generation bytes) = some s') :
    ∃ c r, s.child? generation = some c ∧ c.next? = some r ∧ c.writing = true ∧
      s' = s.setChild generation
        { c with taken := c.taken + 1, writing := false
                 written := c.written ++ (wire r).take bytes } := by
  simp only [step?, Option.bind_eq_bind, Option.bind_eq_some_iff] at h
  obtain ⟨c, hc, r, hr, h⟩ := h
  split at h
  · next hw => exact ⟨c, r, hc, hr, hw, (Option.some.inj h).symm⟩
  · cases h

/-! ### All actions -/

/-- **One step**: the slot stays, a successful start begins a generation, or the present generation
is ended by a stop or by its own watcher. -/
theorem step?_cases (h : s.step? a = some s') :
    s.Rests s' ∨ (∃ processId, a = .start (.ok processId) ∧ s.Begins s' processId) ∨
      ∃ code, (a = .stop ∨ a = .watcherReports s.slot.generation) ∧ s.Ends s' code := by
  cases a with
  | start answer =>
    obtain rfl := Option.some.inj h
    by_cases hrun : s.slot.state = .running
    · rw [start_of_running hrun]
      exact Or.inl (.refl s)
    · rcases answer with fault | processId
      · rw [start_error hrun]
        exact Or.inl ⟨rfl, rfl, rfl, rfl, .refl s⟩
      · exact Or.inr (Or.inl ⟨processId, rfl, begins_start_ok hrun processId⟩)
  | stop =>
    obtain rfl := Option.some.inj h
    by_cases hrun : s.slot.state = .running
    · exact Or.inr (Or.inr ⟨none, Or.inl rfl, ends_stop hrun⟩)
    · rw [stop_of_idle hrun]
      exact Or.inl (.refl s)
  | send r =>
    obtain rfl := Option.some.inj h
    exact Or.inl (rests_send s r)
  | childEnds generation code =>
    obtain ⟨c, hc, hended, rfl⟩ := childEnds_eq_some h
    have hl : c.Later { c with ended := some code } :=
      ⟨fun e he => absurd (hended.symm.trans he) (by simp), fun hk => hk⟩
    exact Or.inl (rests_setChild hc hl)
  | watcherReports generation =>
    obtain ⟨c, code, hc, hcode, rfl⟩ := watcherReports_eq_some h
    by_cases hpresent : s.slot.generation = generation ∧ s.slot.state = .running
    · obtain ⟨rfl, hrun⟩ := hpresent
      exact Or.inr (Or.inr ⟨code, Or.inr rfl, ends_report hc hcode hrun⟩)
    · exact Or.inl (rests_report hc code hpresent)
  | writerWrites generation =>
    obtain ⟨c, r, hc, -, -, rfl⟩ := writerWrites_eq_some h
    exact Or.inl (rests_setChild hc ⟨fun _ he => he, fun hk => hk⟩)
  | writerFails generation bytes =>
    obtain ⟨c, r, hc, -, -, rfl⟩ := writerFails_eq_some h
    exact Or.inl (rests_setChild hc ⟨fun _ he => he, fun hk => hk⟩)

end Supervisor

end CaretLayout
