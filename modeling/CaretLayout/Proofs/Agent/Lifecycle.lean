import CaretLayout.Proofs.Agent.Step
import Mathlib.Data.List.Chain

/-!
# The life of the agent process

Starts, stops, ends of processes and late reports come in any order.  In every state that can be
reached, what the supervisor holds agrees with the state of the process, the states made known take
turns, and only the process of the present generation can be at large (`Coherent`).  It follows that
a generation is ended by a stop or by its own watcher and by nothing else (`run_lifecycle`).
-/

namespace CaretLayout

/-- Which state can be made known after which: what runs ends, what does not run starts. -/
inductive AgentState.Turn : AgentState → AgentState → Prop where
  | first : Turn .notStarted .running
  | ended (code : Option Int) : Turn .running (.exited code)
  | again (code : Option Int) : Turn (.exited code) .running

theorem AgentState.turn_running {state : AgentState} (h : state ≠ .running) :
    state.Turn .running := by
  cases state with
  | notStarted => exact .first
  | running => exact absurd rfl h
  | exited code => exact .again code

namespace Supervisor

variable {s s' : Supervisor} {a : Action} {actions more : List Action} {generation processId : Nat}
  {c : AgentChild} {code : Option Int}

/-! ### The process that a start adds -/

theorem child?_eq_some_iff :
    s.child? generation = some c ↔ 0 < generation ∧ s.children[generation - 1]? = some c := by
  unfold child?
  split
  · next h => simp [h]
  · next h => exact ⟨fun hc => ⟨by omega, hc⟩, fun hc => hc.2⟩

theorem Begins.child? (h : s.Begins s' processId) (hc : s.child? generation = some c) :
    s'.child? generation = some c := by
  obtain ⟨hpos, hc⟩ := child?_eq_some_iff.mp hc
  obtain ⟨hlt, -⟩ := List.getElem?_eq_some_iff.mp hc
  refine child?_eq_some_iff.mpr ⟨hpos, ?_⟩
  rw [h.children, List.getElem?_append_left hlt, hc]

theorem Begins.child?_of (h : s.Begins s' processId) (hc : s'.child? generation = some c) :
    s.child? generation = some c ∨ generation = s.children.length + 1 := by
  obtain ⟨hpos, hc⟩ := child?_eq_some_iff.mp hc
  rw [h.children] at hc
  by_cases hlt : generation - 1 < s.children.length
  · rw [List.getElem?_append_left hlt] at hc
    exact Or.inl (child?_eq_some_iff.mpr ⟨hpos, hc⟩)
  · obtain ⟨hle, -⟩ := List.getElem?_eq_some_iff.mp hc
    rw [List.length_append, List.length_singleton] at hle
    exact Or.inr (by omega)

/-! ### What holds of every state -/

/-- The parts of a supervisor agree. -/
structure Coherent (s : Supervisor) : Prop where
  hasInput : s.slot.hasInput = true ↔ s.slot.state = .running
  hasKill : s.slot.hasKill = true ↔ s.slot.state = .running
  processId : s.slot.state ≠ .running → s.slot.processId = none
  /-- First, no process was started. -/
  first : s.published.head? = some .notStarted
  /-- Since then the states took turns. -/
  turns : s.published.IsChain AgentState.Turn
  /-- What is known is what was last made known. -/
  last : s.published.getLast? = some s.slot.state
  starts : s.starts = s.slot.generation
  /-- Each generation was made known when it began. -/
  begun : s.published.count .running = s.slot.generation
  length : s.children.length = s.slot.generation
  /-- A process that is at large is the one that runs. -/
  atLarge : ∀ generation c, s.child? generation = some c → c.isAtLarge = true →
    generation = s.slot.generation ∧ s.slot.state = .running
  /-- An exit code that was made known is that of the process begun last before. -/
  codes : ∀ before n after, s.published = before ++ .exited (some n) :: after →
    ∃ c, s.child? (before.count .running) = some c ∧ c.ended = some (some n)

theorem coherent_initial : Coherent {} where
  hasInput := by simp
  hasKill := by simp
  processId := fun _ => rfl
  first := rfl
  turns := by simp
  last := rfl
  starts := rfl
  begun := rfl
  length := rfl
  atLarge := fun generation c hc => by simp [child?] at hc
  codes := fun before n after h => by
    rcases before with _ | ⟨x, before⟩ <;> simp at h

/-- A place in a list that grew at its end is a place before or the new end. -/
private theorem split_concat {α : Type} {l before after : List α} {x y : α}
    (h : l ++ [x] = before ++ y :: after) :
    (∃ after', l = before ++ y :: after') ∨ (l = before ∧ x = y) := by
  rcases List.eq_nil_or_concat after with rfl | ⟨after', z, rfl⟩
  · obtain ⟨hl, hx⟩ := List.append_inj' h rfl
    exact Or.inr ⟨hl, by simpa using hx⟩
  · rw [List.concat_eq_append, ← List.cons_append, ← List.append_assoc] at h
    exact Or.inl ⟨after', (List.append_inj' h rfl).1⟩

/-- One more state is made known, which can follow on the present one. -/
theorem Coherent.turns_concat (h : s.Coherent) {state : AgentState}
    (hturn : s.slot.state.Turn state) : (s.published ++ [state]).IsChain AgentState.Turn := by
  refine List.isChain_append.mpr ⟨h.turns, .singleton _, fun x hx y hy => ?_⟩
  rw [h.last] at hx
  cases hx
  cases hy
  exact hturn

theorem Coherent.first_concat (h : s.Coherent) (state : AgentState) :
    (s.published ++ [state]).head? = some .notStarted := by
  rw [List.head?_append, h.first]
  rfl

theorem Coherent.rests (h : s.Coherent) (hr : s.Rests s') : s'.Coherent where
  hasInput := by rw [hr.slot]; exact h.hasInput
  hasKill := by rw [hr.slot]; exact h.hasKill
  processId := by rw [hr.slot]; exact h.processId
  first := by rw [hr.published]; exact h.first
  turns := by rw [hr.published]; exact h.turns
  last := by rw [hr.published, hr.slot]; exact h.last
  starts := by rw [hr.starts, hr.slot]; exact h.starts
  begun := by rw [hr.published, hr.slot]; exact h.begun
  length := by rw [hr.length, hr.slot]; exact h.length
  atLarge := fun generation c hc hlarge => by
    obtain ⟨c₀, hc₀, hl⟩ := hr.continues.child?_of hc
    rw [hr.slot]
    exact h.atLarge generation c₀ hc₀ (hl.isAtLarge hlarge)
  codes := fun before n after hp => by
    rw [hr.published] at hp
    exact hr.continues.ended (h.codes before n after hp)

theorem Coherent.begins (h : s.Coherent) (hb : s.Begins s' processId) : s'.Coherent where
  hasInput := by simp [hb.slot]
  hasKill := by simp [hb.slot]
  processId := fun hidle => absurd (by rw [hb.slot]) hidle
  first := by rw [hb.published, h.first_concat]
  turns := by
    rw [hb.published]
    exact h.turns_concat (AgentState.turn_running hb.idle)
  last := by rw [hb.published, hb.slot, List.getLast?_concat]
  starts := by rw [hb.starts, hb.slot, h.starts]
  begun := by
    rw [hb.published, hb.slot, List.count_append, h.begun]
    rfl
  length := by rw [hb.children, hb.slot, List.length_append, h.length, List.length_singleton]
  atLarge := fun generation c hc hlarge => by
    rw [hb.slot]
    rcases hb.child?_of hc with hc | hnew
    · exact absurd (h.atLarge generation c hc hlarge).2 hb.idle
    · exact ⟨by rw [hnew, h.length], rfl⟩
  codes := fun before n after hp => by
    rw [hb.published] at hp
    rcases split_concat hp with ⟨after', hp⟩ | ⟨-, hx⟩
    · obtain ⟨c, hc, hended⟩ := h.codes before n after' hp
      exact ⟨c, hb.child? hc, hended⟩
    · cases hx

theorem Coherent.ends (h : s.Coherent) (he : s.Ends s' code) : s'.Coherent where
  hasInput := by simp [he.slot]
  hasKill := by simp [he.slot]
  processId := fun _ => by rw [he.slot]
  first := by rw [he.published, h.first_concat]
  turns := by
    have hturn : s.slot.state.Turn (.exited code) := by
      rw [he.running]
      exact .ended code
    rw [he.published]
    exact h.turns_concat hturn
  last := by rw [he.published, he.slot, List.getLast?_concat]
  starts := by rw [he.starts, he.slot, h.starts]
  begun := by
    rw [he.published, he.slot, List.count_append, h.begun]
    rfl
  length := by rw [he.length, he.slot, h.length]
  atLarge := fun generation c hc hlarge => by
    obtain ⟨c₀, hc₀, hl⟩ := he.continues.child?_of hc
    obtain ⟨rfl, -⟩ := h.atLarge generation c₀ hc₀ (hl.isAtLarge hlarge)
    rw [he.notAtLarge c hc] at hlarge
    cases hlarge
  codes := fun before n after hp => by
    rw [he.published] at hp
    rcases split_concat hp with ⟨after', hp⟩ | ⟨rfl, hx⟩
    · exact he.continues.ended (h.codes before n after' hp)
    · rw [h.begun]
      exact he.code n (AgentState.exited.inj hx)

theorem Coherent.step (h : s.Coherent) (hstep : s.step? a = some s') : s'.Coherent := by
  rcases step?_cases hstep with hr | ⟨processId, -, hb⟩ | ⟨code, -, he⟩
  · exact h.rests hr
  · exact h.begins hb
  · exact h.ends he

theorem Coherent.run : ∀ {actions : List Action} {s s' : Supervisor}, s.Coherent →
    s.run? actions = some s' → s'.Coherent
  | [], s, s', h, hrun => by
    cases hrun
    exact h
  | a :: more, s, s', h, hrun => by
    obtain ⟨next, hstep, hrun⟩ := Option.bind_eq_some_iff.mp hrun
    exact (h.step hstep).run hrun

/-! ### What follows -/

/-- At most one process is at large: those of older generations are over. -/
theorem Coherent.countP_atLarge (h : s.Coherent) :
    s.children.countP (·.isAtLarge) ≤ 1 := by
  rcases List.eq_nil_or_concat s.children with hnil | ⟨older, present, hcons⟩
  · simp [hnil]
  · rw [List.concat_eq_append] at hcons
    have hlength : s.slot.generation = older.length + 1 := by
      rw [← h.length, hcons, List.length_append, List.length_singleton]
    have holder : older.countP (·.isAtLarge) = 0 := by
      refine List.countP_eq_zero.mpr fun c hc hlarge => ?_
      obtain ⟨i, hi, rfl⟩ := List.getElem_of_mem hc
      have hchild : s.child? (i + 1) = some older[i] := by
        refine child?_eq_some_iff.mpr ⟨Nat.succ_pos i, ?_⟩
        rw [hcons, Nat.add_sub_cancel, List.getElem?_append_left hi, List.getElem?_eq_getElem hi]
      have hpresent := (h.atLarge _ _ hchild hlarge).1
      omega
    rw [hcons, List.countP_append, holder, Nat.zero_add]
    exact List.countP_le_length

theorem Coherent.running_of_atLarge (h : s.Coherent) (hc : c ∈ s.children)
    (hlarge : c.isAtLarge = true) : s.slot.state = .running := by
  obtain ⟨i, hi, rfl⟩ := List.getElem_of_mem hc
  have hchild : s.child? (i + 1) = some s.children[i] :=
    child?_eq_some_iff.mpr ⟨Nat.succ_pos i, List.getElem?_eq_getElem hi⟩
  exact (h.atLarge _ _ hchild hlarge).2

/-- A watcher of another generation finds nothing to change. -/
theorem rests_of_other_watcher (hstep : s.step? (.watcherReports generation) = some s')
    (hother : generation ≠ s.slot.generation) : s.Rests s' := by
  rcases step?_cases hstep with hr | ⟨processId, ha, -⟩ | ⟨code, ha | ha, -⟩
  · exact hr
  · cases ha
  · cases ha
  · cases ha
    exact absurd rfl hother

/-- A running process runs on until it is stopped or its own watcher reports. -/
theorem run?_slot_of_running : ∀ {more : List Action} {s s' : Supervisor},
    s.slot.state = .running → s.run? more = some s' → (∀ a ∈ more, a ≠ .stop) →
    (∀ a ∈ more, a ≠ .watcherReports s.slot.generation) →
      s'.slot = s.slot ∧ s'.published = s.published
  | [], s, s', _, hrun, _, _ => by
    cases hrun
    exact ⟨rfl, rfl⟩
  | a :: more, s, s', hrunning, hrun, hstop, hwatcher => by
    obtain ⟨next, hstep, hrun⟩ := Option.bind_eq_some_iff.mp hrun
    obtain ⟨hstop₁, hstop⟩ := List.forall_mem_cons.mp hstop
    obtain ⟨hwatcher₁, hwatcher⟩ := List.forall_mem_cons.mp hwatcher
    rcases step?_cases hstep with hr | ⟨processId, -, hb⟩ | ⟨code, ha | ha, -⟩
    · rw [← hr.slot] at hrunning hwatcher
      rw [← hr.slot, ← hr.published]
      exact run?_slot_of_running hrunning hrun hstop hwatcher
    · exact absurd hrunning hb.idle
    · exact absurd ha hstop₁
    · exact absurd ha hwatcher₁

/-- The life of the agent process, told at one state of it. -/
structure Lifecycle (s : Supervisor) : Prop extends Coherent s where
  /-- At most one process was neither told to end nor has ended. -/
  single : s.children.countP (·.isAtLarge) ≤ 1
  /-- If there is one, it runs. -/
  runs : ∀ c ∈ s.children, c.isAtLarge = true → s.slot.state = .running
  /-- A running process runs on until it is stopped or its own watcher reports. -/
  kept : s.slot.state = .running → ∀ more s', s.run? more = some s' → (∀ a ∈ more, a ≠ .stop) →
    (∀ a ∈ more, a ≠ .watcherReports s.slot.generation) →
      s'.slot = s.slot ∧ s'.published = s.published
  /-- The watcher of an older generation changes nothing that is known. -/
  older : ∀ generation s', generation < s.slot.generation →
    s.step? (.watcherReports generation) = some s' →
      s'.slot = s.slot ∧ s'.published = s.published
  /-- A start that the system refuses is reported and changes nothing else. -/
  refused : s.slot.state ≠ .running → ∀ fault, s.step? (.start (.error fault)) =
    some { s with failures := s.failures ++ [fault] }
  /-- A start while a process runs is ignored. -/
  ignored : s.slot.state = .running → ∀ answer, s.step? (.start answer) = some s
  /-- So is a stop while none runs. -/
  stopped : s.slot.state ≠ .running → s.step? .stop = some s
  /-- Requests change nothing that is known. -/
  sent : ∀ r s', s.step? (.send r) = some s' → s'.slot = s.slot ∧ s'.published = s.published

theorem Coherent.lifecycle (h : s.Coherent) : s.Lifecycle where
  toCoherent := h
  single := h.countP_atLarge
  runs := fun _ hc hlarge => h.running_of_atLarge hc hlarge
  kept := fun hrunning _ _ hrun hstop hwatcher =>
    run?_slot_of_running hrunning hrun hstop hwatcher
  older := fun generation s' holder hstep =>
    have hr := rests_of_other_watcher hstep (Nat.ne_of_lt holder)
    ⟨hr.slot, hr.published⟩
  refused := fun hidle fault => by rw [step?, start_error hidle]
  ignored := fun hrunning answer => by rw [step?, start_of_running hrunning]
  stopped := fun hidle => by rw [step?, stop_of_idle hidle]
  sent := fun r s' hstep => by
    cases hstep
    exact ⟨(rests_send s r).slot, (rests_send s r).published⟩

/-- **The life of the agent process**: it is as told in every state that actions lead to, in
whatever order they come. -/
theorem run_lifecycle (h : run? {} actions = some s) : s.Lifecycle :=
  (coherent_initial.run h).lifecycle

/-- A process that ends and is stopped before its watcher reports; the report comes when the next
process runs.  That one ends with a code, and a third start is refused. -/
def lateReport : List Action :=
  [.start (.ok 70), .childEnds 1 (some 1), .stop, .start (.ok 71), .watcherReports 1,
   .childEnds 2 (some 3), .watcherReports 2, .start (.error .missing)]

theorem lateReport_lifecycle : ∃ s, run? {} lateReport = some s ∧
    s.published = [.notStarted, .running, .exited none, .running, .exited (some 3)] ∧
    s.Lifecycle :=
  ⟨_, rfl, rfl, run_lifecycle (show run? {} lateReport = some _ from rfl)⟩

end Supervisor

end CaretLayout
