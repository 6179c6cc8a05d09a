import CaretLayout.Proofs.Agent.Lifecycle
import Mathlib.Data.List.Infix

/-!
# Requests go to the process that runs

A request that is sent is queued for the process that runs, or dropped: while no process runs, and
also when the writer of the process has failed.  Writers go on with what was queued for their own
processes, even after these have been stopped and others started.  So what is written to a process is
a prefix of the lines of the requests that were queued while it ran, in the order in which they were
sent (`run_delivers`).
-/

namespace CaretLayout

/-! ### The requests of one process -/

namespace AgentChild

/-- The bytes of the requests that the writer has taken. -/
def takenBytes (c : AgentChild) : List UInt8 :=
  (c.accepted.take c.taken).flatMap Supervisor.wire

/-- The writer writes whole lines in order, and part of a line only if it fails. -/
structure InOrder (c : AgentChild) : Prop where
  taken_le : c.taken ≤ c.accepted.length
  written : c.written <+: c.takenBytes
  whole : c.writing = true → c.written = c.takenBytes

/-- The requests of a process from one step to the next, in which one may be queued for it. -/
inductive Serves (c : AgentChild) : Option Request → AgentChild → Prop where
  /-- Nothing happens to the requests. -/
  | idle {c' : AgentChild} (accepted : c'.accepted = c.accepted) (taken : c'.taken = c.taken)
      (writing : c'.writing = c.writing) (written : c'.written = c.written) : Serves c none c'
  /-- A request is queued. -/
  | queue (r : Request) : Serves c (some r) { c with accepted := c.accepted ++ [r] }
  /-- The writer takes the next request and writes it. -/
  | write {r : Request} (writing : c.writing = true) (next : c.next? = some r) : Serves c none
      { c with taken := c.taken + 1, written := c.written ++ Supervisor.wire r }
  /-- The writer takes the next request and fails. -/
  | fail {r : Request} (writing : c.writing = true) (next : c.next? = some r) (bytes : Nat) :
      Serves c none
        { c with taken := c.taken + 1, writing := false
                 written := c.written ++ (Supervisor.wire r).take bytes }

variable {c c' : AgentChild} {q : Option Request}

theorem inOrder_new : InOrder {} where
  taken_le := Nat.le_refl 0
  written := List.prefix_rfl
  whole := fun _ => rfl

theorem Serves.accepted (h : c.Serves q c') : c'.accepted = c.accepted ++ q.toList := by
  cases h with
  | idle accepted => rw [accepted, Option.toList_none, List.append_nil]
  | queue r => rfl
  | write => exact (List.append_nil _).symm
  | fail => exact (List.append_nil _).symm

/-- The bytes of the requests that are taken are those before and those of the next one. -/
theorem takenBytes_next {r : Request} (h : c.next? = some r) :
    (c.accepted.take (c.taken + 1)).flatMap Supervisor.wire = c.takenBytes ++ Supervisor.wire r := by
  have hget : c.accepted[c.taken]? = some r := h
  rw [takenBytes, List.take_add_one, hget, List.flatMap_append, Option.toList_some,
    List.flatMap_singleton]

theorem InOrder.serves (h : c.InOrder) (hs : c.Serves q c') : c'.InOrder := by
  cases hs with
  | idle accepted taken writing written =>
    have hbytes : c'.takenBytes = c.takenBytes := by rw [takenBytes, accepted, taken, takenBytes]
    exact ⟨by rw [accepted, taken]; exact h.taken_le, by rw [written, hbytes]; exact h.written,
      by rw [writing, written, hbytes]; exact h.whole⟩
  | queue r =>
    have hbytes : takenBytes { c with accepted := c.accepted ++ [r] } = c.takenBytes := by
      rw [takenBytes, List.take_append_of_le_length h.taken_le]
      rfl
    refine ⟨?_, by rw [hbytes]; exact h.written, fun hw => by rw [hbytes]; exact h.whole hw⟩
    rw [List.length_append]
    exact Nat.le_add_right_of_le h.taken_le
  | @write r writing next =>
    have hlt := (List.getElem?_eq_some_iff.mp next).1
    have hwhole : c.written ++ Supervisor.wire r =
        (c.accepted.take (c.taken + 1)).flatMap Supervisor.wire := by
      rw [h.whole writing, takenBytes_next next]
    exact ⟨hlt, by rw [hwhole]; exact List.prefix_rfl, fun _ => hwhole⟩
  | fail writing next bytes =>
    have hlt := (List.getElem?_eq_some_iff.mp next).1
    refine ⟨hlt, ?_, fun hw => by cases hw⟩
    show c.written ++ _ <+: (c.accepted.take (c.taken + 1)).flatMap Supervisor.wire
    rw [takenBytes_next next, h.whole writing]
    exact (List.prefix_append_right_inj _).mpr (List.take_prefix _ _)

end AgentChild

namespace Supervisor

variable {s s' : Supervisor} {a : Action} {actions : List Action} {generation : Nat}
  {c c' : AgentChild}

/-! ### Queued or dropped -/

theorem send_of_receiver (h : s.receiver? = some c) (r : Request) :
    s.send r = { s.setChild s.slot.generation { c with accepted := c.accepted ++ [r] } with
      queued := s.queued + 1 } := by
  unfold send
  rw [h]

theorem send_of_none (h : s.receiver? = none) (r : Request) :
    s.send r = { s with dropped := s.dropped + 1 } := by
  unfold send
  rw [h]

/-- A request that is sent is queued while a process runs, or else dropped, and it is counted once. -/
theorem send_cases (s : Supervisor) (r : Request) :
    ((s.send r).queued = s.queued + 1 ∧ (s.send r).dropped = s.dropped ∧
        s.slot.state = .running) ∨
      ((s.send r).queued = s.queued ∧ (s.send r).dropped = s.dropped + 1) := by
  rcases hr : s.receiver? with _ | c
  · rw [send_of_none hr]
    exact Or.inr ⟨rfl, rfl⟩
  · rw [send_of_receiver hr]
    exact Or.inl ⟨rfl, rfl, (receiver?_eq_some hr).1⟩

/-- Whether an action sends a request. -/
def Action.isSend : Action → Bool
  | .send _ => true
  | _ => false

theorem counts_of_not_send (h : s.step? a = some s') (ha : a.isSend = false) :
    s'.queued = s.queued ∧ s'.dropped = s.dropped := by
  cases a with
  | send r => cases ha
  | start answer =>
    obtain rfl := Option.some.inj h
    unfold start
    split
    · exact ⟨rfl, rfl⟩
    · rcases answer with fault | processId
      · exact ⟨rfl, rfl⟩
      · exact ⟨rfl, rfl⟩
  | stop =>
    obtain rfl := Option.some.inj h
    unfold stop
    split_ifs
    · rcases s.child? s.slot.generation with _ | c
      · exact ⟨rfl, rfl⟩
      · exact ⟨rfl, rfl⟩
    · exact ⟨rfl, rfl⟩
  | childEnds generation code =>
    obtain ⟨c, -, -, rfl⟩ := childEnds_eq_some h
    exact ⟨rfl, rfl⟩
  | watcherReports generation =>
    obtain ⟨c, code, -, -, rfl⟩ := watcherReports_eq_some h
    unfold report
    dsimp only
    split_ifs
    · exact ⟨rfl, rfl⟩
    · exact ⟨rfl, rfl⟩
  | writerWrites generation =>
    obtain ⟨c, r, -, -, -, rfl⟩ := writerWrites_eq_some h
    exact ⟨rfl, rfl⟩
  | writerFails generation bytes =>
    obtain ⟨c, r, -, -, -, rfl⟩ := writerFails_eq_some h
    exact ⟨rfl, rfl⟩

/-- Every request that is sent is counted, and nothing else. -/
theorem counts_run : ∀ {actions : List Action} {s s' : Supervisor}, s.run? actions = some s' →
    s'.queued + s'.dropped = s.queued + s.dropped + actions.countP Action.isSend
  | [], s, s', hrun => by
    cases hrun
    rfl
  | a :: more, s, s', hrun => by
    obtain ⟨next, hstep, hrun⟩ := Option.bind_eq_some_iff.mp hrun
    rw [counts_run hrun]
    by_cases ha : a.isSend = true
    · rw [List.countP_cons_of_pos ha]
      cases a with
      | send r =>
        obtain rfl := Option.some.inj hstep
        rcases send_cases s r with ⟨hq, hd, -⟩ | ⟨hq, hd⟩
        · omega
        · omega
      | _ => cases ha
    · rw [List.countP_cons_of_neg ha]
      obtain ⟨hq, hd⟩ := counts_of_not_send hstep (Bool.eq_false_iff.mpr ha)
      rw [hq, hd]

/-- The request that an action queues for the process of a generation: the generation runs, and the
count of queued requests goes up. -/
def queuedBy (generation : Nat) (s : Supervisor) : Action → Option Request
  | .send r =>
    if s.slot.state = .running ∧ s.slot.generation = generation ∧
        (s.send r).queued = s.queued + 1 then some r else none
  | _ => none

/-- The requests queued while the process of a generation runs, in the order of the calls. -/
def queuedFor (generation : Nat) : Supervisor → List Action → List Request
  | _, [] => []
  | s, a :: more =>
    match s.step? a with
    | some s' => (s.queuedBy generation a).toList ++ queuedFor generation s' more
    | none => []

theorem queuedBy_of_receiver (h : s.receiver? = some c) (r : Request) :
    s.queuedBy generation (.send r) = if s.slot.generation = generation then some r else none := by
  have hrun := (receiver?_eq_some h).1
  have hcount : (s.send r).queued = s.queued + 1 := by rw [send_of_receiver h]
  simp only [queuedBy, hrun, hcount, true_and, and_true]

theorem queuedBy_of_none (h : s.receiver? = none) (r : Request) :
    s.queuedBy generation (.send r) = none := by
  have hcount : (s.send r).queued = s.queued := by rw [send_of_none h]
  refine if_neg fun hq => ?_
  omega

/-! ### One step -/

/-- The process of a generation from one step to the next: there is none, it begins, or it goes on
with its requests. -/
inductive Passes : Option AgentChild → Option Request → Option AgentChild → Prop where
  | absent : Passes none none none
  | begins : Passes none none (some {})
  | serves {c c' : AgentChild} {q : Option Request} (h : c.Serves q c') : Passes (some c) q (some c')

theorem passes_refl (x : Option AgentChild) : Passes x none x := by
  rcases x with _ | c
  · exact .absent
  · exact .serves (.idle rfl rfl rfl rfl)

theorem passes_setChild (h : s.child? generation = some c) (hs : c.Serves none c') (other : Nat) :
    Passes (s.child? other) none ((s.setChild generation c').child? other) := by
  rw [child?_setChild h]
  split_ifs with ho
  · rw [ho, h]
    exact .serves hs
  · exact passes_refl _

theorem Begins.passes {processId : Nat} (h : s.Begins s' processId) (other : Nat) :
    Passes (s.child? other) none (s'.child? other) := by
  rcases hc : s.child? other with _ | c
  · rcases hc' : s'.child? other with _ | c'
    · exact .absent
    · obtain ⟨-, hget⟩ := child?_eq_some_iff.mp hc'
      rw [h.children] at hget
      rcases h.child?_of hc' with hold | hnew
      · rw [hc] at hold
        cases hold
      · rw [hnew, Nat.add_sub_cancel, List.getElem?_concat_length] at hget
        rw [← Option.some.inj hget]
        exact .begins
  · rw [h.child? hc]
    exact passes_refl _

theorem passes_stop (s : Supervisor) (other : Nat) :
    Passes (s.child? other) none (s.stop.child? other) := by
  unfold stop
  split_ifs
  · rcases hc : s.child? s.slot.generation with _ | c
    · exact passes_refl _
    · have hs : c.Serves none { c with killed := true } := .idle rfl rfl rfl rfl
      exact passes_setChild hc hs other
  · exact passes_refl _

theorem passes_send (s : Supervisor) (r : Request) (other : Nat) :
    Passes (s.child? other) (s.queuedBy other (.send r)) ((s.send r).child? other) := by
  rcases hr : s.receiver? with _ | c
  · rw [queuedBy_of_none hr, send_of_none hr]
    exact passes_refl _
  · obtain ⟨-, hc, -⟩ := receiver?_eq_some hr
    rw [queuedBy_of_receiver hr, send_of_receiver hr]
    show Passes _ _ ((s.setChild s.slot.generation _).child? other)
    rw [child?_setChild hc]
    by_cases ho : s.slot.generation = other
    · subst ho
      rw [if_pos rfl, if_pos rfl, hc]
      exact .serves (.queue r)
    · rw [if_neg ho, if_neg (Ne.symm ho)]
      exact passes_refl _

theorem passes_report (hc : s.child? generation = some c) (code : Option Int) (other : Nat) :
    Passes (s.child? other) none ((s.report generation c code).child? other) := by
  have hs : c.Serves none { c with reported := true } := .idle rfl rfl rfl rfl
  unfold report
  dsimp only
  split_ifs
  · exact passes_setChild hc hs other
  · exact passes_setChild hc hs other

/-- **One step**: each process goes on with its own requests, and a request that is queued is queued
for the process that runs. -/
theorem passes_step (h : s.step? a = some s') (other : Nat) :
    Passes (s.child? other) (s.queuedBy other a) (s'.child? other) := by
  cases a with
  | start answer =>
    obtain rfl := Option.some.inj h
    by_cases hrun : s.slot.state = .running
    · rw [start_of_running hrun]
      exact passes_refl _
    · rcases answer with fault | processId
      · rw [start_error hrun]
        exact passes_refl _
      · exact (begins_start_ok hrun processId).passes other
  | stop =>
    obtain rfl := Option.some.inj h
    exact passes_stop s other
  | send r =>
    obtain rfl := Option.some.inj h
    exact passes_send s r other
  | childEnds generation code =>
    obtain ⟨c, hc, -, rfl⟩ := childEnds_eq_some h
    have hs : c.Serves none { c with ended := some code } := .idle rfl rfl rfl rfl
    exact passes_setChild hc hs other
  | watcherReports generation =>
    obtain ⟨c, code, hc, -, rfl⟩ := watcherReports_eq_some h
    exact passes_report hc code other
  | writerWrites generation =>
    obtain ⟨c, r, hc, hnext, hw, rfl⟩ := writerWrites_eq_some h
    exact passes_setChild hc (.write hw hnext) other
  | writerFails generation bytes =>
    obtain ⟨c, r, hc, hnext, hw, rfl⟩ := writerFails_eq_some h
    exact passes_setChild hc (.fail hw hnext bytes) other

/-! ### All steps -/

/-- The process of a generation, if there is one, has been handed requests and serves them in order.
-/
structure Served (x : Option AgentChild) (requests : List Request) : Prop where
  accepted : (x.map (·.accepted)).getD [] = requests
  inOrder : ∀ c, x = some c → c.InOrder

theorem Served.passes {x x' : Option AgentChild} {q : Option Request} {requests : List Request}
    (h : Served x requests) (hp : Passes x q x') : Served x' (requests ++ q.toList) := by
  obtain ⟨rfl, hinOrder⟩ := h
  cases hp with
  | absent => exact ⟨rfl, fun _ hc => by cases hc⟩
  | begins =>
    refine ⟨rfl, fun c hc => ?_⟩
    cases hc
    exact AgentChild.inOrder_new
  | serves hs =>
    refine ⟨hs.accepted, fun c hc => ?_⟩
    cases hc
    exact (hinOrder _ rfl).serves hs

theorem Served.run : ∀ {actions : List Action} {s s' : Supervisor} {requests : List Request},
    Served (s.child? generation) requests → s.run? actions = some s' →
      Served (s'.child? generation) (requests ++ queuedFor generation s actions)
  | [], s, s', requests, h, hrun => by
    cases hrun
    rw [queuedFor, List.append_nil]
    exact h
  | a :: more, s, s', requests, h, hrun => by
    obtain ⟨next, hstep, hrun⟩ := Option.bind_eq_some_iff.mp hrun
    have hnext := h.passes (passes_step hstep generation)
    rw [queuedFor, hstep, ← List.append_assoc]
    exact hnext.run hrun

theorem run?_append : ∀ (before after : List Action) (s : Supervisor),
    s.run? (before ++ after) = (s.run? before).bind (run? · after)
  | [], _, _ => rfl
  | a :: before, after, s => by
    rw [List.cons_append, run?, run?, Option.bind_assoc]
    exact congrArg _ (funext fun next => run?_append before after next)

/-! ### The theorem -/

/-- What becomes of the requests that are sent in a run. -/
structure Delivers (actions : List Action) (s : Supervisor) : Prop where
  /-- Each is queued or dropped, and counted once.  It is queued only while a process runs. -/
  sent : ∀ before r after, actions = before ++ .send r :: after →
    ∃ s₀ s₁, run? {} before = some s₀ ∧ s₀.step? (.send r) = some s₁ ∧ s₁.run? after = some s ∧
      ((s₁.queued = s₀.queued + 1 ∧ s₁.dropped = s₀.dropped ∧ s₀.slot.state = .running) ∨
        (s₁.queued = s₀.queued ∧ s₁.dropped = s₀.dropped + 1))
  /-- Nothing else is counted. -/
  counted : s.queued + s.dropped = actions.countP Action.isSend
  /-- A process is written a prefix of the lines of the requests that were queued while it ran. -/
  written : ∀ generation c, s.child? generation = some c →
    c.written <+: (queuedFor generation {} actions).flatMap fun r => Text.Utf8.encode r.line
  /-- These are the whole lines of the first of the requests, unless the writer has failed. -/
  whole : ∀ generation c, s.child? generation = some c → c.writing = true →
    c.written =
      ((queuedFor generation {} actions).take c.taken).flatMap fun r => Text.Utf8.encode r.line

theorem served_of_run (h : run? {} actions = some s) (generation : Nat) :
    Served (s.child? generation) (queuedFor generation {} actions) := by
  have hnone : child? {} generation = none := by
    unfold child?
    split
    · rfl
    · rfl
  have hserved : Served (child? {} generation) [] := by
    rw [hnone]
    exact ⟨rfl, fun _ hc => by cases hc⟩
  exact hserved.run h

/-- **Requests go to the process that runs** when they are sent, in whatever order the things come
that can happen. -/
theorem run_delivers (h : run? {} actions = some s) : Delivers actions s where
  sent := by
    rintro before r after rfl
    rw [run?_append] at h
    obtain ⟨s₀, hbefore, hafter⟩ := Option.bind_eq_some_iff.mp h
    exact ⟨s₀, s₀.send r, hbefore, rfl, hafter, send_cases s₀ r⟩
  counted := by
    have hcounts := counts_run h
    rwa [Nat.zero_add, Nat.zero_add] at hcounts
  written := fun generation c hc => by
    obtain ⟨haccepted, hinOrder⟩ := served_of_run h generation
    rw [hc] at haccepted
    rw [← show c.accepted = _ from haccepted]
    exact (hinOrder c hc).written.trans (List.IsPrefix.flatMap (List.take_prefix _ _) _)
  whole := fun generation c hc hw => by
    obtain ⟨haccepted, hinOrder⟩ := served_of_run h generation
    rw [hc] at haccepted
    rw [← show c.accepted = _ from haccepted]
    exact (hinOrder c hc).whole hw

/-- The writer of the first process goes on after a stop, when the next process runs, and fails. -/
def crossing : List Action :=
  [.send .list, .start (.ok 70), .send (.switch "a"), .send (.switch "b"), .send .list, .stop,
    .send .list, .writerWrites 1, .start (.ok 71), .send (.switch "c"), .writerFails 1 7,
    .writerWrites 2]

theorem crossing_delivers : ∃ s, run? {} crossing = some s ∧ s.queued = 4 ∧ s.dropped = 2 ∧
    queuedFor 1 {} crossing = [.switch "a", .switch "b", .list] ∧
    queuedFor 2 {} crossing = [.switch "c"] ∧
    s.children.map (·.written) = [
      Text.Utf8.encode
        "\x7b\"action\":\"switch\",\"payload\":\"a\"\x7d\n\x7b\"actio".toList,
      Text.Utf8.encode "\x7b\"action\":\"switch\",\"payload\":\"c\"\x7d\n".toList] ∧
    Delivers crossing s :=
  ⟨_, rfl, rfl, rfl, rfl, rfl, by decide +kernel,
    run_delivers (show run? {} crossing = some _ from rfl)⟩

end Supervisor

end CaretLayout
