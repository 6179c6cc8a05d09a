import CaretLayout.Proofs.Switchboard.Epochs
import CaretLayout.Proofs.Switchboard.Sound

/-!
# Without a time of rest every change is told of

Without a time of rest the host is told of the changes of scope in the epochs of each session, and
each time the agent is asked for the layout that the host is told (`run_prompt`).
-/

namespace CaretLayout

/-! ### Layouts -/

/-- The layout that a request asks for. -/
def Request.layout? (r : Request) : Option String :=
  if r.action = "switch" then some r.payload else none

/-- The layout that a message tells of. -/
def HostMessage.layout? : HostMessage → Option String
  | .mode _ _ layout => some layout
  | _ => none

namespace Effect

/-- The layouts that the agent is asked for, in order. -/
def layoutsAsked (l : List Effect) : List String :=
  (requests l).filterMap Request.layout?

/-- The layouts that the host is told of, in order. -/
def layoutsTold (l : List Effect) : List String :=
  (messages l).filterMap HostMessage.layout?

theorem layoutsAsked_append (l l' : List Effect) :
    layoutsAsked (l ++ l') = layoutsAsked l ++ layoutsAsked l' := by
  simp only [layoutsAsked, requests, List.filterMap_append]

theorem layoutsTold_append (l l' : List Effect) :
    layoutsTold (l ++ l') = layoutsTold l ++ layoutsTold l' := by
  simp only [layoutsTold, messages, List.filterMap_append]

/-- That the agent is asked for just the layouts that the host is told of. -/
def InStep (l : List Effect) : Prop :=
  layoutsAsked l = layoutsTold l

theorem InStep.append {l l' : List Effect} (h : InStep l) (h' : InStep l') : InStep (l ++ l') := by
  unfold InStep at *
  rw [layoutsAsked_append, layoutsTold_append, h, h']

end Effect

namespace Switchboard

open Effect (modesOf layoutsAsked layoutsTold InStep)

variable {s : Settings}

theorem inStep_dispatch (s : Settings) (b : Switchboard) (c : CursorEvent) :
    InStep (b.dispatch s c).2 := by
  unfold dispatch effectsOf
  simp only [Dispatcher.cursorMoved_sent]
  rcases ((b.session s c.session).dispatcher.cursorMoved s.table (c.view s.lookback)).2.switch
    with _ | w
  · rfl
  · rfl

theorem inStep_dispatchAll (s : Settings) : ∀ (cs : List CursorEvent) (b : Switchboard),
    InStep (b.dispatchAll s cs).2
  | [], _ => rfl
  | c :: cs, b => (inStep_dispatch s b c).append (inStep_dispatchAll s cs _)

theorem inStep_cursor (s : Settings) (now : Nat) (b : Switchboard) (c : CursorEvent) :
    InStep (b.cursor s now c).2 := by
  unfold cursor
  split_ifs
  · rfl
  · exact inStep_dispatch s b c
  · rfl

theorem inStep_step (s : Settings) (b : Switchboard) (next : Step) : InStep (b.step s next).2 := by
  match next with
  | .flush now order => exact inStep_dispatchAll s _ _
  | .event now (.host (.cursor c)) => exact inStep_cursor s now b c
  | .event _ (.host .toggle) => rfl
  | .event _ (.host .listLayouts) => rfl
  | .event _ (.host (.close _)) => rfl
  | .event _ (.host .shutdown) => rfl
  | .event _ (.agent _) => rfl
  | .event _ (.agentExited _) => rfl
  | .event _ .shutdown => rfl

theorem inStep_run (s : Settings) : ∀ (b : Switchboard) (steps : List Step),
    InStep (b.run s steps).2.flatten
  | _, [] => rfl
  | b, next :: steps => (inStep_step s b next).append (inStep_run s _ steps)

/-! ### The theorem -/

/-- Without a time of rest a session is told of the changes of scope in its epochs. -/
theorem modesOf_run_prompt (hq : s.quiet = 0) {steps : List Step} (hv : Visits s (initial s) steps)
    (name : String) : modesOf name ((initial s).run s steps).2.flatten =
      (epochScopes (Moment.history s name s.enabled (steps.map Step.moment))).map
        fun k => .mode name k.name (s.layouts.of k) := by
  have hsound := sound_initial s
  rw [hsound.modesOf_run hv, (hsound.fits name).run_changes hq, ← (changes_eq _).1]
  rfl

/-- **Without a time of rest** the host is told of every change of scope in the epochs of a session
and of nothing else, the agent is asked for the layouts that the host is told of, one for one and in
order, and each is the layout of the scope. -/
theorem run_prompt (hq : s.quiet = 0) {steps : List Step} (hv : Visits s (initial s) steps) :
    (∀ name, modesOf name ((initial s).run s steps).2.flatten =
      (epochScopes (Moment.history s name s.enabled (steps.map Step.moment))).map
        fun k => .mode name k.name (s.layouts.of k)) ∧
    layoutsAsked ((initial s).run s steps).2.flatten =
      layoutsTold ((initial s).run s steps).2.flatten ∧
    ∀ session scope layout,
      .message (.mode session scope layout) ∈ ((initial s).run s steps).2.flatten →
        ∃ k : Scope, scope = k.name ∧ layout = s.layouts.of k := by
  refine ⟨modesOf_run_prompt hq hv, inStep_run s _ _, fun session scope layout hmem => ?_⟩
  have htold : .mode session scope layout ∈ modesOf session ((initial s).run s steps).2.flatten :=
    List.mem_filter.mpr ⟨List.mem_filterMap.mpr ⟨_, hmem, rfl⟩, beq_self_eq_true session⟩
  rw [modesOf_run_prompt hq hv] at htold
  obtain ⟨k, -, hk⟩ := List.mem_map.mp htold
  cases hk
  exact ⟨k, rfl, rfl⟩

/-- In the small run the session `a` is told of two epochs, as switching is turned off and on. -/
theorem smallRun_prompt : modesOf "a" ((initial (.small 0)).run (.small 0) smallRun).2.flatten =
    [.mode "a" "comment" "00000804", .mode "a" "code" "00000409"] := by
  rw [(run_prompt (s := .small 0) (by decide) (by decide)).1 "a"]
  decide

end Switchboard

end CaretLayout
