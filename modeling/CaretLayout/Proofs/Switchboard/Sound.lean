import CaretLayout.Proofs.Keyed
import CaretLayout.Proofs.Switchboard.Lane

/-!
# The switchboard seen from one session

`Sound` is the invariant of the switchboard: no session is kept twice, and every lane is in order.
Steps and runs preserve it (`Sound.step`, `Sound.run`), and seen from a session a run of the
switchboard is a run of its lane, with the same mode messages (`lane_step`, `lane_run`).  So what is
proved of the lanes holds of the switchboard with any number of sessions.

The runs are those in which each visit goes to every session once (`Visits`).  The order of the
visit is open: the lane does not see it.
-/

namespace CaretLayout.Switchboard

open Effect (modesOf modesOf_append modesOf_nil)

variable {s : Settings} {b : Switchboard}

/-! ### Runs -/

/-- A visit goes to every session once, in any order. -/
def Step.VisitsAll (b : Switchboard) : Step → Prop
  | .event _ _ => True
  | .flush _ order => order.Perm b.sessions.keys

/-- Every visit of a run goes to every session once, in any order. -/
def Visits (s : Settings) : Switchboard → List Step → Prop
  | _, [] => True
  | b, next :: more => next.VisitsAll b ∧ Visits s (b.step s next).1 more

instance (b : Switchboard) : (next : Step) → Decidable (next.VisitsAll b)
  | .event _ _ => inferInstanceAs (Decidable True)
  | .flush _ order => inferInstanceAs (Decidable (order.Perm b.sessions.keys))

instance decidableVisits (s : Settings) : (b : Switchboard) → (steps : List Step) →
    Decidable (Visits s b steps)
  | _, [] => inferInstanceAs (Decidable True)
  | b, next :: more =>
    have := decidableVisits s (b.step s next).1 more
    inferInstanceAs (Decidable (next.VisitsAll b ∧ Visits s (b.step s next).1 more))

theorem run_cons (s : Settings) (b : Switchboard) (next : Step) (more : List Step) :
    b.run s (next :: more) = (((b.step s next).1.run s more).1,
      (b.step s next).2 :: ((b.step s next).1.run s more).2) := rfl

theorem run_append (s : Settings) : ∀ (b : Switchboard) (first second : List Step),
    b.run s (first ++ second) = (((b.run s first).1.run s second).1,
      (b.run s first).2 ++ ((b.run s first).1.run s second).2)
  | b, [], second => rfl
  | b, next :: first, second => by
    simp only [List.cons_append, run_cons, run_append s _ first second]

theorem visits_append (s : Settings) : ∀ (b : Switchboard) (first second : List Step),
    Visits s b (first ++ second) ↔ Visits s b first ∧ Visits s (b.run s first).1 second
  | b, [], second => (iff_of_eq (true_and _)).symm
  | b, next :: first, second => by
    rw [List.cons_append, Visits, Visits, visits_append s _ first second, run_cons, and_assoc]

/-! ### Operations on one session -/

theorem modesOf_effectsOf (name session : String) (o : Outcome) :
    modesOf name (effectsOf session o) =
      if session = name then Switch.messages session o.switch else [] := by
  have hsent : modesOf name (o.sent.map Effect.request) = [] := by
    simp [modesOf, Effect.messages, List.filterMap_map, Function.comp_def, Effect.message?]
  unfold effectsOf
  rw [modesOf_append, hsent, List.nil_append]
  rcases o.switch with _ | w
  · simp [Switch.messages]
  · by_cases hn : session = name
    · simp [modesOf, Effect.messages, Effect.message?, HostMessage.isModeOf, Switch.messages, hn]
    · simp [modesOf, Effect.messages, Effect.message?, HostMessage.isModeOf, hn]

theorem lane_insert (name key : String) (session : Session) :
    lane { b with sessions := b.sessions.insert key session } name =
      if key = name then ⟨b.enabled, some session⟩ else b.lane name := by
  unfold lane
  rw [Keyed.find?_insert]
  split_ifs <;> rfl

/-- A cursor that is dispatched is seen from its own session only. -/
theorem lane_dispatch (s : Settings) (b : Switchboard) (c : CursorEvent) (name : String) :
    ((b.dispatch s c).1.lane name, modesOf name (b.dispatch s c).2) =
      if c.session = name then (b.lane name).dispatch s c else (b.lane name, []) := by
  unfold dispatch
  simp only [lane_insert, modesOf_effectsOf]
  split_ifs with hc
  · subst hc
    rfl
  · rfl

theorem lane_dispatch_fst (s : Settings) (b : Switchboard) (c : CursorEvent) (name : String) :
    (b.dispatch s c).1.lane name =
      if c.session = name then ((b.lane name).dispatch s c).1 else b.lane name :=
  (congrArg Prod.fst (lane_dispatch s b c name)).trans (apply_ite Prod.fst ..)

theorem lane_schedule (s : Settings) (now : Nat) (b : Switchboard) (c : CursorEvent)
    (name : String) :
    (b.schedule s now c).lane name =
      if c.session = name then (b.lane name).schedule s now c else b.lane name := by
  unfold schedule
  rw [lane_insert]
  split_ifs with hc
  · subst hc
    rfl
  · rfl

theorem lane_toggle (b : Switchboard) (name : String) :
    b.toggle.1.lane name = (b.lane name).toggle := by
  unfold toggle lane Lane.toggle
  rw [Keyed.find?_mapValues]

theorem lane_erase (b : Switchboard) (closed name : String) :
    lane { b with sessions := b.sessions.erase closed } name =
      if closed = name then ⟨b.enabled, none⟩ else b.lane name := by
  unfold lane
  rw [Keyed.find?_erase]
  split_ifs <;> rfl

theorem lane_withoutDue (now : Nat) (b : Switchboard) (name : String) :
    (b.withoutDue now).lane name = (b.lane name).withoutDue now := by
  unfold withoutDue lane Lane.withoutDue
  rw [Keyed.find?_mapValues]

theorem lane_cursor (s : Settings) (now : Nat) (b : Switchboard) (c : CursorEvent)
    (name : String) :
    ((b.cursor s now c).1.lane name, modesOf name (b.cursor s now c).2) =
      if c.session = name then (b.lane name).cursor s now c else (b.lane name, []) := by
  unfold cursor Lane.cursor
  rw [show (b.lane name).enabled = b.enabled from rfl]
  by_cases hoff : (!b.enabled) = true
  · simp only [if_pos hoff, modesOf_nil, ite_self]
  · simp only [if_neg hoff]
    by_cases hq : s.quiet = 0
    · simp only [if_pos hq, lane_dispatch]
    · simp only [if_neg hq, lane_schedule, modesOf_nil]
      split_ifs <;> rfl

/-- Seen from a session, an event is handled by its lane. -/
theorem lane_handle (s : Settings) (now : Nat) (b : Switchboard) (e : Event) (name : String) :
    ((b.handle s now e).1.lane name, modesOf name (b.handle s now e).2) =
      (b.lane name).handle s name now e := by
  match e with
  | .host (.cursor c) => exact lane_cursor s now b c name
  | .host .toggle => exact Prod.ext (lane_toggle b name) rfl
  | .host .listLayouts => rfl
  | .host (.close closed) =>
    simp only [handle, Lane.handle, lane_erase, modesOf_nil]
    split_ifs <;> rfl
  | .host .shutdown => rfl
  | .agent _ => rfl
  | .agentExited _ => rfl
  | .shutdown => rfl

/-! ### Visits -/

/-- Of cursors that are dispatched in order, at most one of which belongs to a session, the session
sees this one. -/
theorem lane_dispatchAll (s : Settings) (name : String) : ∀ (cs : List CursorEvent)
    (b : Switchboard) (own : Option CursorEvent),
    cs.filter (·.session = name) = own.toList →
      ((b.dispatchAll s cs).1.lane name, modesOf name (b.dispatchAll s cs).2) =
        (b.lane name).dispatch? s own
  | [], b, own, h => by
    rcases own with _ | c
    · rfl
    · cases h
  | c :: cs, b, own, h => by
    have hfirst := lane_dispatch s b c name
    simp only [dispatchAll, modesOf_append]
    by_cases hc : c.session = name
    · -- the first cursor is the one of the session, so the session sees none of the others
      rw [List.filter_cons_of_pos (by simpa using hc)] at h
      rcases own with _ | c'
      · cases h
      · simp only [Option.toList_some, List.cons.injEq] at h
        obtain ⟨rfl, hnone⟩ := h
        have hrest := lane_dispatchAll s name cs (b.dispatch s c).1 none hnone
        rw [if_pos hc] at hfirst
        rw [Prod.ext_iff] at hfirst hrest ⊢
        simp only [Lane.dispatch?] at hfirst hrest ⊢
        rw [hrest.1, hrest.2, hfirst.1, hfirst.2, List.append_nil]
        exact ⟨rfl, rfl⟩
    · rw [List.filter_cons_of_neg (by simpa using hc)] at h
      have hrest := lane_dispatchAll s name cs (b.dispatch s c).1 own h
      rw [if_neg hc, Prod.mk.injEq] at hfirst
      rw [hfirst.1] at hrest
      rw [hfirst.2, List.nil_append]
      exact hrest

/-- What the keys of a visit give out, each only for itself, has at most one part for a key. -/
theorem filter_filterMap_of_nodup {f : String → Option CursorEvent}
    (hf : ∀ n c, f n = some c → c.session = n) (name : String) : ∀ {order : List String},
    order.Nodup → (order.filterMap f).filter (·.session = name) =
      if name ∈ order then (f name).toList else []
  | [], _ => rfl
  | n :: order, h => by
    obtain ⟨hn, ho⟩ := List.nodup_cons.mp h
    have ih := filter_filterMap_of_nodup hf name ho
    by_cases hname : n = name
    · subst hname
      rw [if_neg hn] at ih
      rw [if_pos (List.mem_cons_self ..)]
      rcases hfn : f n with _ | c
      · rw [List.filterMap_cons_none hfn, ih]
        rfl
      · rw [List.filterMap_cons_some hfn,
          List.filter_cons_of_pos (by simpa using hf n c hfn), ih]
        rfl
    · have hmem : name ∈ n :: order ↔ name ∈ order := by
        rw [List.mem_cons]
        exact ⟨fun h => h.resolve_left fun h => hname h.symm, Or.inr⟩
      simp only [hmem]
      rcases hfn : f n with _ | c
      · rw [List.filterMap_cons_none hfn, ih]
      · have hc : ¬ c.session = name := fun h => hname ((hf n c hfn).symm.trans h)
        rw [List.filterMap_cons_some hfn, List.filter_cons_of_neg (by simpa using hc), ih]

/-! ### The invariant -/

/-- What holds of the switchboard. -/
structure Sound (s : Settings) (b : Switchboard) : Prop where
  nodup : b.sessions.keys.Nodup
  fits : ∀ name, (b.lane name).Fits s name

theorem sound_initial (s : Settings) : Sound s (initial s) where
  nodup := List.nodup_nil
  fits := fun _ _ h => by cases h

/-- A cursor that is due is one of its session. -/
theorem Sound.due_session (h : Sound s b) {now : Nat} {name : String} {c : CursorEvent}
    (hc : (b.lane name).due now = some c) : c.session = name := by
  obtain ⟨session, hs, hp⟩ := Option.bind_eq_some_iff.mp hc
  rcases session.debouncer.poll_cases now with hq | ⟨w, hw, -, hq⟩
  · rw [hq] at hp
    cases hp
  · rw [hq] at hp
    rw [← Option.some.inj hp]
    exact (h.fits name session hs).home w hw

/-- In a visit that goes to every session once, a session gives out its own cursor and no other. -/
theorem Sound.filter_due (h : Sound s b) {now : Nat} {order : List String}
    (horder : order.Perm b.sessions.keys) (name : String) :
    (b.due now order).filter (·.session = name) = ((b.lane name).due now).toList := by
  have hnodup : order.Nodup := horder.nodup_iff.mpr h.nodup
  change (order.filterMap fun n => (b.lane n).due now).filter (·.session = name) = _
  rw [filter_filterMap_of_nodup (fun n c hc => h.due_session hc) name hnodup]
  by_cases hmem : name ∈ order
  · rw [if_pos hmem]
  · have hfind : b.sessions.find? name = none := Classical.byContradiction fun hne =>
      hmem (horder.mem_iff.mpr ((Keyed.mem_keys_iff _ _).mpr hne))
    rw [if_neg hmem, Lane.due, show (b.lane name).session = none from hfind]
    rfl

/-- Seen from a session, a visit of all sessions is a visit of its lane. -/
theorem Sound.lane_flushIn (h : Sound s b) {now : Nat} {order : List String}
    (horder : order.Perm b.sessions.keys) (name : String) :
    ((b.flushIn s now order).1.lane name, modesOf name (b.flushIn s now order).2) =
      (b.lane name).flush s now := by
  unfold flushIn
  rw [lane_dispatchAll s name _ _ _ (h.filter_due horder name), lane_withoutDue]
  rfl

/-- **One step**: seen from a session, a step of the switchboard is a step of its lane. -/
theorem Sound.lane_step (h : Sound s b) {next : Step} (hv : next.VisitsAll b) (name : String) :
    (b.step s next).1.lane name = ((b.lane name).step s name next.moment).1 ∧
      modesOf name (b.step s next).2 = ((b.lane name).step s name next.moment).2 := by
  cases next with
  | event now e => exact Prod.ext_iff.mp (lane_handle s now b e name)
  | flush now order => exact Prod.ext_iff.mp (h.lane_flushIn hv name)

theorem nodup_keys_dispatchAll (s : Settings) : ∀ (cs : List CursorEvent) (b : Switchboard),
    b.sessions.keys.Nodup → (b.dispatchAll s cs).1.sessions.keys.Nodup
  | [], _, h => h
  | c :: cs, b, h => nodup_keys_dispatchAll s cs (b.dispatch s c).1 (Keyed.nodup_keys_insert h _ _)

theorem nodup_keys_mapValues (h : b.sessions.keys.Nodup) (f : Session → Session) :
    (b.sessions.mapValues f).keys.Nodup := by
  rw [Keyed.keys_mapValues]
  exact h

theorem nodup_keys_step (h : b.sessions.keys.Nodup) (next : Step) :
    (b.step s next).1.sessions.keys.Nodup := by
  match next with
  | .flush now order => exact nodup_keys_dispatchAll s _ _ (nodup_keys_mapValues h _)
  | .event now (.host (.cursor c)) =>
    change (b.cursor s now c).1.sessions.keys.Nodup
    unfold cursor
    split_ifs
    · exact h
    · exact Keyed.nodup_keys_insert h _ _
    · exact Keyed.nodup_keys_insert h _ _
  | .event _ (.host .toggle) => exact nodup_keys_mapValues h _
  | .event _ (.host .listLayouts) => exact h
  | .event _ (.host (.close _)) => exact Keyed.nodup_keys_erase h _
  | .event _ (.host .shutdown) => exact h
  | .event _ (.agent _) => exact h
  | .event _ (.agentExited _) => exact h
  | .event _ .shutdown => exact h

/-- A step preserves the invariant. -/
theorem Sound.step (h : Sound s b) {next : Step} (hv : next.VisitsAll b) :
    Sound s (b.step s next).1 where
  nodup := nodup_keys_step h.nodup next
  fits := fun name => by
    rw [(h.lane_step hv name).1]
    exact (h.fits name).step next.moment

/-- **A run preserves the invariant.** -/
theorem Sound.run : ∀ {b : Switchboard} {steps : List Step}, Sound s b → Visits s b steps →
    Sound s (b.run s steps).1
  | _, [], h, _ => h
  | _, _ :: _, h, hv => (h.step hv.1).run hv.2

/-- **The switchboard seen from one session**: a run of the switchboard is a run of the lane, with
the same mode messages in each step. -/
theorem Sound.lane_run (name : String) : ∀ {b : Switchboard} {steps : List Step}, Sound s b →
    Visits s b steps →
    (b.run s steps).1.lane name = ((b.lane name).run s name (steps.map Step.moment)).1 ∧
      (b.run s steps).2.map (modesOf name) =
        ((b.lane name).run s name (steps.map Step.moment)).2
  | _, [], _, _ => ⟨rfl, rfl⟩
  | b, next :: steps, h, hv => by
    obtain ⟨hlane, hmodes⟩ := h.lane_step hv.1 name
    obtain ⟨ihlane, ihmodes⟩ := (h.step hv.1).lane_run name hv.2
    rw [hlane] at ihlane ihmodes
    simp only [run_cons, List.map_cons, Lane.run]
    exact ⟨ihlane, by rw [hmodes, ihmodes]⟩

/-- The mode messages of a run are those of the lane. -/
theorem Sound.modesOf_run (h : Sound s b) {steps : List Step} (hv : Visits s b steps)
    (name : String) :
    modesOf name (b.run s steps).2.flatten =
      ((b.lane name).run s name (steps.map Step.moment)).2.flatten := by
  rw [Effect.modesOf_flatten, (h.lane_run name hv).2]

/-! ### A small case -/

/-- A run with two sessions, one of which is closed, and with switching turned off and on again. -/
def smallRun : List Step :=
  [.event 0 (.host (.cursor (.small "a" 5))), .event 10 (.host (.cursor (.small "b" 1))),
    .event 20 (.host .listLayouts), .flush 115 ["b", "a"], .event 150 (.host (.close "b")),
    .event 155 (.host .toggle), .event 157 (.host .toggle),
    .event 160 (.host (.cursor (.small "a" 1))), .flush 300 ["a"]]

end CaretLayout.Switchboard
