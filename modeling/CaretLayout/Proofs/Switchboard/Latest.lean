import CaretLayout.Proofs.Switchboard.Prompt

/-!
# The layout that was asked for last

The agent has one layout, but each session switches on its own: a cursor asks for a layout only if it
changes the scope of its session.  So without a time of rest the request that was made last for a
session is always for the layout of its last cursor (`asked_latest`).  This need not be the last
request of all: when a session is returned to, the agent is left on what another session has asked
for since (`not_layoutsAsked_latest`).
-/

namespace CaretLayout

open Effect (modesOf layoutsAsked)

/-! ### One cursor -/

/-- A cursor that is dispatched while switching is on asks for nothing if its session has its scope
already, and tells of its scope otherwise; then the session has its scope. -/
theorem Lane.Fits.dispatch_cases {s : Settings} {name : String} {l : Lane} (h : l.Fits s name)
    (hon : l.enabled = true) {c : CursorEvent} (hx : c.isLeftAlone s = false) :
    ((l.present s).dispatcher.current = some (c.scope s) ∧ (l.dispatch s c).2 = [] ∨
        (l.dispatch s c).2 = [c.modeMessage s]) ∧
      ((l.dispatch s c).1.present s).dispatcher.current = some (c.scope s) := by
  by_cases hc : (l.present s).dispatcher.current = some (c.scope s)
  · rw [h.dispatch_of_quiet (Or.inr (Or.inr hc))]
    exact ⟨Or.inl ⟨hc, rfl⟩, hc⟩
  · rw [h.dispatch_of_change hon hx hc]
    exact ⟨Or.inr rfl, rfl⟩

namespace Switchboard

variable {s : Settings} {b : Switchboard}

/-- A cursor asks for the layouts that its session is told of. -/
theorem layoutsAsked_dispatch (s : Settings) (b : Switchboard) (c : CursorEvent) :
    layoutsAsked (b.dispatch s c).2 =
      ((b.lane c.session).dispatch s c).2.filterMap HostMessage.layout? := by
  rw [Lane.dispatch_eq]
  show layoutsAsked (effectsOf c.session
    ((b.session s c.session).dispatcher.cursorMoved s.table (c.view s.lookback)).2) =
      (Switch.messages c.session
        ((b.session s c.session).dispatcher.cursorMoved s.table (c.view s.lookback)).2.switch).filterMap _
  unfold effectsOf
  rw [Dispatcher.cursorMoved_sent]
  rcases ((b.session s c.session).dispatcher.cursorMoved s.table (c.view s.lookback)).2.switch
    with _ | w
  · rfl
  · rfl

theorem lane_dispatch_self (s : Settings) (b : Switchboard) (c : CursorEvent) :
    (b.dispatch s c).1.lane c.session = ((b.lane c.session).dispatch s c).1 := by
  rw [lane_dispatch_fst, if_pos rfl]

theorem lane_dispatch_of_ne {c : CursorEvent} {name : String} (h : c.session ≠ name) (s : Settings)
    (b : Switchboard) : (b.dispatch s c).1.lane name = b.lane name := by
  rw [lane_dispatch_fst, if_neg h]

/-! ### Cursors one after another -/

/-- Cursors at their times, as steps. -/
def cursorSteps (cs : List (Nat × CursorEvent)) : List Step :=
  cs.map fun p => .event p.1 (.host (.cursor p.2))

/-- The layouts that the agent is asked for while cursors are handled, each behind the session of the
cursor that asks. -/
def asked (s : Settings) : Switchboard → List (Nat × CursorEvent) → List (String × String)
  | _, [] => []
  | b, (now, c) :: more =>
    (layoutsAsked (b.handle s now (.host (.cursor c))).2).map (fun layout => (c.session, layout)) ++
      asked s (b.handle s now (.host (.cursor c))).1 more

/-- These are the layouts that the run asks for. -/
theorem map_snd_asked (s : Settings) : ∀ (b : Switchboard) (cs : List (Nat × CursorEvent)),
    (asked s b cs).map (·.2) = layoutsAsked (b.run s (cursorSteps cs)).2.flatten
  | _, [] => rfl
  | b, (now, c) :: more => by
    have ih := map_snd_asked s (b.handle s now (.host (.cursor c))).1 more
    rw [asked, List.map_append, List.map_map, ih]
    show _ = layoutsAsked ((b.handle s now (.host (.cursor c))).2 ++ _)
    rw [Effect.layoutsAsked_append]
    congr 1
    exact List.map_id _

/-- That switching is on and the last request made for each session is for the layout of its scope. -/
structure Follows (s : Settings) (b : Switchboard) (requests : List (String × String)) : Prop where
  sound : Sound s b
  enabled : b.enabled = true
  latest : ∀ name k, ((b.lane name).present s).dispatcher.current = some k →
    (requests.filter (·.1 = name)).getLast? = some (name, s.layouts.of k)

theorem follows_initial (hon : s.enabled = true) : Follows s (initial s) [] where
  sound := sound_initial s
  enabled := hon
  latest := fun _ _ h => by cases h

/-- A cursor is followed by its layout. -/
theorem Follows.handle {requests : List (String × String)} (h : Follows s b requests)
    (hq : s.quiet = 0) (now : Nat) {c : CursorEvent} (hx : c.isLeftAlone s = false) :
    Follows s (b.handle s now (.host (.cursor c))).1 (requests ++
        (layoutsAsked (b.handle s now (.host (.cursor c))).2).map fun layout => (c.session, layout)) ∧
      (((b.handle s now (.host (.cursor c))).1.lane c.session).present s).dispatcher.current =
        some (c.scope s) := by
  have hdispatch : b.handle s now (.host (.cursor c)) = b.dispatch s c :=
    cursor_of_prompt hq h.enabled now c
  have hsound : Sound s (b.step s (.event now (.host (.cursor c)))).1 := h.sound.step trivial
  obtain ⟨hcases, hcurrent⟩ := (h.sound.fits c.session).dispatch_cases h.enabled hx
  change Sound s (b.handle s now (.host (.cursor c))).1 at hsound
  rw [hdispatch] at hsound ⊢
  rw [← lane_dispatch_self] at hcurrent
  refine ⟨⟨hsound, h.enabled, fun name k hk => ?_⟩, hcurrent⟩
  rw [List.filter_append, layoutsAsked_dispatch]
  by_cases hname : c.session = name
  · subst hname
    rw [hcurrent] at hk
    cases hk
    -- a session that has its scope already asks for nothing, and its last request still stands
    rcases hcases with ⟨hsame, hnone⟩ | hone
    · rw [hnone, List.filterMap_nil, List.map_nil, List.filter_nil, List.append_nil]
      exact h.latest _ _ hsame
    · rw [hone]
      simp [CursorEvent.modeMessage, HostMessage.layout?]
  · have hnone : ∀ layouts : List String,
        (layouts.map fun layout => (c.session, layout)).filter (·.1 = name) = [] := by
      intro layouts
      simp [List.filter_eq_nil_iff, hname]
    rw [lane_dispatch_of_ne hname] at hk
    rw [hnone, List.append_nil]
    exact h.latest name k hk

theorem Follows.run (hq : s.quiet = 0) : ∀ {b : Switchboard} {requests : List (String × String)}
    {cs : List (Nat × CursorEvent)}, Follows s b requests →
    (∀ p ∈ cs, p.2.isLeftAlone s = false) →
    Follows s (b.run s (cursorSteps cs)).1 (requests ++ asked s b cs)
  | b, requests, [], h, _ => by
    rw [asked, List.append_nil]
    exact h
  | b, requests, (now, c) :: more, h, hx => by
    have hnext := (h.handle hq now (hx (now, c) List.mem_cons_self)).1
    rw [asked, ← List.append_assoc]
    exact hnext.run hq fun p hp => hx p (List.mem_cons_of_mem _ hp)

theorem asked_append (s : Settings) : ∀ (b : Switchboard) (first second : List (Nat × CursorEvent)),
    asked s b (first ++ second) =
      asked s b first ++ asked s (b.run s (cursorSteps first)).1 second
  | _, [], _ => rfl
  | b, (now, c) :: first, second => by
    rw [List.cons_append, asked, asked, asked_append, List.append_assoc]
    rfl

/-- **The request made last for the session of a cursor** is for the layout of the cursor, after each
cursor of a run in which no view is left alone.  So is the last request of all, unless it was made for
another session. -/
theorem asked_latest (hq : s.quiet = 0) (hon : s.enabled = true) {cs : List (Nat × CursorEvent)}
    {now : Nat} {c : CursorEvent} (hx : ∀ p ∈ cs ++ [(now, c)], p.2.isLeftAlone s = false) :
    (asked s (initial s) (cs ++ [(now, c)])).map (·.2) =
        layoutsAsked ((initial s).run s (cursorSteps (cs ++ [(now, c)]))).2.flatten ∧
      ((asked s (initial s) (cs ++ [(now, c)])).filter (·.1 = c.session)).getLast? =
        some (c.session, s.layouts.of (c.scope s)) ∧
      ∃ last, (asked s (initial s) (cs ++ [(now, c)])).getLast? = some last ∧
        (last.1 = c.session → last.2 = s.layouts.of (c.scope s)) := by
  obtain ⟨hbefore, hlast⟩ := List.forall_mem_append.mp hx
  have hfollows := (follows_initial hon).run hq hbefore
  rw [List.nil_append] at hfollows
  obtain ⟨hafter, hcurrent⟩ := hfollows.handle hq now (hlast _ (List.mem_singleton_self _))
  have hown := hafter.latest c.session _ hcurrent
  have hasked : asked s (initial s) (cs ++ [(now, c)]) = asked s (initial s) cs ++
      (layoutsAsked (((initial s).run s (cursorSteps cs)).1.handle s now (.host (.cursor c))).2).map
        fun layout => (c.session, layout) := by
    rw [asked_append, asked, asked, List.append_nil]
  rw [← hasked] at hown
  refine ⟨map_snd_asked s _ _, hown, ?_⟩
  rcases List.eq_nil_or_concat' (asked s (initial s) (cs ++ [(now, c)])) with hnil | ⟨front, last, hfront⟩
  · rw [hnil] at hown
    cases hown
  · rw [hfront] at hown ⊢
    refine ⟨last, List.getLast?_concat, fun hsession => ?_⟩
    rw [List.filter_append, List.filter_cons_of_pos (by simpa using hsession), List.filter_nil,
      List.getLast?_concat] at hown
    rw [Option.some.inj hown]

/-- The session `a` is left in a comment for the session `b` in code, and returned to. -/
def smallReturn : List (Nat × CursorEvent) :=
  [(0, .small "a" 5), (1, .small "b" 1), (2, .small "a" 5)]

/-- The last request for the session `a` is for the layout of comments. -/
theorem smallReturn_asked_latest :
    ((asked (.small 0) (initial (.small 0)) smallReturn).filter (·.1 = "a")).getLast? =
      some ("a", "00000804") := by
  have hx : ∀ p ∈ [(0, CursorEvent.small "a" 5), (1, .small "b" 1)] ++ [(2, .small "a" 5)],
      p.2.isLeftAlone (.small 0) = false := by decide
  exact (asked_latest rfl rfl hx).2.1

/-- The last request of all need not be for the layout of the last cursor: in `smallReturn` it was made
for the session `b`. -/
theorem not_layoutsAsked_latest : ¬ ∀ (s : Settings) (cs : List (Nat × CursorEvent)) (now : Nat)
    (c : CursorEvent), s.quiet = 0 → s.enabled = true →
    (∀ p ∈ cs ++ [(now, c)], p.2.isLeftAlone s = false) →
    (layoutsAsked ((initial s).run s (cursorSteps (cs ++ [(now, c)]))).2.flatten).getLast? =
      some (s.layouts.of (c.scope s)) := by
  intro h
  have hreturn := h (.small 0) [(0, .small "a" 5), (1, .small "b" 1)] 2 (.small "a" 5) rfl rfl
    (by decide)
  exact absurd hreturn (by decide)

end Switchboard

end CaretLayout
