import CaretLayout.Proofs.Switchboard.Agree
import CaretLayout.Proofs.Switchboard.Sound
import CaretLayout.Proofs.Switchboard.Waiting

/-!
# In a quiet stream the time of rest does not matter

Where each cursor is followed by a visit after the time of rest, before the next event comes, it is
dispatched before anything else happens.  So the run has the effects of a run without a time of
rest, in which cursors are dispatched at once, and it leaves the same sessions with the same
dispatchers (`run_quiet_eq_prompt`).

Between an event and that visit the switchboard is behind by the cursor that waits (`Behind`): were
it dispatched now, the two would agree.
-/

namespace CaretLayout

namespace Switchboard

variable {s : Settings} {quiet : Nat} {b b₀ : Switchboard} {own : Option (Waiting CursorEvent)}
  {owed : List Effect}

/-! ### The one cursor that waits -/

/-- That one cursor waits, or none, and nothing else. -/
def Waits (b : Switchboard) (own : Option (Waiting CursorEvent)) : Prop :=
  ∀ name, (b.lane name).waiting = own.filter fun w => w.item.session == name

/-- A visit of all sessions finds the cursor that waits if it is due. -/
theorem Waits.due_eq {own : Option (Waiting CursorEvent)} (h : Waits b own)
    (hsound : Sound s b) {now : Nat} {order : List String} (horder : order.Perm b.sessions.keys) :
    b.due now order =
      ((own.filter fun w => decide (w.deadline ≤ now)).map (·.item)).toList := by
  have hlane : ∀ name, (b.lane name).due now = ((own.filter fun w => w.item.session == name).filter
      fun w => decide (w.deadline ≤ now)).map (·.item) := fun name => by
    rw [Lane.due_eq, h name]
  rcases own with _ | w
  · exact List.filterMap_eq_nil_iff.mpr fun name _ => hlane name
  · have hown : ∀ c ∈ b.due now order, c.session = w.item.session := by
      intro c hc
      obtain ⟨name, -, hname⟩ := List.mem_filterMap.mp hc
      obtain ⟨w', hw', rfl⟩ := Option.map_eq_some_iff.mp ((hlane name).symm.trans hname)
      have hmem := (Option.filter_eq_some_iff.mp (Option.filter_eq_some_iff.mp hw').1).1
      rw [Option.some.inj hmem]
    have hself : (b.due now order).filter (·.session = w.item.session) = b.due now order :=
      List.filter_eq_self.mpr fun c hc => decide_eq_true (hown c hc)
    rw [← hself, hsound.filter_due horder, hlane]
    simp [Option.filter]

theorem Waits.withoutDue (h : Waits b own) (now : Nat) :
    Waits (b.withoutDue now) (own.filter fun w => decide (now < w.deadline)) := by
  intro name
  rw [lane_withoutDue, Lane.waiting_withoutDue, h name]
  rcases own with _ | w
  · rfl
  · simp only [Option.filter]
    split_ifs <;> simp_all

theorem Waits.dispatch (h : Waits b own) (s : Settings) (c : CursorEvent) :
    Waits (b.dispatch s c).1 own := by
  intro name
  rw [lane_dispatch_fst]
  split_ifs
  · rw [Lane.waiting_dispatch, h name]
  · exact h name

/-! ### One step -/

/-- Dispatches the cursor that waits, if there is one. -/
def catchUp (s : Settings) (b : Switchboard) (own : Option (Waiting CursorEvent)) :
    Switchboard × List Effect :=
  b.dispatchAll s (own.map (·.item)).toList

theorem catchUp_some (s : Settings) (b : Switchboard) (w : Waiting CursorEvent) :
    b.catchUp s (some w) = b.dispatch s w.item := by
  show ((b.dispatch s w.item).1, (b.dispatch s w.item).2 ++ []) = _
  rw [List.append_nil]

/-- That one switchboard is behind another by the cursor that waits in it, if there is one, and owes
its effects. -/
structure Behind (s : Settings) (own : Option (Waiting CursorEvent)) (b b₀ : Switchboard)
    (owed : List Effect) : Prop where
  sound : Sound s b
  waits : Waits b own
  caughtUp : Same (b.catchUp s own) (b₀, owed)

/-- A visit brings it level if the cursor is due, and changes nothing otherwise. -/
theorem Behind.flush (h : Behind (s.withQuiet quiet) own b b₀ owed) {now : Nat} {order : List String}
    (horder : order.Perm b.sessions.keys) :
    ∃ later, Behind (s.withQuiet quiet) (own.filter fun w => decide (now < w.deadline))
        (b.flushIn (s.withQuiet quiet) now order).1 b₀ later ∧
      (b.flushIn (s.withQuiet quiet) now order).2 ++ later = owed := by
  have hsound := h.sound.step (show (Step.flush now order).VisitsAll b from horder)
  have hwaits := h.waits.withoutDue now
  have hflush : b.flushIn (s.withQuiet quiet) now order = (b.withoutDue now).catchUp
      (s.withQuiet quiet) (own.filter fun w => decide (w.deadline ≤ now)) := by
    rw [flushIn, h.waits.due_eq h.sound horder]
    rfl
  have hagree := agree_withoutDue now b
  change Sound _ (b.flushIn (s.withQuiet quiet) now order).1 at hsound
  rw [hflush] at hsound ⊢
  rcases own with _ | w
  · exact ⟨owed, ⟨hsound, hwaits, ⟨hagree.trans h.caughtUp.agree, h.caughtUp.effects⟩⟩, rfl⟩
  · have hsame : Same ((b.withoutDue now).catchUp (s.withQuiet quiet) (some w)) (b₀, owed) := by
      rw [catchUp_some]
      have hcaughtUp := h.caughtUp
      rw [catchUp_some] at hcaughtUp
      exact (hagree.dispatch w.item).trans hcaughtUp
    by_cases hdue : w.deadline ≤ now
    · have hnow : (some w).filter (fun w => decide (w.deadline ≤ now)) = some w := by
        simp [Option.filter, hdue]
      have hlater : (some w).filter (fun w => decide (now < w.deadline)) = none := by
        simp [Option.filter, Nat.not_lt.mpr hdue]
      rw [hnow] at hsound ⊢
      rw [hlater] at hwaits ⊢
      refine ⟨[], ⟨hsound, ?_, hsame.agree, rfl⟩, ?_⟩
      · rw [catchUp_some]
        exact hwaits.dispatch _ _
      · rw [List.append_nil]
        exact hsame.effects
    · have hnow : (some w).filter (fun w => decide (w.deadline ≤ now)) = none := by
        simp [Option.filter, hdue]
      have hlater : (some w).filter (fun w => decide (now < w.deadline)) = some w := by
        simp [Option.filter, Nat.lt_of_not_le hdue]
      rw [hnow] at hsound ⊢
      rw [hlater] at hwaits ⊢
      exact ⟨owed, ⟨hsound, hwaits, hsame⟩, rfl⟩

/-- That an event is handled at once, or is a cursor that waits until the time of rest is over. -/
def EventBehind (s : Settings) (quiet now : Nat) (e : Event) (p p₀ : Switchboard × List Effect) :
    Prop :=
  ∃ own later, Behind (s.withQuiet quiet) own p.1 p₀.1 later ∧ p.2 ++ later = p₀.2 ∧
    ∀ w, own = some w → quiet ≠ 0 ∧ w.deadline = now + quiet ∧ e = .host (.cursor w.item)

/-- What leaves nothing waiting is done when it is handled. -/
theorem eventBehind_of_same {p p₀ : Switchboard × List Effect} {now : Nat} {e : Event}
    (hsound : Sound (s.withQuiet quiet) p.1) (hwaits : Waits p.1 none) (hsame : Same p p₀) :
    EventBehind s quiet now e p p₀ := by
  refine ⟨none, [], ⟨hsound, hwaits, hsame.agree, rfl⟩, ?_, fun w hw => by cases hw⟩
  rw [List.append_nil, hsame.effects]

/-- A cursor that has to wait puts the switchboard behind by its effects. -/
theorem Behind.schedule (h : Behind (s.withQuiet quiet) none b b₀ owed) {now : Nat}
    {c : CursorEvent} (hsound : Sound (s.withQuiet quiet) (b.schedule (s.withQuiet quiet) now c)) :
    Behind (s.withQuiet quiet) (some ⟨c, now + quiet⟩) (b.schedule (s.withQuiet quiet) now c)
      (b₀.dispatch (s.withQuiet 0) c).1 (b₀.dispatch (s.withQuiet 0) c).2 where
  sound := hsound
  waits := fun name => by
    rw [lane_schedule]
    by_cases hc : c.session = name
    · rw [if_pos hc, (h.sound.fits name).waiting_schedule, Option.filter_some,
        if_pos (beq_iff_eq.mpr hc)]
      rfl
    · rw [if_neg hc, Option.filter_some, if_neg fun heq => hc (beq_iff_eq.mp heq)]
      exact h.waits name
  caughtUp := by
    rw [catchUp_some]
    have hagree : Agree b b₀ := h.caughtUp.agree
    exact (same_dispatch_schedule s quiet now b c).trans (hagree.dispatch c)

theorem Behind.cursor (h : Behind (s.withQuiet quiet) none b b₀ owed) {now : Nat}
    {c : CursorEvent} (hsound : Sound (s.withQuiet quiet) (b.cursor (s.withQuiet quiet) now c).1) :
    EventBehind s quiet now (.host (.cursor c)) (b.cursor (s.withQuiet quiet) now c)
      (b₀.cursor (s.withQuiet 0) 0 c) := by
  have hagree : Agree b b₀ := h.caughtUp.agree
  rcases hon : b.enabled with _ | _
  · rw [cursor_of_off _ hon] at hsound ⊢
    rw [cursor_of_off _ (hagree.enabled.symm.trans hon)]
    exact eventBehind_of_same hsound h.waits ⟨hagree, rfl⟩
  · rw [cursor_of_prompt (s := s.withQuiet 0) rfl (hagree.enabled.symm.trans hon)]
    by_cases hq : quiet = 0
    · rw [cursor_of_prompt hq hon] at hsound ⊢
      exact eventBehind_of_same hsound (h.waits.dispatch _ c) (hagree.dispatch c)
    · rw [cursor_of_rest hq hon] at hsound ⊢
      refine ⟨some ⟨c, now + quiet⟩, _, h.schedule hsound, rfl, fun w hw => ?_⟩
      cases hw
      exact ⟨hq, rfl, rfl⟩

/-- After an event the switchboard is behind by that event at most. -/
theorem Behind.event (h : Behind (s.withQuiet quiet) none b b₀ owed) (now : Nat) (e : Event) :
    EventBehind s quiet now e (b.handle (s.withQuiet quiet) now e)
      (b₀.handle (s.withQuiet 0) 0 e) := by
  have hsound : Sound (s.withQuiet quiet) (b.handle (s.withQuiet quiet) now e).1 :=
    h.sound.step (show (Step.event now e).VisitsAll b from trivial)
  have hagree : Agree b b₀ := h.caughtUp.agree
  match e with
  | .host (.cursor c) => exact h.cursor hsound
  | .host .toggle =>
    refine eventBehind_of_same hsound (fun name => ?_) hagree.toggle
    show (b.toggle.1.lane name).waiting = none
    rw [lane_toggle]
    exact (h.sound.fits name).waiting_toggle
  | .host .listLayouts => exact eventBehind_of_same hsound h.waits ⟨hagree, rfl⟩
  | .host (.close closed) =>
    refine eventBehind_of_same hsound (fun name => ?_) ⟨hagree.close closed, rfl⟩
    show (lane { b with sessions := b.sessions.erase closed } name).waiting = none
    rw [lane_erase]
    split_ifs
    · rfl
    · exact h.waits name
  | .host .shutdown => exact eventBehind_of_same hsound h.waits ⟨hagree, rfl⟩
  | .agent _ => exact eventBehind_of_same hsound h.waits ⟨hagree, rfl⟩
  | .agentExited _ => exact eventBehind_of_same hsound h.waits ⟨hagree, rfl⟩
  | .shutdown => exact eventBehind_of_same hsound h.waits ⟨hagree, rfl⟩

/-! ### Quiet runs -/

/-- The event of a step, if it is one. -/
def Step.event? : Step → Option Event
  | .event _ e => some e
  | .flush _ _ => none

/-- The visits before the next event. -/
def visitsFirst (steps : List Step) : List Step :=
  steps.takeWhile (·.event?.isNone)

/-- A cursor is followed, before the next event, by a visit after the time of rest. -/
def Step.RestsBefore (quiet : Nat) (more : List Step) : Step → Prop
  | .event now (.host (.cursor _)) => ∃ visit ∈ visitsFirst more, now + quiet ≤ visit.time
  | _ => True

/-- Every cursor of a run is followed, before the next event, by a visit after the time of rest. -/
def IsQuiet (quiet : Nat) : List Step → Prop
  | [] => True
  | next :: more => next.RestsBefore quiet more ∧ IsQuiet quiet more

instance (quiet : Nat) (more : List Step) : (next : Step) → Decidable (next.RestsBefore quiet more)
  | .event now (.host (.cursor _)) =>
    inferInstanceAs (Decidable (∃ visit ∈ visitsFirst more, now + quiet ≤ visit.time))
  | .event _ (.host .toggle) => inferInstanceAs (Decidable True)
  | .event _ (.host .listLayouts) => inferInstanceAs (Decidable True)
  | .event _ (.host (.close _)) => inferInstanceAs (Decidable True)
  | .event _ (.host .shutdown) => inferInstanceAs (Decidable True)
  | .event _ (.agent _) => inferInstanceAs (Decidable True)
  | .event _ (.agentExited _) => inferInstanceAs (Decidable True)
  | .event _ .shutdown => inferInstanceAs (Decidable True)
  | .flush _ _ => inferInstanceAs (Decidable True)

instance decidableIsQuiet (quiet : Nat) : (steps : List Step) → Decidable (IsQuiet quiet steps)
  | [] => inferInstanceAs (Decidable True)
  | next :: more =>
    have := decidableIsQuiet quiet more
    inferInstanceAs (Decidable (next.RestsBefore quiet more ∧ IsQuiet quiet more))

/-- What waits is due in one of the visits before the next event. -/
def DueFirst (own : Option (Waiting CursorEvent)) (steps : List Step) : Prop :=
  ∀ w, own = some w → ∃ visit ∈ visitsFirst steps, w.deadline ≤ visit.time

theorem dueFirst_none (steps : List Step) : DueFirst none steps :=
  fun _ hw => by cases hw

theorem DueFirst.eq_none {steps : List Step} (h : DueFirst own steps)
    (hnil : visitsFirst steps = []) : own = none := by
  rcases own with _ | w
  · rfl
  · obtain ⟨visit, hmem, -⟩ := h w rfl
    rw [hnil] at hmem
    cases hmem

/-- What a visit leaves waiting is due in one of the visits after it. -/
theorem DueFirst.tail {now : Nat} {order : List String} {more : List Step}
    (h : DueFirst own (.flush now order :: more)) :
    DueFirst (own.filter fun w => decide (now < w.deadline)) more := by
  intro w hw
  obtain ⟨rfl, hlt⟩ := Option.filter_eq_some_iff.mp hw
  obtain ⟨visit, hmem, hle⟩ := h w rfl
  rcases List.mem_cons.mp hmem with rfl | hmem
  · exact absurd hle (Nat.not_le.mpr (of_decide_eq_true hlt))
  · exact ⟨visit, hmem, hle⟩

/-- Handles events in order, without a time of rest. -/
def handleAll (s : Settings) : Switchboard → List Event → Switchboard × List Effect
  | b, [] => (b, [])
  | b, e :: more =>
    (((b.handle (s.withQuiet 0) 0 e).1.handleAll s more).1,
     (b.handle (s.withQuiet 0) 0 e).2 ++ ((b.handle (s.withQuiet 0) 0 e).1.handleAll s more).2)

/-- **A quiet run** catches up with the events handled one after the other. -/
theorem Behind.run : ∀ {steps : List Step} {b b₀ : Switchboard} {owed : List Effect}
    {own : Option (Waiting CursorEvent)}, Behind (s.withQuiet quiet) own b b₀ owed →
    Visits (s.withQuiet quiet) b steps → (quiet ≠ 0 → IsQuiet quiet steps) → DueFirst own steps →
    Agree (b.run (s.withQuiet quiet) steps).1 (b₀.handleAll s (steps.filterMap Step.event?)).1 ∧
      (b.run (s.withQuiet quiet) steps).2.flatten =
        owed ++ (b₀.handleAll s (steps.filterMap Step.event?)).2
  | [], b, b₀, owed, own, h, _, _, hdue => by
    obtain rfl : own = none := hdue.eq_none rfl
    have howed : [] = owed := h.caughtUp.effects
    exact ⟨h.caughtUp.agree, by rw [← howed]; rfl⟩
  | .flush now order :: more, b, b₀, owed, own, h, hv, hquiet, hdue => by
    obtain ⟨later, hbehind, heffects⟩ := h.flush hv.1
    obtain ⟨hagree, hrest⟩ := hbehind.run hv.2 (fun hq => (hquiet hq).2) hdue.tail
    refine ⟨hagree, ?_⟩
    calc (b.run (s.withQuiet quiet) (.flush now order :: more)).2.flatten
        = (b.flushIn (s.withQuiet quiet) now order).2 ++
          ((b.flushIn (s.withQuiet quiet) now order).1.run (s.withQuiet quiet) more).2.flatten := rfl
      _ = owed ++ (b₀.handleAll s (more.filterMap Step.event?)).2 := by
        rw [hrest, ← List.append_assoc, heffects]
  | .event now e :: more, b, b₀, owed, own, h, hv, hquiet, hdue => by
    obtain rfl : own = none := hdue.eq_none rfl
    have howed : [] = owed := h.caughtUp.effects
    obtain ⟨own, later, hbehind, heffects, hwait⟩ := h.event now e
    have hdue : DueFirst own more := fun w hw => by
      obtain ⟨hq, hdeadline, rfl⟩ := hwait w hw
      rw [hdeadline]
      exact (hquiet hq).1
    obtain ⟨hagree, hrest⟩ := hbehind.run hv.2 (fun hq => (hquiet hq).2) hdue
    refine ⟨hagree, ?_⟩
    calc (b.run (s.withQuiet quiet) (.event now e :: more)).2.flatten
        = (b.handle (s.withQuiet quiet) now e).2 ++
          ((b.handle (s.withQuiet quiet) now e).1.run (s.withQuiet quiet) more).2.flatten := rfl
      _ = (b₀.handleAll s (e :: more.filterMap Step.event?)).2 := by
        rw [hrest, ← List.append_assoc, heffects, handleAll]
      _ = owed ++ (b₀.handleAll s (e :: more.filterMap Step.event?)).2 := by
        rw [← howed, List.nil_append]

theorem behind_initial (s : Settings) (quiet : Nat) :
    Behind (s.withQuiet quiet) none (initial (s.withQuiet quiet)) (initial s) [] where
  sound := sound_initial _
  waits := fun _ => rfl
  caughtUp := ⟨⟨rfl, fun _ => rfl⟩, rfl⟩

/-- **The time of rest does not matter in a quiet stream**: a run in which every cursor is followed,
before the next event, by a visit after the time of rest has the same effects in the same order as
any run without a time of rest that handles the same events, and in the end the switchboards agree.
-/
theorem run_quiet_eq_prompt (s : Settings) (quiet : Nat) {rested prompt : List Step}
    (hrested : Visits (s.withQuiet quiet) (initial (s.withQuiet quiet)) rested)
    (hprompt : Visits (s.withQuiet 0) (initial (s.withQuiet 0)) prompt)
    (hquiet : IsQuiet quiet rested)
    (hevents : rested.filterMap Step.event? = prompt.filterMap Step.event?) :
    ((initial (s.withQuiet quiet)).run (s.withQuiet quiet) rested).2.flatten =
        ((initial (s.withQuiet 0)).run (s.withQuiet 0) prompt).2.flatten ∧
      Agree ((initial (s.withQuiet quiet)).run (s.withQuiet quiet) rested).1
        ((initial (s.withQuiet 0)).run (s.withQuiet 0) prompt).1 := by
  obtain ⟨hagree, heffects⟩ := (behind_initial s quiet).run hrested (fun _ => hquiet)
    (dueFirst_none rested)
  obtain ⟨hagree₀, heffects₀⟩ := (behind_initial s 0).run hprompt (fun hq => absurd rfl hq)
    (dueFirst_none prompt)
  rw [hevents] at hagree heffects
  exact ⟨heffects.trans heffects₀.symm, hagree.trans hagree₀.symm⟩

/-- A quiet run with two sessions, one of which is closed, and with switching turned off and on again.
-/
def smallQuietRun : List Step :=
  [.event 0 (.host (.cursor (.small "a" 5))), .flush 60 ["a"], .flush 100 ["a"],
    .event 110 (.host (.cursor (.small "b" 1))), .flush 230 ["b", "a"], .event 240 (.host .toggle),
    .event 250 (.host (.cursor (.small "a" 1))), .flush 350 ["a", "b"], .event 360 (.host .toggle),
    .event 370 (.host (.close "b")), .event 380 (.host (.cursor (.small "a" 1))), .flush 480 ["a"],
    .event 490 (.host .shutdown)]

/-- Three of its cursors are dispatched, as they are without the visits if there is no time of rest. -/
theorem smallQuietRun_eq_prompt :
    ((initial (.small 100)).run (.small 100) smallQuietRun).2.flatten =
        [.request (.switch "00000804"), .message (.mode "a" "comment" "00000804"),
          .request (.switch "00000409"), .message (.mode "b" "code" "00000409"),
          .message (.enabled false), .message (.enabled true),
          .request (.switch "00000409"), .message (.mode "a" "code" "00000409")] ∧
      Agree ((initial (.small 100)).run (.small 100) smallQuietRun).1
        ((initial (.small 0)).run (.small 0) (smallQuietRun.filter (·.event?.isSome))).1 := by
  obtain ⟨heffects, hagree⟩ := @run_quiet_eq_prompt (.small 0) 100 smallQuietRun
    (smallQuietRun.filter (·.event?.isSome)) (by decide) (by decide) (by decide) (by decide)
  exact ⟨heffects.trans (by decide), hagree⟩

end Switchboard

end CaretLayout
