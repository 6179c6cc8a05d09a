import CaretLayout.Proofs.Dispatch.Dispatcher
import CaretLayout.Proofs.Dispatch.Epochs

/-!
# A dispatcher switches on edges

A dispatcher is told of cursors and of scopes, and is turned off and on.  What it has seen is a
history (`Operation.history`): the scopes of the cursors that reach it while it is on and whose views
are not left alone, the known scopes that it is told of, and the end of an epoch each time it is
turned on after it was off.  It switches at each change of scope within an epoch and nowhere else, and
it remembers the last scope of the present epoch (`run_edgeTriggered`).
-/

namespace CaretLayout.Dispatcher

/-! ### Operations -/

/-- An operation on a dispatcher. -/
inductive Operation where
  /-- The cursor has moved. -/
  | cursor (view : CursorView)
  /-- A scope is seen, `none` when it is not known. -/
  | observe (scope : Option Scope)
  | toggle
  | setEnabled (enabled : Bool)
deriving DecidableEq, Repr

/-- Carries out an operation. -/
def apply (table : RuleTable) (d : Dispatcher) : Operation → Dispatcher × Outcome
  | .cursor view => d.cursorMoved table view
  | .observe scope => d.observe scope
  | .toggle => d.toggle
  | .setEnabled enabled => d.setEnabled enabled

/-- Carries out operations in order, with the outcome of each. -/
def run (table : RuleTable) : Dispatcher → List Operation → Dispatcher × List Outcome
  | d, [] => (d, [])
  | d, op :: more =>
    ((run table (d.apply table op).1 more).1,
     (d.apply table op).2 :: (run table (d.apply table op).1 more).2)

namespace Operation

variable (table : RuleTable) (excluded : String → Bool)

/-- Whether switching is on after an operation. -/
def enabledAfter (on : Bool) : Operation → Bool
  | .cursor _ => on
  | .observe _ => on
  | .toggle => !on
  | .setEnabled enabled => enabled

/-- What an operation adds to the history while switching is on or off: a scope, or `none` where an
epoch ends. -/
def mark (on : Bool) : Operation → Option (Option Scope)
  | .cursor view =>
    if on = true ∧ excluded view.language = false ∧ view.contentKind.any excluded = false then
      some (some (view.scope table))
    else none
  | .observe scope => scope.map some
  | .toggle => if on then none else some none
  | .setEnabled enabled => if enabled = true ∧ on = false then some none else none

/-- The scopes that are seen, with `none` where an epoch ends.  Whether switching is on at first is
given. -/
def history : Bool → List Operation → List (Option Scope)
  | _, [] => []
  | on, op :: more => (op.mark table excluded on).toList ++ history (op.enabledAfter on) more

end Operation

/-! ### One operation -/

/-- The switch that a mark of the history brings about after a scope. -/
def edge (layouts : LayoutPair) (last : Option Scope) : Option (Option Scope) → Option Switch
  | some (some k) => if last = some k then none else some ⟨k, layouts.of k⟩
  | _ => none

end Dispatcher

/-- That an outcome is that of a switch, or of none: what is returned, sent and counted agree. -/
structure Outcome.Tells (o : Outcome) (w : Option Switch) : Prop where
  switch : o.switch = w
  sent : o.sent = (w.map fun w => Request.switch w.layout).toList
  counted : o.counted = w.toList.length

namespace Dispatcher

variable {d : Dispatcher} {table : RuleTable}

theorem tells_observe (d : Dispatcher) (scope : Option Scope) :
    (d.observe scope).1 = { d with current := (scope.map some).getD d.current } ∧
      (d.observe scope).2.Tells (edge d.layouts d.current (scope.map some)) := by
  rcases scope with _ | k
  · -- a scope that is not known is ignored, whatever the dispatcher remembers
    unfold observe
    split_ifs
    · exact ⟨rfl, rfl, rfl, rfl⟩
    · exact ⟨rfl, rfl, rfl, rfl⟩
  · by_cases hk : some k = d.current
    · rw [observe_of_eq hk, Option.map_some, edge, if_pos hk.symm, Option.getD_some, hk]
      exact ⟨rfl, rfl, rfl, rfl⟩
    · rw [observe, if_neg hk, Option.map_some, edge, if_neg (Ne.symm hk)]
      exact ⟨rfl, rfl, rfl, rfl⟩

theorem tells_cursorMoved (d : Dispatcher) (table : RuleTable) (view : CursorView) :
    (d.cursorMoved table view).1 =
        { d with current :=
            ((Operation.cursor view).mark table d.excluded d.enabled).getD d.current } ∧
      (d.cursorMoved table view).2.Tells
        (edge d.layouts d.current ((Operation.cursor view).mark table d.excluded d.enabled)) := by
  by_cases hon : d.enabled = true
  · by_cases hx : d.isExcluded view.language view.contentKind = true
    · have hmark : (Operation.cursor view).mark table d.excluded d.enabled = none := by
        refine if_neg ?_
        rintro ⟨-, hl, hk⟩
        rw [isExcluded, hl, hk] at hx
        cases hx
      rw [hmark, cursorMoved, if_neg (by rw [hon]; decide), if_pos hx]
      exact ⟨rfl, rfl, rfl, rfl⟩
    · have hmark : (Operation.cursor view).mark table d.excluded d.enabled =
          some (some (view.scope table)) := by
        rw [isExcluded, Bool.not_eq_true, Bool.or_eq_false_iff] at hx
        exact if_pos ⟨hon, hx⟩
      obtain ⟨hd, hw, hs, hc⟩ := tells_observe d (some (view.scope table))
      rw [hmark, cursorMoved, if_neg (by rw [hon]; decide), if_neg hx]
      exact ⟨hd, hw, hs, hc⟩
  · have hmark : (Operation.cursor view).mark table d.excluded d.enabled = none :=
      if_neg fun h => hon h.1
    rw [hmark, cursorMoved, if_pos (by simpa using hon)]
    exact ⟨rfl, rfl, rfl, rfl⟩

theorem tells_setEnabled (d : Dispatcher) (enabled : Bool) :
    (d.setEnabled enabled).1 =
        { d with current := if enabled = true ∧ d.enabled = false then none else d.current
                 enabled := enabled } ∧
      (d.setEnabled enabled).2.Tells none := by
  refine ⟨?_, rfl, rfl, rfl⟩
  unfold setEnabled
  cases enabled <;> cases d.enabled <;> rfl

/-- **One operation**: the dispatcher takes over what the operation adds to the history, and switches
if that is an edge. -/
theorem tells_apply (d : Dispatcher) (table : RuleTable) (op : Operation) :
    (d.apply table op).1 =
        { d with current := (op.mark table d.excluded d.enabled).getD d.current
                 enabled := op.enabledAfter d.enabled } ∧
      (d.apply table op).2.Tells
        (edge d.layouts d.current (op.mark table d.excluded d.enabled)) := by
  cases op with
  | cursor view => exact tells_cursorMoved d table view
  | observe scope => exact tells_observe d scope
  | toggle =>
    obtain ⟨hd, htells⟩ := tells_setEnabled d (!d.enabled)
    rw [apply, toggle, hd, Operation.mark, Operation.enabledAfter]
    by_cases hon : d.enabled = true
    · rw [if_pos hon, if_neg (by rw [hon]; decide)]
      exact ⟨rfl, htells⟩
    · rw [if_neg hon, if_pos (by simpa using hon)]
      exact ⟨rfl, htells⟩
  | setEnabled enabled =>
    obtain ⟨hd, htells⟩ := tells_setEnabled d enabled
    rw [apply, hd, Operation.mark, Operation.enabledAfter]
    split_ifs
    · exact ⟨rfl, htells⟩
    · exact ⟨rfl, htells⟩

/-! ### All operations -/

theorem map_changes_mark (layouts : LayoutPair) (last : Option Scope) (m : Option (Option Scope))
    (h : List (Option Scope)) :
    (changes last (m.toList ++ h)).map (fun k => Switch.mk k (layouts.of k)) =
      (edge layouts last m).toList ++
        (changes (m.getD last) h).map fun k => Switch.mk k (layouts.of k) := by
  rcases m with _ | _ | k
  · rfl
  · rfl
  · rw [Option.toList_some, List.singleton_append, changes, edge, Option.getD_some]
    by_cases hk : last = some k
    · rw [if_pos hk, if_pos hk, hk]
      rfl
    · rw [if_neg hk, if_neg hk]
      rfl

theorem getLastD_mark (last : Option Scope) (m : Option (Option Scope)) (h : List (Option Scope)) :
    (m.toList ++ h).getLastD last = h.getLastD (m.getD last) := by
  rcases m with _ | x
  · rfl
  · rw [Option.toList_some, List.singleton_append, List.getLastD_cons, Option.getD_some]

/-- Operations return the switches of the changes in the history, and leave the scope that it ends
with. -/
theorem run_changes (table : RuleTable) : ∀ (ops : List Operation) (d : Dispatcher),
    (d.run table ops).1.current =
        (Operation.history table d.excluded d.enabled ops).getLastD d.current ∧
      (d.run table ops).2.filterMap (·.switch) =
        (changes d.current (Operation.history table d.excluded d.enabled ops)).map
          fun k => ⟨k, d.layouts.of k⟩
  | [], _ => ⟨rfl, rfl⟩
  | op :: more, d => by
    -- the flag that the history goes by is that of the dispatcher after each operation
    obtain ⟨hd, htells⟩ := tells_apply d table op
    obtain ⟨ihcurrent, ihswitches⟩ := run_changes table more (d.apply table op).1
    simp only [hd] at ihcurrent ihswitches
    simp only [run, hd, Operation.history, getLastD_mark, map_changes_mark]
    refine ⟨ihcurrent, ?_⟩
    rw [← ihswitches, ← htells.switch]
    rcases hw : (d.apply table op).2.switch with _ | w
    · exact List.filterMap_cons_none hw
    · exact List.filterMap_cons_some hw

/-- What is returned, sent and counted agree in every operation. -/
theorem tells_of_mem_run (table : RuleTable) : ∀ {ops : List Operation} {d : Dispatcher} {o : Outcome},
    o ∈ (d.run table ops).2 → o.Tells o.switch
  | op :: more, d, o, ho => by
    rcases List.mem_cons.mp ho with rfl | ho
    · obtain ⟨-, hw, hs, hc⟩ := tells_apply d table op
      rw [← hw] at hs hc
      exact ⟨rfl, hs, hc⟩
    · exact tells_of_mem_run table ho

theorem flatMap_sent : ∀ {outcomes : List Outcome}, (∀ o ∈ outcomes, o.Tells o.switch) →
    outcomes.flatMap (·.sent) =
      (outcomes.filterMap (·.switch)).map fun w => Request.switch w.layout
  | [], _ => rfl
  | o :: outcomes, h => by
    obtain ⟨ho, h⟩ := List.forall_mem_cons.mp h
    rw [List.flatMap_cons, flatMap_sent h, ho.sent]
    rcases hw : o.switch with _ | w
    · rw [List.filterMap_cons_none hw]
      rfl
    · rw [List.filterMap_cons_some hw]
      rfl

/-- What holds of the operations on a dispatcher with a given history. -/
structure EdgeTriggered (layouts : LayoutPair) (history : List (Option Scope)) (d : Dispatcher)
    (outcomes : List Outcome) : Prop where
  /-- The requests are for the layouts of the changes in each epoch. -/
  sent : outcomes.flatMap (·.sent) = (epochScopes history).map fun k => .switch (layouts.of k)
  /-- So are the switches that are returned. -/
  returned : outcomes.filterMap (·.switch) = (epochScopes history).map fun k => ⟨k, layouts.of k⟩
  /-- Each operation sends, returns and counts one switch or none. -/
  tells : ∀ o ∈ outcomes, o.Tells o.switch
  /-- The dispatcher remembers the last scope of the present epoch.  While it is off this is the epoch
  in which it was turned off. -/
  current : d.current = presentScope history

/-- **A dispatcher switches on edges**, whatever its layouts and the views that it leaves alone. -/
theorem run_edgeTriggered (layouts : LayoutPair) (excluded : String → Bool) (table : RuleTable)
    (ops : List Operation) :
    EdgeTriggered layouts (Operation.history table excluded true ops)
      (({ layouts := layouts, excluded := excluded } : Dispatcher).run table ops).1
      (({ layouts := layouts, excluded := excluded } : Dispatcher).run table ops).2 := by
  obtain ⟨hcurrent, hswitches⟩ := run_changes table ops { layouts := layouts, excluded := excluded }
  have htells : ∀ o ∈ (({ layouts := layouts, excluded := excluded } : Dispatcher).run table ops).2,
      o.Tells o.switch := fun o ho => tells_of_mem_run table ho
  rw [(changes_eq _).1] at hswitches
  exact {
    sent := by
      rw [flatMap_sent htells, hswitches, List.map_map]
      rfl
    returned := hswitches
    tells := htells
    current := by
      rw [hcurrent, (presentScope_eq _).1] }

/-- An epoch is cut short, and the next one begins with the scope that was seen last before. -/
example : (({ layouts := {} } : Dispatcher).run ⟨{}⟩
      [.observe (some .comment), .observe none, .observe (some .comment), .toggle, .setEnabled true,
        .setEnabled true, .observe (some .comment), .observe (some .code)]).2.flatMap (·.sent) =
    [.switch "00000804", .switch "00000804", .switch "00000409"] := by decide

end Dispatcher

end CaretLayout
