import CaretLayout.Proofs.Dispatch.EdgeTrigger

/-!
# A dispatcher that is off

While switching is off a cursor has no effect, and turning it on sends nothing but forgets the scope.
The flag guards cursors only: a known scope that the dispatcher is told of directly is taken over and
switched to, off or on.  So an operation on a dispatcher that is off is silent exactly when it does not
tell of a new scope (`run_off`).
-/

namespace CaretLayout.Dispatcher

/-! ### Operations at a place of a run -/

/-- The outcome at a place is that of the operation there on the dispatcher that the operations before
it leave. -/
theorem getElem?_run (table : RuleTable) (ops : List Operation) (d : Dispatcher) (i : Nat) :
    (d.run table ops).2[i]? =
      ops[i]?.map fun op => ((d.run table (ops.take i)).1.apply table op).2 := by
  induction ops generalizing d i with
  | nil => rfl
  | cons op ops ih =>
    cases i with
    | zero => rfl
    | succ i => exact ih (d.apply table op).1 i

theorem run_take_succ (table : RuleTable) {ops : List Operation} {op : Operation} (d : Dispatcher)
    {i : Nat} (h : ops[i]? = some op) :
    (d.run table (ops.take (i + 1))).1 = ((d.run table (ops.take i)).1.apply table op).1 := by
  induction ops generalizing d i with
  | nil => cases h
  | cons first ops ih =>
    cases i with
    | zero =>
      cases h
      rfl
    | succ i => exact ih (d.apply table first).1 h

theorem layouts_run (table : RuleTable) (ops : List Operation) (d : Dispatcher) :
    (d.run table ops).1.layouts = d.layouts := by
  induction ops generalizing d with
  | nil => rfl
  | cons op ops ih =>
    have hstep : (d.apply table op).1.layouts = d.layouts := by rw [(tells_apply d table op).1]
    exact (ih (d.apply table op).1).trans hstep

/-! ### Operations while switching is off -/

/-- That an operation switches nothing.  The scope stays, and is forgotten when switching is on
afterwards. -/
structure Silent (before after : Dispatcher) (o : Outcome) : Prop where
  tells : o.Tells none
  current : after.current = if after.enabled then none else before.current

/-- That an operation tells of a known scope other than the one that the dispatcher remembers. -/
def Operation.TellsNew (d : Dispatcher) (op : Operation) : Prop :=
  ∃ k, op = .observe (some k) ∧ d.current ≠ some k

/-- **While switching is off** an operation is silent, unless it tells of a new scope. -/
theorem silent_of_off {d : Dispatcher} (table : RuleTable) (hoff : d.enabled = false)
    {op : Operation} (hop : ¬ op.TellsNew d) : Silent d (d.apply table op).1 (d.apply table op).2 := by
  obtain ⟨hafter, htells⟩ := tells_apply d table op
  rw [hoff] at hafter htells
  cases op with
  | cursor view =>
    have hmark : (Operation.cursor view).mark table d.excluded false = none := by
      simp [Operation.mark]
    rw [hmark] at hafter htells
    exact ⟨htells, by rw [hafter]; rfl⟩
  | observe scope =>
    rcases scope with _ | k
    · exact ⟨htells, by rw [hafter]; rfl⟩
    · -- the scope that is told is the one that the dispatcher remembers
      have hsame : d.current = some k := not_not.mp fun hne => hop ⟨k, rfl, hne⟩
      have hedge : edge d.layouts d.current (some (some k)) = none := if_pos hsame
      rw [Operation.mark, Option.map_some, hedge] at htells
      exact ⟨htells, by rw [hafter]; exact hsame.symm⟩
  | toggle => exact ⟨htells, by rw [hafter]; rfl⟩
  | setEnabled enabled =>
    cases enabled with
    | false => exact ⟨htells, by rw [hafter]; rfl⟩
    | true => exact ⟨htells, by rw [hafter]; rfl⟩

/-- A new scope that is told is switched to, whether switching is on or off. -/
theorem tells_of_tellsNew (d : Dispatcher) (table : RuleTable) {k : Scope} (h : d.current ≠ some k) :
    (d.apply table (.observe (some k))).1 = { d with current := some k } ∧
      (d.apply table (.observe (some k))).2.Tells (some ⟨k, d.layouts.of k⟩) := by
  obtain ⟨hafter, htells⟩ := tells_observe d (some k)
  rw [Option.map_some, edge, if_neg h] at htells
  exact ⟨hafter, htells⟩

/-- **A dispatcher that is off** in a run of operations: the operation there is silent exactly when it
does not tell of a new scope, and such a scope is switched to. -/
theorem run_off {d : Dispatcher} {table : RuleTable} {ops : List Operation} {i : Nat} {op : Operation}
    (hop : ops[i]? = some op) (hoff : (d.run table (ops.take i)).1.enabled = false) :
    ∃ o, (d.run table ops).2[i]? = some o ∧
      (Silent (d.run table (ops.take i)).1 (d.run table (ops.take (i + 1))).1 o ↔
        ¬ op.TellsNew (d.run table (ops.take i)).1) ∧
      ∀ k, op = .observe (some k) → (d.run table (ops.take i)).1.current ≠ some k →
        o.Tells (some ⟨k, d.layouts.of k⟩) ∧
          (d.run table (ops.take (i + 1))).1 =
            { (d.run table (ops.take i)).1 with current := some k } := by
  have hlayouts := layouts_run table (ops.take i) d
  rw [getElem?_run, hop, Option.map_some, run_take_succ table d hop]
  generalize (d.run table (ops.take i)).1 = before at hoff hlayouts ⊢
  refine ⟨_, rfl, ⟨?_, silent_of_off table hoff⟩, ?_⟩
  · rintro ⟨htells, -⟩ ⟨k, rfl, hnew⟩
    have hswitch := (tells_of_tellsNew before table hnew).2.switch
    rw [htells.switch] at hswitch
    cases hswitch
  · rintro k rfl hnew
    obtain ⟨hafter, htells⟩ := tells_of_tellsNew before table hnew
    rw [hlayouts] at htells
    exact ⟨htells, hafter⟩

/-- A new dispatcher is turned off and then told of a comment. -/
def toldWhileOff : List Operation :=
  [.toggle, .observe (some .comment)]

theorem run_off_toldWhileOff :
    ∃ o, (({ layouts := {} } : Dispatcher).run ⟨{}⟩ toldWhileOff).2[1]? = some o ∧
      o.Tells (some ⟨.comment, "00000804"⟩) := by
  have hop : toldWhileOff[1]? = some (.observe (some .comment)) := rfl
  obtain ⟨o, ho, -, htold⟩ := run_off (d := { layouts := {} }) hop rfl
  exact ⟨o, ho, (htold .comment rfl (by decide)).1⟩

/-- The flag does not silence every operation. -/
theorem not_silent_toldWhileOff :
    ¬ ∀ (layouts : LayoutPair) (excluded : String → Bool) (table : RuleTable)
      (ops : List Operation) (i : Nat) (o : Outcome),
      (({ layouts := layouts, excluded := excluded } : Dispatcher).run table
        (ops.take i)).1.enabled = false →
      (({ layouts := layouts, excluded := excluded } : Dispatcher).run table ops).2[i]? = some o →
      Silent (({ layouts := layouts, excluded := excluded } : Dispatcher).run table (ops.take i)).1
        (({ layouts := layouts, excluded := excluded } : Dispatcher).run table
          (ops.take (i + 1))).1 o := by
  intro h
  have hsilent := h {} (fun _ => false) ⟨{}⟩ toldWhileOff 1 _ rfl rfl
  have hsent := hsilent.tells.sent
  revert hsent
  decide

end CaretLayout.Dispatcher
