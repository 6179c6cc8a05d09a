import CaretLayout.Dispatch.Dispatcher

/-!
# What a dispatcher makes of a cursor

A cursor either leaves a dispatcher as it is, without a switch and without a request
(`cursorMoved_of_quiet`), or it changes the scope, with one switch and one request for its layout
(`cursorMoved_of_change`).
-/

namespace CaretLayout

/-- The scope of the cursor of a view. -/
def CursorView.scope (table : RuleTable) (view : CursorView) : Scope :=
  (view.context.classify (table.lookup view.language)).scope

namespace Dispatcher

variable {d : Dispatcher} {table : RuleTable} {view : CursorView}

theorem observe_of_eq {scope : Option Scope} (h : scope = d.current) :
    d.observe scope = (d, {}) := by
  unfold observe; rw [if_pos h]

/-- Nothing happens while switching is off, in a view that is left alone, and where the scope stays
the same. -/
theorem cursorMoved_of_quiet (h : d.enabled = false ∨
      d.isExcluded view.language view.contentKind = true ∨ d.current = some (view.scope table)) :
    (d.cursorMoved table view).1 = d ∧ (d.cursorMoved table view).2.switch = none ∧
      (d.cursorMoved table view).2.sent = [] := by
  unfold cursorMoved
  by_cases he : d.enabled = true
  · by_cases hx : d.isExcluded view.language view.contentKind = true
    · simp [he, hx]
    · have hc : some (view.scope table) = d.current := by
        rcases h with h | h | h
        · rw [he] at h; cases h
        · exact absurd h hx
        · exact h.symm
      have hobs := observe_of_eq hc
      unfold CursorView.scope at hobs
      simp [he, hx, hobs]
  · simp [he]

/-- A new scope is taken over, and its layout asked for. -/
theorem cursorMoved_of_change (he : d.enabled = true)
    (hx : d.isExcluded view.language view.contentKind = false)
    (hc : d.current ≠ some (view.scope table)) :
    (d.cursorMoved table view).1 = { d with current := some (view.scope table) } ∧
      (d.cursorMoved table view).2.switch =
        some ⟨view.scope table, d.layouts.of (view.scope table)⟩ ∧
      (d.cursorMoved table view).2.sent = [.switch (d.layouts.of (view.scope table))] := by
  have hc' : ¬ some (view.context.classify (table.lookup view.language)).scope = d.current :=
    fun h => hc h.symm
  simp [cursorMoved, observe, CursorView.scope, he, hx, hc']

theorem cursorMoved_cases (d : Dispatcher) (table : RuleTable) (view : CursorView) :
    ((d.cursorMoved table view).1 = d ∧ (d.cursorMoved table view).2.switch = none ∧
      (d.cursorMoved table view).2.sent = []) ∨
    ((d.cursorMoved table view).1 = { d with current := some (view.scope table) } ∧
      (d.cursorMoved table view).2.switch =
        some ⟨view.scope table, d.layouts.of (view.scope table)⟩ ∧
      (d.cursorMoved table view).2.sent = [.switch (d.layouts.of (view.scope table))]) := by
  by_cases h : d.enabled = false ∨ d.isExcluded view.language view.contentKind = true ∨
      d.current = some (view.scope table)
  · exact Or.inl (cursorMoved_of_quiet h)
  · simp only [not_or, Bool.not_eq_false, Bool.not_eq_true] at h
    exact Or.inr (cursorMoved_of_change h.1 h.2.1 h.2.2)

/-- A cursor changes nothing of a dispatcher but its scope. -/
theorem cursorMoved_fst (d : Dispatcher) (table : RuleTable) (view : CursorView) :
    ∃ current, (d.cursorMoved table view).1 = { d with current := current } := by
  rcases cursorMoved_cases d table view with ⟨h, -, -⟩ | ⟨h, -, -⟩
  · exact ⟨d.current, h⟩
  · exact ⟨_, h⟩

/-- Requests and switches go together. -/
theorem cursorMoved_sent (d : Dispatcher) (table : RuleTable) (view : CursorView) :
    (d.cursorMoved table view).2.sent =
      ((d.cursorMoved table view).2.switch.map fun w => Request.switch w.layout).toList := by
  rcases cursorMoved_cases d table view with ⟨-, hw, hs⟩ | ⟨-, hw, hs⟩
  · rw [hw, hs]; rfl
  · rw [hw, hs]; rfl

end Dispatcher

end CaretLayout
