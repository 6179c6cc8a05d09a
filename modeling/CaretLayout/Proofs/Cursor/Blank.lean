import CaretLayout.Cursor.Scope

/-!
# Empty lines

No marker stands on an empty line, so the empty lines above the cursor can be left out
(`classify_withoutBlank`).  What a document gets at its end when empty lines are added is left out
again (`withoutBlank_ofLines_append`), wherever the cursor and the window are.  So added lines never
change the finding, and a cursor below the end of a document is judged as if empty lines went on to
it (`classifyLines_append_blank`).
-/

namespace CaretLayout

open Text

/-! ### Searches in empty lines -/

/-- The lines that are not empty. -/
def Text.nonBlank (lines : List (List Char)) : List (List Char) :=
  lines.filter (!·.isEmpty)

namespace BlockPair

theorem foldr_occurrences_nonBlank (delimiter : List Char) : ∀ lines : List (List Char),
    (nonBlank lines).foldr (fun line n => occurrences delimiter line + n) 0 =
      lines.foldr (fun line n => occurrences delimiter line + n) 0
  | [] => rfl
  | [] :: lines => by
    have hblank : occurrences delimiter [] = 0 := occurrencesFrom_nil delimiter 0
    rw [List.foldr_cons, hblank, Nat.zero_add, ← foldr_occurrences_nonBlank delimiter lines]
    rfl
  | (c :: line) :: lines => by
    rw [List.foldr_cons, ← foldr_occurrences_nonBlank delimiter lines]
    rfl

/-- A delimiter occurs in the lines that are not empty as often as in all of them. -/
theorem oddIn_cons_nonBlank (delimiter before : List Char) (above : List (List Char)) :
    oddIn delimiter (before :: nonBlank above) = oddIn delimiter (before :: above) := by
  rw [oddIn, oddIn, List.foldr_cons, List.foldr_cons, foldr_occurrences_nonBlank]

/-- The walk upwards passes over empty lines. -/
theorem openAtNearest_nonBlank (p : BlockPair) : ∀ lines : List (List Char),
    p.openAtNearest (nonBlank lines) = p.openAtNearest lines
  | [] => rfl
  | [] :: lines => openAtNearest_nonBlank p lines
  | (c :: line) :: lines => by
    show p.openAtNearest ((c :: line) :: nonBlank lines) = _
    rw [openAtNearest, openAtNearest, openAtNearest_nonBlank p lines]

theorem openAtNearest_cons_nonBlank (p : BlockPair) (before : List Char)
    (above : List (List Char)) :
    p.openAtNearest (before :: nonBlank above) = p.openAtNearest (before :: above) := by
  rw [openAtNearest, openAtNearest, openAtNearest_nonBlank]

end BlockPair

namespace CursorContext

/-! ### Contexts without empty lines -/

/-- The context without the empty lines above the cursor. -/
def withoutBlank (c : CursorContext) : CursorContext where
  before := c.before
  above := nonBlank c.above

theorem upwards_withoutBlank (c : CursorContext) :
    c.withoutBlank.upwards = c.before :: nonBlank c.above.reverse :=
  congrArg (c.before :: ·) (List.filter_reverse ..).symm

theorem isOpen_withoutBlank (p : BlockPair) (c : CursorContext) :
    p.isOpen c.withoutBlank = p.isOpen c := by
  rw [BlockPair.isOpen, BlockPair.isOpen, upwards_withoutBlank, BlockPair.oddIn_cons_nonBlank,
    BlockPair.openAtNearest_cons_nonBlank]
  rfl

/-- **Empty lines do not count.** -/
theorem classify_withoutBlank (rule : MarkerRule) (c : CursorContext) :
    c.withoutBlank.classify rule = c.classify rule := by
  unfold classify
  simp only [isOpen_withoutBlank]
  rfl

/-! ### Empty lines at the end of a document -/

/-- Where a line is missing, an empty one reads the same. -/
theorem getD_getElem?_append_blank (document : List (List Char)) (count line : Nat) :
    ((document ++ List.replicate count [])[line]?).getD [] = (document[line]?).getD [] := by
  rcases Nat.lt_or_ge line document.length with hlt | hge
  · rw [List.getElem?_append_left hlt]
  · rw [List.getElem?_append_right hge, List.getElem?_eq_none hge, List.getElem?_replicate]
    split <;> rfl

theorem nonBlank_eq_nil {lines : List (List Char)} (h : ∀ line ∈ lines, line = []) :
    nonBlank lines = [] := by
  refine List.filter_eq_nil_iff.mpr fun line hline => ?_
  rw [h line hline]
  decide

/-- The lines that are added are empty wherever the window meets them. -/
theorem nonBlank_drop_take_append (document : List (List Char)) (count first last : Nat) :
    nonBlank (((document ++ List.replicate count []).take last).drop first) =
      nonBlank ((document.take last).drop first) := by
  have hadded : ∀ line ∈ (((List.replicate count ([] : List Char)).take
      (last - document.length)).drop (first - (document.take last).length)), line = [] :=
    fun line hline => List.eq_of_mem_replicate (List.mem_of_mem_take (List.mem_of_mem_drop hline))
  rw [List.take_append, List.drop_append, nonBlank, List.filter_append]
  exact (congrArg (_ ++ ·) (nonBlank_eq_nil hadded)).trans (List.append_nil _)

/-- Without empty lines the context is the same with and without those that are added. -/
theorem withoutBlank_ofLines_append (document : List (List Char)) (count line column window : Nat) :
    (ofLines (document ++ List.replicate count []) line column window).withoutBlank =
      (ofLines document line column window).withoutBlank := by
  unfold withoutBlank ofLines
  rw [getD_getElem?_append_blank, nonBlank_drop_take_append]

end CursorContext

open CursorContext

/-- **Empty lines at the end do not matter**: however many are added, and wherever the cursor is, every
rule comes to the same finding, so to the same scope and the same log.  In particular it does if the
document is filled up with empty lines until it has the cursor line. -/
theorem classifyLines_append_blank (rule : MarkerRule) (document : List (List Char))
    (line column window : Nat) :
    (∀ count, classifyLines rule (document ++ List.replicate count []) line column window =
      classifyLines rule document line column window) ∧
    classifyLines rule (document.rightpad (line + 1) []) line column window =
      classifyLines rule document line column window := by
  have hadded : ∀ count,
      classifyLines rule (document ++ List.replicate count []) line column window =
        classifyLines rule document line column window := by
    intro count
    unfold classifyLines
    rw [← classify_withoutBlank, withoutBlank_ofLines_append, classify_withoutBlank]
  exact ⟨hadded, hadded (line + 1 - document.length)⟩

end CaretLayout
