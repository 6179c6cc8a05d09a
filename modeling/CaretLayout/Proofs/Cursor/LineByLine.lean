import CaretLayout.Proofs.Cursor.Joined
import Mathlib.Data.List.Find

/-!
# Line by line or all at once

The classifier searches the text before the cursor line by line.  Searching the joined text in one
piece gives the same finding (`classify_joined`), as long as no line marker is asked for and no
delimiter holds a line feed: a symmetric delimiter occurs in the joined text as often as in all of
the lines (`oddIn_upwards`), and for any other pair the nearest line that holds a delimiter decides
as the last occurrences in the whole text do (`openAtNearest_iff`).
-/

namespace CaretLayout

open Text

/-- The context in which all lines before the cursor are joined to one. -/
def CursorContext.joined (c : CursorContext) : CursorContext where
  before := c.text
  above := []

namespace BlockPair

/-! ### Symmetric pairs -/

theorem sum_occurrences {delimiter : List Char} (hd : delimiter ≠ []) (hl : '\n' ∉ delimiter) :
    ∀ (rev : List (List Char)) (before : List Char),
      (before :: rev).foldr (fun line n => occurrences delimiter line + n) 0 =
        occurrences delimiter (CursorContext.text ⟨before, rev.reverse⟩) := by
  intro rev
  induction rev with
  | nil =>
    intro before
    rw [List.reverse_nil, CursorContext.text_nil]
    rfl
  | cons line rev ih =>
    intro before
    rw [List.reverse_cons, CursorContext.text_concat, occurrences_append_cons hd hl, ← ih line,
      Nat.add_comm]
    rfl

/-- The parity over the lines is that of the joined text. -/
theorem oddIn_upwards {delimiter : List Char} (hd : delimiter ≠ []) (hl : '\n' ∉ delimiter)
    (c : CursorContext) : oddIn delimiter c.upwards = oddIn delimiter c.joined.upwards := by
  have hlines := sum_occurrences hd hl c.above.reverse c.before
  rw [List.reverse_reverse] at hlines
  have hjoined := sum_occurrences hd hl [] c.text
  rw [List.reverse_nil, CursorContext.text_nil] at hjoined
  unfold oddIn
  exact congrArg (fun n => n % 2 == 1) (hlines.trans hjoined.symm)

/-! ### All pairs -/

variable {p : BlockPair}

theorem openAtNearest_upwards (ho : p.opener ≠ []) (hc : p.closer ≠ []) (hol : '\n' ∉ p.opener)
    (hcl : '\n' ∉ p.closer) (c : CursorContext) :
    p.openAtNearest c.upwards = p.openAtNearest c.joined.upwards := by
  have hlines := openAtNearest_iff ho hc hol hcl c.above.reverse c.before
  rw [List.reverse_reverse] at hlines
  have hjoined := openAtNearest_iff ho hc hol hcl [] c.text
  rw [List.reverse_nil, CursorContext.text_nil] at hjoined
  rw [Bool.eq_iff_iff]
  exact hlines.trans hjoined.symm

/-- A pair is open in a context exactly when it is open in the joined text. -/
theorem isOpen_joined (hol : '\n' ∉ p.opener) (hcl : '\n' ∉ p.closer) (c : CursorContext) :
    p.isOpen c = p.isOpen c.joined := by
  unfold isOpen
  rcases hu : p.usable with _ | _
  · rfl
  · obtain ⟨ho, hc⟩ := usable_iff.mp hu
    rw [oddIn_upwards ho hol, openAtNearest_upwards ho hc hol hcl]

end BlockPair

namespace CursorContext

/-- **Scanning line by line is scanning the joined text.**  Under a rule without line markers whose
delimiters hold no line feed, a context and its joined text have the same finding, so the same scope
and the same log. -/
theorem classify_joined (rule : MarkerRule) (hline : rule.lineMarkers = [])
    (hpairs : ∀ p ∈ rule.blockPairs, '\n' ∉ p.opener ∧ '\n' ∉ p.closer) (c : CursorContext) :
    c.classify rule = c.joined.classify rule := by
  have hfind : rule.blockPairs.find? (·.isOpen c) = rule.blockPairs.find? (·.isOpen c.joined) :=
    List.find?_congr fun p hp =>
      BlockPair.isOpen_joined (hpairs p hp).1 (hpairs p hp).2 c
  unfold classify
  rw [hfind, hline]
  rfl

/-- A symmetric delimiter that overlaps itself, beside a pair one side of which is the start of the
other. -/
theorem classify_joined_overlapping :
    (CursorContext.mk "' [".toList ["'''".toList, "[[ '".toList]).classify
        ⟨[], [.ofStrings "''" "''", .ofStrings "[[" "[", .ofStrings "'" "'"]⟩ =
      (CursorContext.mk "'''\n[[ '\n' [".toList []).classify
        ⟨[], [.ofStrings "''" "''", .ofStrings "[[" "[", .ofStrings "'" "'"]⟩ :=
  classify_joined ⟨[], [.ofStrings "''" "''", .ofStrings "[[" "[", .ofStrings "'" "'"]⟩ rfl
    (by decide) ⟨"' [".toList, ["'''".toList, "[[ '".toList]⟩

end CursorContext

end CaretLayout
