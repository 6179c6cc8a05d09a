import CaretLayout.Cursor.Scope

/-!
# A slice of the document is enough

The context of a cursor holds the cursor line and a window of the lines above it.  A slice of the
document that starts above the window and goes on to the cursor line gives the same context, when
lines are counted from its start (`ofLines_slice`).  This includes a cursor below the end of the
document, provided that the slice goes on to that end, and a window that reaches above the first
line.
-/

namespace CaretLayout.CursorContext

variable {document : List (List Char)} {first count line window : Nat}

/-- A slice reaches a line of the document, or its end. -/
def SliceReaches (document : List (List Char)) (first count line : Nat) : Prop :=
  line < first + count ∨ document.length ≤ first + count

instance (document : List (List Char)) (first count line : Nat) :
    Decidable (SliceReaches document first count line) :=
  inferInstanceAs (Decidable (_ ∨ _))

theorem getElem?_slice (hreach : SliceReaches document first count line) (hle : first ≤ line) :
    ((document.drop first).take count)[line - first]? = document[line]? := by
  have hline : first + (line - first) = line := by omega
  rw [List.getElem?_take, List.getElem?_drop, hline]
  split
  · rfl
  · next hlt =>
    -- the cursor is below the end of the document
    rcases hreach with h | h
    · omega
    · exact (List.getElem?_eq_none (by omega)).symm

theorem take_slice (hreach : SliceReaches document first count line) :
    ((document.drop first).take count).take (line - first) = (document.take line).drop first := by
  rw [List.take_take, List.drop_take]
  rcases Nat.lt_or_ge count (line - first) with hlt | hle
  · have hlen : (document.drop first).length ≤ count := by
      rw [List.length_drop]
      rcases hreach with h | h
      · omega
      · omega
    rw [List.take_of_length_le (by omega), List.take_of_length_le (by omega)]
  · rw [Nat.min_eq_left hle]

/-- **A slice gives the context of the document**, if it starts above the window and reaches the
cursor line. -/
theorem ofLines_slice (hfirst : first ≤ line - window)
    (hreach : SliceReaches document first count line) (column : Nat) :
    ofLines ((document.drop first).take count) (line - first) column window =
      ofLines document line column window := by
  have hbefore := getElem?_slice hreach (Nat.le_trans hfirst (Nat.sub_le line window))
  have habove := take_slice hreach
  have hwindow : first + (line - first - window) = line - window := by omega
  unfold ofLines
  rw [hbefore, habove, List.drop_drop, hwindow]

end CaretLayout.CursorContext
