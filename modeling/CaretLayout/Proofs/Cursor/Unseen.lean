import CaretLayout.Cursor.Scope
import Mathlib.Logic.Relation

/-!
# What the classifier does not see

The classifier sees the lines of the window and the cursor line up to the cursor.  Two documents that
agree there (`SameSeen`) have the same context, and only such documents have (`ofLines_eq_iff`), so
that every rule comes to the same finding in both.  Edits elsewhere (`UnseenEdit`), however many of
them, change nothing: above the window, behind the cursor, and below the cursor line
(`classifyLines_unseen`).
-/

namespace CaretLayout

namespace CursorContext

variable {line column window : Nat} {a b : List (List Char)}

/-- Two documents agree on what is seen from a cursor. -/
structure SameSeen (line column window : Nat) (a b : List (List Char)) : Prop where
  /-- Each line of the window is the same in both, or missing from both. -/
  above : ∀ i, line - window ≤ i → i < line → a[i]? = b[i]?
  /-- So is the cursor line up to the cursor, where a missing line reads as empty. -/
  before : upTo ((a[line]?).getD []) column = upTo ((b[line]?).getD []) column

/-- The lines between two places are the same when each of them is. -/
theorem drop_take_eq_iff {first last : Nat} :
    (a.take last).drop first = (b.take last).drop first ↔
      ∀ i, first ≤ i → i < last → a[i]? = b[i]? := by
  rw [List.ext_getElem?_iff]
  simp only [List.getElem?_drop, List.getElem?_take]
  constructor
  · intro h i hfirst hlast
    have hi := h (i - first)
    rwa [Nat.add_sub_cancel' hfirst, if_pos hlast, if_pos hlast] at hi
  · intro h i
    split
    · next hlast => exact h (first + i) (Nat.le_add_right first i) hlast
    · rfl

/-- The context is what is seen. -/
theorem ofLines_eq_iff :
    ofLines a line column window = ofLines b line column window ↔
      SameSeen line column window a b := by
  unfold ofLines
  rw [CursorContext.mk.injEq, drop_take_eq_iff]
  exact ⟨fun ⟨hbefore, habove⟩ => ⟨habove, hbefore⟩, fun h => ⟨h.before, h.above⟩⟩

/-! ### Edits elsewhere -/

/-- An edit of what is not seen from a cursor. -/
inductive UnseenEdit (line column window : Nat) :
    List (List Char) → List (List Char) → Prop where
  /-- Lines above the window give way to as many others. -/
  | above {old new : List (List Char)} (rest : List (List Char))
      (hlength : old.length = new.length) (hwindow : old.length ≤ line - window) :
      UnseenEdit line column window (old ++ rest) (new ++ rest)
  /-- What follows the cursor on its line gives way to something else. -/
  | behind {front : List (List Char)} {start : List Char} (old new : List Char)
      (rest : List (List Char)) (hline : front.length = line) (hcolumn : column ≤ start.length) :
      UnseenEdit line column window (front ++ (start ++ old) :: rest)
        (front ++ (start ++ new) :: rest)
  /-- The lines below the cursor line give way to any others. -/
  | below {front : List (List Char)} (old new : List (List Char)) (hline : line < front.length) :
      UnseenEdit line column window (front ++ old) (front ++ new)

/-- Behind the part that is edited, every line keeps its number. -/
theorem getElem?_append_of_length_eq {old new : List (List Char)} (rest : List (List Char))
    (hlength : old.length = new.length) {i : Nat} (hi : old.length ≤ i) :
    (old ++ rest)[i]? = (new ++ rest)[i]? := by
  rw [List.getElem?_append_right hi, List.getElem?_append_right (hlength ▸ hi), hlength]

/-- Before the part that is edited, every line stays what it is. -/
theorem getElem?_append_of_lt {front : List (List Char)} (old new : List (List Char)) {i : Nat}
    (hi : i < front.length) : (front ++ old)[i]? = (front ++ new)[i]? := by
  rw [List.getElem?_append_left hi, List.getElem?_append_left hi]

/-- Such an edit leaves what is seen. -/
theorem UnseenEdit.sameSeen (h : UnseenEdit line column window a b) :
    SameSeen line column window a b := by
  cases h with
  | above rest hlength hwindow =>
    refine ⟨fun i hfirst _ => ?_, ?_⟩
    · exact getElem?_append_of_length_eq rest hlength (Nat.le_trans hwindow hfirst)
    · rw [getElem?_append_of_length_eq rest hlength
        (Nat.le_trans hwindow (Nat.sub_le line window))]
  | @behind front start old new rest hline hcolumn =>
    refine ⟨fun i _ hlast => getElem?_append_of_lt _ _ (hline ▸ hlast), ?_⟩
    have hcursor : ∀ tail : List Char,
        upTo (((front ++ (start ++ tail) :: rest)[line]?).getD []) column = start.take column := by
      intro tail
      rw [← hline, List.getElem?_append_right (Nat.le_refl _), Nat.sub_self,
        List.getElem?_cons_zero, Option.getD_some, upTo, List.take_append_of_le_length hcolumn]
    rw [hcursor old, hcursor new]
  | below old new hline =>
    refine ⟨fun i _ hlast => getElem?_append_of_lt old new (Nat.lt_trans hlast hline), ?_⟩
    rw [getElem?_append_of_lt old new hline]

end CursorContext

open CursorContext Relation

/-- Documents that agree on what is seen have the same finding under every rule. -/
theorem classifyLines_of_sameSeen (rule : MarkerRule) {line column window : Nat}
    {a b : List (List Char)} (h : SameSeen line column window a b) :
    classifyLines rule a line column window = classifyLines rule b line column window :=
  congrArg (classify rule) (ofLines_eq_iff.mpr h)

/-- **Only what is seen counts**: under every rule, two documents that agree on the lines of the window
and on the cursor line up to the cursor have the same finding, so the same scope and the same log.  So
have two documents of which one comes from the other by edits above the window, behind the cursor and
below its line. -/
theorem classifyLines_unseen (rule : MarkerRule) (line column window : Nat) :
    (∀ a b, SameSeen line column window a b →
      classifyLines rule a line column window = classifyLines rule b line column window) ∧
    ∀ a b, ReflTransGen (UnseenEdit line column window) a b →
      classifyLines rule a line column window = classifyLines rule b line column window := by
  refine ⟨fun a b => classifyLines_of_sameSeen rule, fun a b hedits => ?_⟩
  induction hedits with
  | refl => rfl
  | tail _ hedit ih => exact ih.trans (classifyLines_of_sameSeen rule hedit.sameSeen)

/-- A block that is open at the edge of the window, seen from the line below it. -/
def openedInWindow : List (List Char) :=
  ["*/".toList, "/* é".toList, "x */ y".toList]

/-- Its finding does not depend on what closes the block behind the cursor, on another first line or on
more lines below, neither when all is changed at once nor when it is edited bit by bit. -/
theorem classifyLines_unseen_openedInWindow :
    classifyLines .slashes openedInWindow 2 3 1 =
        classifyLines .slashes ["/* */".toList, "/* é".toList, "x *".toList, "*/".toList] 2 3 1 ∧
      classifyLines .slashes openedInWindow 2 3 1 =
        classifyLines .slashes ["".toList, "/* é".toList, "x * //".toList] 2 3 1 ∧
      (classifyLines .slashes openedInWindow 2 3 1).scope = .comment := by
  refine ⟨(classifyLines_unseen .slashes 2 3 1).1 _ _ ⟨?_, by decide⟩,
    (classifyLines_unseen .slashes 2 3 1).2 _ _ ?_, by decide⟩
  · intro i hfirst hlast
    obtain rfl : i = 1 := by omega
    rfl
  · have hfirst : UnseenEdit 2 3 1 openedInWindow
        ["".toList, "/* é".toList, "x */ y".toList] :=
      @UnseenEdit.above 2 3 1 ["*/".toList] ["".toList] _ rfl (by decide)
    have hcursor : UnseenEdit 2 3 1 ["".toList, "/* é".toList, "x */ y".toList]
        ["".toList, "/* é".toList, "x * //".toList] :=
      @UnseenEdit.behind 2 3 1 ["".toList, "/* é".toList] "x *".toList "/ y".toList " //".toList []
        rfl (by decide)
    exact (ReflTransGen.single hfirst).tail hcursor

end CaretLayout
