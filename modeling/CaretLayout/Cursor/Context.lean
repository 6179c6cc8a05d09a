/-!
# The text around a cursor

What the classifier sees of a document: the cursor line up to the cursor, and a bounded window of
the lines above it.  Lines and columns are counted from zero, columns in characters.  A line past
the end of the document reads as empty, a column past the end of the line as its end.
-/

namespace CaretLayout

/-- The text before a cursor. -/
structure CursorContext where
  /-- The cursor line up to the cursor. -/
  before : List Char
  /-- Lines above the cursor line, in document order. -/
  above : List (List Char)
deriving DecidableEq, Repr

namespace CursorContext

/-- The first `column` characters of a line. -/
def upTo (line : List Char) (column : Nat) : List Char :=
  line.take column

/-- The text before the cursor in a document, with at most `window` lines above it. -/
def ofLines (document : List (List Char)) (line column window : Nat) : CursorContext where
  before := upTo ((document[line]?).getD []) column
  above := (document.take line).drop (line - window)

/-- The lines of the context from the cursor upwards. -/
def upwards (c : CursorContext) : List (List Char) :=
  c.before :: c.above.reverse

end CursorContext

end CaretLayout
