import CaretLayout.Text.Search

/-!
# Marker rules

A marker rule says how comments are written in one language: the markers that open a comment to the
end of the line, and the pairs of delimiters that enclose a block.  The order of the pairs matters,
since the first open pair is the one that is reported.

`MarkerRule.ofLists` keeps the usable markers only: line markers that are neither empty nor listed
before, and pairs with two non-empty sides.  A rule may also be given as it stands; the classifier
skips its empty markers.
-/

namespace CaretLayout

/-- A pair of delimiters that encloses a block comment or a block string. -/
structure BlockPair where
  opener : List Char
  closer : List Char
deriving DecidableEq, Repr

namespace BlockPair

/-- The same delimiter opens and closes the block. -/
def symmetric (p : BlockPair) : Bool :=
  p.opener == p.closer

/-- Both delimiters are non-empty. -/
def usable (p : BlockPair) : Bool :=
  !p.opener.isEmpty && !p.closer.isEmpty

theorem usable_iff {p : BlockPair} : p.usable = true ↔ p.opener ≠ [] ∧ p.closer ≠ [] := by
  simp [usable]

/-- The pair of two strings. -/
def ofStrings (opener closer : String) : BlockPair :=
  ⟨opener.toList, closer.toList⟩

end BlockPair

/-- How comments are written in one language. -/
structure MarkerRule where
  /-- Markers that open a comment to the end of the line. -/
  lineMarkers : List (List Char)
  /-- Pairs of delimiters, the first of which has precedence. -/
  blockPairs : List BlockPair
deriving DecidableEq, Repr

namespace MarkerRule

/-- Adds a line marker unless it is empty or already there. -/
def addLineMarker (markers : List (List Char)) (marker : List Char) : List (List Char) :=
  if marker.isEmpty || markers.contains marker then markers else markers ++ [marker]

/-- The rule made of the usable line markers, each at its first place, and the usable pairs. -/
def ofLists (lineMarkers : List (List Char)) (blockPairs : List BlockPair) : MarkerRule where
  lineMarkers := lineMarkers.foldl addLineMarker []
  blockPairs := blockPairs.filter BlockPair.usable

/-- The rule made of the usable ones of the given strings. -/
def ofStrings (lineMarkers : List String) (blockPairs : List (String × String)) : MarkerRule :=
  ofLists (lineMarkers.map String.toList) (blockPairs.map fun p => .ofStrings p.1 p.2)

/-- Line comments after `//` and blocks between `/*` and `*/`. -/
def slashes : MarkerRule :=
  ofStrings ["//"] [("/*", "*/")]

end MarkerRule

end CaretLayout
