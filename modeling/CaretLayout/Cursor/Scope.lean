import CaretLayout.Cursor.Context
import CaretLayout.Log
import CaretLayout.Marker.Rule

/-!
# Code or comment

The classifier decides from the text before the cursor whether the cursor is in code or in a
comment.  It does not parse the language:

* a symmetric pair is open when its delimiter occurs an odd number of times in the context;
* any other pair is decided on the nearest line that holds one of its delimiters, and is open when
  the last opener on that line stands after the last closer;
* a line marker counts wherever it stands before the cursor.

Block pairs come first, because some languages use one delimiter for block comments and for
strings.  The result is a `Finding`, which names the marker that decided; the scope and the log
record are read off it.
-/

namespace CaretLayout

/-- What kind of text the cursor stands in. -/
inductive Scope where
  | code
  | comment
deriving DecidableEq, Repr

/-- The name of a scope. -/
def Scope.name : Scope → String
  | .code => "code"
  | .comment => "comment"

/-- The name of a scope that may not be known. -/
def Scope.nameOr : Option Scope → String
  | some s => s.name
  | none => "unknown"

/-- What decided where the cursor stands. -/
inductive Finding where
  /-- The pair is open at the cursor. -/
  | openBlock (pair : BlockPair)
  /-- The marker stands before the cursor on its line. -/
  | lineMarker (marker : List Char)
  /-- No marker of the rule applies. -/
  | plain
deriving DecidableEq, Repr

namespace Finding

/-- The scope that a finding stands for. -/
def scope : Finding → Scope
  | openBlock _ => .comment
  | lineMarker _ => .comment
  | plain => .code

/-- What a finding is logged as. -/
def log : Finding → List Log.Record
  | openBlock pair =>
    [{ level := .trace, topic := "scope.classify", event := "open_block",
       fields := [("start", .text (String.ofList pair.opener)),
                  ("end", .text (String.ofList pair.closer))] }]
  | lineMarker marker =>
    [{ level := .trace, topic := "scope.classify", event := "line_marker",
       fields := [("marker", .text (String.ofList marker))] }]
  | plain => []

end Finding

namespace BlockPair

/-- Whether the delimiter occurs an odd number of times in the lines. -/
def oddIn (delimiter : List Char) (lines : List (List Char)) : Bool :=
  lines.foldr (fun line n => Text.occurrences delimiter line + n) 0 % 2 == 1

/-- Whether the nearest line that holds a delimiter leaves the block open, the lines being given
from the cursor upwards. -/
def openAtNearest (p : BlockPair) : List (List Char) → Bool
  | [] => false
  | line :: above =>
    match Text.lastIndex? p.opener line, Text.lastIndex? p.closer line with
    | none, none => openAtNearest p above
    | opened, closed => Text.isAfter opened closed

/-- Whether the block is open at the cursor.  A pair with an empty side never is. -/
def isOpen (p : BlockPair) (c : CursorContext) : Bool :=
  p.usable && (if p.symmetric then oddIn p.opener c.upwards else p.openAtNearest c.upwards)

end BlockPair

namespace CursorContext

/-- Whether a line marker stands before the cursor on its line. -/
def hasMarker (c : CursorContext) (marker : List Char) : Bool :=
  !marker.isEmpty && Text.contains marker c.before

/-- Where the cursor stands under a marker rule. -/
def classify (rule : MarkerRule) (c : CursorContext) : Finding :=
  match rule.blockPairs.find? (·.isOpen c) with
  | some pair => .openBlock pair
  | none =>
    match rule.lineMarkers.find? (c.hasMarker ·) with
    | some marker => .lineMarker marker
    | none => .plain

end CursorContext

/-- Where a cursor in a document stands under a marker rule. -/
def classifyLines (rule : MarkerRule) (document : List (List Char)) (line column window : Nat) :
    Finding :=
  (CursorContext.ofLines document line column window).classify rule

end CaretLayout
