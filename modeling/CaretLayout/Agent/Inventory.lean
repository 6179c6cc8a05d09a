import CaretLayout.Agent.Reply
import CaretLayout.Command.Failure
import CaretLayout.Text.Space

/-!
# The inventory of layouts

The agent is asked for its layouts, and its first decisive reply is the answer: a reply that reports
an error, or a reply that carries a list.  Whatever else it prints has no effect.  An agent that
ends without such a reply has failed.
-/

namespace CaretLayout.Inventory

/-- The answer that a reply gives, if it is decisive. -/
def ofReply? (r : Reply) : Option (Except Failure (List LayoutInfo)) :=
  if r.isError then some (.error (.agentError r.message)) else r.layouts.map .ok

/-- The answer that a line gives, if it is a decisive reply. -/
def ofLine? (line : List Char) : Option (Except Failure (List LayoutInfo)) :=
  match Text.trim line with
  | [] => none
  | text =>
    match Json.read text with
    | .ok value => (Reply.ofValue? value).bind ofReply?
    | .error _ => none

/-- The answer of the first decisive reply among lines. -/
def ofLines? (lines : List (List Char)) : Option (Except Failure (List LayoutInfo)) :=
  lines.findSome? ofLine?

/-- A layout on a line: its identifier, a tab and its name. -/
def printLayout (l : LayoutInfo) : String :=
  l.id ++ "\t" ++ l.name ++ "\n"

/-- The inventory as it is printed, a layout on each line. -/
def print (layouts : List LayoutInfo) : String :=
  String.join (layouts.map printLayout)

end CaretLayout.Inventory
