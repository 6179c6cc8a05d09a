import CaretLayout.Json.Typed

/-!
# Replies of the agent

What the agent prints is JSON, a value on each line.  A reply is an object with a status, a message
and perhaps a list of layouts.  There are two ways to read one:

* `ofValue?` takes whatever it can from any object: fields of another type count as absent, and
  entries of the list that are not layouts are left out;
* `parse` asks for the exact form.
-/

namespace CaretLayout

/-- A keyboard layout that the agent offers. -/
structure LayoutInfo where
  id : String
  name : String
deriving DecidableEq, Repr

/-- A reply of the agent. -/
structure Reply where
  status : String := ""
  message : String := ""
  /-- The layouts, if the reply carries a list. -/
  layouts : Option (List LayoutInfo) := none
deriving DecidableEq, Repr

namespace LayoutInfo

/-- A layout, from an object with the two strings or an array of exactly two strings. -/
def ofValue? : Json → Option LayoutInfo
  | .object members =>
    match Json.lastMember? "id" members, Json.lastMember? "name" members with
    | some (.string id), some (.string name) => some ⟨id, name⟩
    | _, _ => none
  | .array [.string id, .string name] => some ⟨id, name⟩
  | _ => none

/-- How a layout is read. -/
def shape : Json.RecordShape LayoutInfo where
  name := "struct LayoutInfo"
  fields := [
    { name := "id", required := true
      read := fun l text => do
        let (s, rest) ← Json.readTypedString text
        return ({ l with id := s }, rest) },
    { name := "name", required := true
      read := fun l text => do
        let (s, rest) ← Json.readTypedString text
        return ({ l with name := s }, rest) }]

end LayoutInfo

namespace Reply

/-- Whether the reply reports an error. -/
def isError (r : Reply) : Bool :=
  r.status == "error"

/-- The text of a member, empty when there is none. -/
def textMember (name : String) (v : Json) : String :=
  ((v.member? name).bind Json.string?).getD ""

/-- The reply that an object stands for; other values are no replies. -/
def ofValue? (v : Json) : Option Reply :=
  if v.isObject then
    some {
      status := textMember "status" v
      message := textMember "message" v
      layouts := ((v.member? "data").bind Json.array?).map (·.filterMap LayoutInfo.ofValue?) }
  else none

/-- How a reply in exact form is read. -/
def shape : Json.RecordShape Reply where
  name := "struct AgentReply"
  fields := [
    { name := "status", required := false
      read := fun r text => do
        let (s, rest) ← Json.readTypedString text
        return ({ r with status := s }, rest) },
    { name := "message", required := false
      read := fun r text => do
        let (s, rest) ← Json.readTypedString text
        return ({ r with message := s }, rest) },
    { name := "data", required := false
      read := fun r text => do
        let (l, rest) ← Json.readOptional
          (Json.readSequence (LayoutInfo.shape.readRecord ⟨"", ""⟩)) text
        return ({ r with layouts := l }, rest) }]

/-- Reads a reply in exact form. -/
def parse (text : List Char) : Except Json.Fault Reply :=
  shape.readWhole {} text

end Reply

end CaretLayout
