import CaretLayout.Json.Typed

/-!
# Requests to the agent

The agent is the program that changes the keyboard layout.  A request is an action with a payload;
on the wire it is a JSON object on a line of its own.
-/

namespace CaretLayout

/-- A request to the agent. -/
structure Request where
  action : String
  payload : String
deriving DecidableEq, Repr

namespace Request

/-- Asks for a layout. -/
def switch (layout : String) : Request :=
  ⟨"switch", layout⟩

/-- Asks for the list of layouts. -/
def list : Request :=
  ⟨"list", ""⟩

/-- The request as a JSON object. -/
def toJson (r : Request) : Json :=
  .object [("action", .string r.action), ("payload", .string r.payload)]

/-- The request as a line, with its line feed. -/
def line (r : Request) : List Char :=
  r.toJson.print ++ ['\n']

/-- How a request is read. -/
def shape : Json.RecordShape Request where
  name := "struct SidecarRequest"
  fields := [
    { name := "action", required := true
      read := fun r text => do
        let (s, rest) ← Json.readTypedString text
        return ({ r with action := s }, rest) },
    { name := "payload", required := false
      read := fun r text => do
        let (s, rest) ← Json.readTypedString text
        return ({ r with payload := s }, rest) }]

/-- Reads a request. -/
def parse (text : List Char) : Except Json.Fault Request :=
  shape.readWhole ⟨"", ""⟩ text

end Request

end CaretLayout
