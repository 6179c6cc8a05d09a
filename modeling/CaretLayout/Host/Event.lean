import CaretLayout.Json.Typed
import CaretLayout.Text.Space

/-!
# Events of the host

The host is the editor.  It reports cursor movements and commands, each as a JSON value on a line.
A value is an object with a member `type`, or an array that starts with the type.

Decoding goes through the text once.  The type is decoded where it stands, and a fault in it ends
the reading there; all other members are read as trees first.  When the value is complete, the
members are decoded in the order of the text.  So a fault in the form of the text comes before a
fault in the data of any member but the type.
-/

namespace CaretLayout

/-- A cursor movement. -/
structure CursorEvent where
  session : String
  language : String
  /-- The line of the cursor in the document. -/
  line : Nat
  column : Nat
  /-- The lines that the host sends along. -/
  lines : List String
  /-- The number in the document of the first line sent along. -/
  firstLine : Nat
  contentKind : Option String
deriving DecidableEq, Repr

/-- The line of the cursor among the lines sent along. -/
def CursorEvent.relativeLine (c : CursorEvent) : Nat :=
  c.line - c.firstLine

/-- What the host reports. -/
inductive HostEvent where
  | cursor (c : CursorEvent)
  | toggle
  | listLayouts
  | close (session : String)
  | shutdown
deriving DecidableEq, Repr

/-- The kinds of event. -/
inductive HostEvent.Kind where
  | cursor
  | toggle
  | listLayouts
  | close
  | shutdown
deriving DecidableEq, Repr

namespace HostEvent

namespace Kind

/-- The kinds of event in the order of messages. -/
def all : List Kind :=
  [cursor, toggle, listLayouts, close, shutdown]

/-- The name of a kind. -/
def name : Kind → String
  | cursor => "cursor"
  | toggle => "toggle"
  | listLayouts => "list_layouts"
  | close => "close"
  | shutdown => "shutdown"

/-- The kind of a name. -/
def ofName (s : String) : Except Json.DataFault Kind :=
  match all.find? (·.name == s) with
  | some kind => .ok kind
  | none => .error (.unknownVariant s (all.map name))

end Kind

/-- The fields of a cursor movement. -/
def cursorDecoder : Json.RecordDecoder CursorEvent where
  name := "struct CursorEvent"
  fields := [
    { name := "session", required := false
      store := fun c v => do return { c with session := ← Json.asString v } },
    { name := "language_id", required := true
      store := fun c v => do return { c with language := ← Json.asString v } },
    { name := "line", required := true
      store := fun c v => do return { c with line := ← Json.asWord v } },
    { name := "column", required := true
      store := fun c v => do return { c with column := ← Json.asWord v } },
    { name := "lines", required := false
      store := fun c v => do return { c with lines := ← Json.asStrings v } },
    { name := "first_line", required := false
      store := fun c v => do return { c with firstLine := ← Json.asWord v } },
    { name := "content_kind", required := false
      store := fun c v => do return { c with contentKind := ← Json.asOptionalString v } }]

/-- A cursor movement with the values that its fields have by default. -/
def noCursor : CursorEvent :=
  ⟨"", "", 0, 0, [], 0, none⟩

/-- The field of a close event. -/
def closeDecoder : Json.RecordDecoder String where
  name := "struct variant HostEvent::Close"
  fields := [{ name := "session", required := true, store := fun _ v => Json.asString v }]

/-- The fields of an event, as members or as items in order. -/
inductive Content where
  | members (m : List (String × Json))
  | items (l : List Json)
deriving DecidableEq, Repr

/-- Decodes a record from its fields in either form. -/
def Content.decode {σ : Type} (d : Json.RecordDecoder σ) (initial : σ) :
    Content → Except Json.DataFault σ
  | .members m => d.ofMembers initial m
  | .items l => d.ofItems initial l

/-- An event without fields: members are ignored, items are too many. -/
def Content.decodeNothing (event : HostEvent) : Content → Except Json.DataFault HostEvent
  | .members _ => .ok event
  | .items [] => .ok event
  | .items l => .error (.wrongLength l.length (Json.elements 0 ++ " in sequence"))

/-- Decodes the fields of an event of a kind. -/
def decode (kind : Kind) (content : Content) : Except Json.DataFault HostEvent :=
  match kind with
  | .cursor => (content.decode cursorDecoder noCursor).map .cursor
  | .toggle => content.decodeNothing .toggle
  | .listLayouts => content.decodeNothing .listLayouts
  | .close => (content.decode closeDecoder "").map .close
  | .shutdown => content.decodeNothing .shutdown

/-- A data fault as a fault of the text. -/
def liftData {α : Type} : Except Json.DataFault α → Except Json.Fault α
  | .ok a => .ok a
  | .error fault => .error (.data fault)

/-- The kind of an event where it stands in the text. -/
def readKind (text : List Char) : Except Json.Fault (Json.Reading Kind) := do
  let (name, rest) ← Json.readStringFor "variant identifier" text
  let kind ← liftData (Kind.ofName name)
  return (kind, rest)

/-- The depth allowed inside the value of an event. -/
def innerDepth : Nat := Json.maxDepth - 1

/-- The members of an event up to its closing brace, after at least one is known to follow: the kind
if it has been read, and the others in order. -/
def readMembers : Nat → Option Kind → List Char →
    Except Json.Fault (Json.Reading (Option Kind × List (String × Json)))
  | 0, _, _ => .error .truncated
  | fuel + 1, kind, text => do
    let (name, rest) ← Json.readMemberName text
    if name = "type" then
      if kind.isSome then .error (.data (.duplicateField "type"))
      else do
        let rest ← Json.readColon rest
        let (found, rest) ← readKind rest
        let (again, rest) ← Json.readSeparator '}' (Json.skipBlank rest)
        if again then readMembers fuel (some found) rest else return ((some found, []), rest)
    else do
      let rest ← Json.readColon rest
      let (value, rest) ← Json.readFront .strict innerDepth rest
      let (again, rest) ← Json.readSeparator '}' (Json.skipBlank rest)
      if again then
        let ((found, members), rest) ← readMembers fuel kind rest
        return ((found, (name, value) :: members), rest)
      else return ((kind, [(name, value)]), rest)

/-- The items after the kind up to the closing bracket. -/
def readItems (text : List Char) : Except Json.Fault (Json.Reading (List Json)) := do
  let (again, rest) ← Json.readSeparator ']' (Json.skipBlank text)
  if again then Json.readMoreItems .strict (Json.fuelFor rest) innerDepth rest
  else return ([], rest)

/-- The kind and the fields of an event at the front of a text. -/
def readTagged (text : List Char) : Except Json.Fault (Json.Reading (Kind × Content)) :=
  match Json.skipBlank text with
  | [] => .error .truncated
  | c :: rest =>
    if c = '{' then do
      let ((kind, members), rest) ←
        match Json.skipBlank rest with
        | [] => .error .truncated
        | '}' :: rest => .ok ((none, []), rest)
        | rest => readMembers (rest.length + 1) none rest
      match kind with
      | some kind => return ((kind, .members members), rest)
      | none => .error (.data (.missingField "type"))
    else if c = '[' then
      match Json.skipBlank rest with
      | [] => .error .truncated
      | ']' :: _ => .error (.data (.missingField "type"))
      | rest => do
        let (kind, rest) ← readKind rest
        let (items, rest) ← readItems rest
        return ((kind, .items items), rest)
    else .error (Json.wrongTypeFault "internally tagged enum HostEvent" c rest)

/-- Reads a whole text as an event. -/
def read (text : List Char) : Except Json.Fault HostEvent := do
  let ((kind, content), rest) ← readTagged text
  let event ← liftData (decode kind content)
  Json.expectEnd rest
  return event

/-- Reads a line: nothing if it is blank, an event otherwise. -/
def parseLine (line : List Char) : Except Json.Fault (Option HostEvent) :=
  match Text.trim line with
  | [] => .ok none
  | text => (read text).map some

end HostEvent

end CaretLayout
