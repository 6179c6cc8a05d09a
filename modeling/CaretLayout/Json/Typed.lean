import CaretLayout.Json.Decode

/-!
# Reading JSON into records

A text is decoded while it is read, so that the first fault in the order of the text is the one that
counts, be it in the data or in the form.  A record is written as an object, whose unknown members
are skipped and whose known ones must not repeat, or as an array of its fields in order, whose
missing tail takes the defaults.
-/

namespace CaretLayout.Json

/-- The fault of a value that is not of the expected type.  A scalar is read to its end, so that a
fault in its form comes first; a container is not entered. -/
def wrongTypeFault (expected : String) (c : Char) (rest : List Char) : Fault :=
  if c = '[' then .data (.wrongType .sequence expected)
  else if c = '{' then .data (.wrongType .map expected)
  else
    match readScalar .strict c rest with
    | .ok (v, _) => .data (.wrongType (.ofJson v) expected)
    | .error fault => fault

/-- A string where `expected` is asked for. -/
def readStringFor (expected : String) (text : List Char) : Except Fault (Reading String) :=
  match skipBlank text with
  | [] => .error .truncated
  | c :: rest =>
    if c = '"' then readString .strict rest else .error (wrongTypeFault expected c rest)

/-- A string. -/
def readTypedString (text : List Char) : Except Fault (Reading String) :=
  readStringFor "a string" text

/-- Something, or null for its absence. -/
def readOptional {α : Type} (readSome : List Char → Except Fault (Reading α)) (text : List Char) :
    Except Fault (Reading (Option α)) :=
  match skipBlank text with
  | 'n' :: rest => do
    let rest ← readWord ['u', 'l', 'l'] rest
    return (none, rest)
  | rest => do
    let (v, rest) ← readSome rest
    return (some v, rest)

/-- Items and the closing bracket, after at least one item is known to follow. -/
def readMoreTyped {α : Type} (readItem : List Char → Except Fault (Reading α)) :
    Nat → List Char → Except Fault (Reading (List α))
  | 0, _ => .error .truncated
  | fuel + 1, text => do
    let (item, rest) ← readItem text
    let (again, rest) ← readSeparator ']' (skipBlank rest)
    if again then
      match rest with
      | [] => .error .truncated
      | ']' :: _ => .error .malformed
      | rest => do
        let (items, rest) ← readMoreTyped readItem fuel rest
        return (item :: items, rest)
    else return ([item], rest)

/-- A sequence of items of one type. -/
def readSequence {α : Type} (readItem : List Char → Except Fault (Reading α)) (text : List Char) :
    Except Fault (Reading (List α)) :=
  match skipBlank text with
  | [] => .error .truncated
  | c :: rest =>
    if c = '[' then
      match skipBlank rest with
      | [] => .error .truncated
      | ']' :: rest => .ok ([], rest)
      | rest => readMoreTyped readItem (rest.length + 1) rest
    else .error (wrongTypeFault "a sequence" c rest)

/-- A field of a record: how its value is read into the record. -/
structure FieldReader (σ : Type) where
  name : String
  /-- Whether the record is incomplete without the field. -/
  required : Bool
  read : σ → List Char → Except Fault (Reading σ)

/-- The name and the fields of a record. -/
structure RecordShape (σ : Type) where
  name : String
  fields : List (FieldReader σ)

namespace RecordShape

variable {σ : Type}

/-- A record with its number of fields, as messages name it. -/
def counted (shape : RecordShape σ) : String :=
  shape.name ++ " with " ++ elements shape.fields.length

/-- The first required field that was not seen. -/
def missing? (shape : RecordShape σ) (seen : List String) : Option String :=
  (shape.fields.find? fun f => f.required && !seen.contains f.name).map (·.name)

/-- A member: into its field, or skipped. -/
def readMember (shape : RecordShape σ) (seen : List String) (record : σ) (text : List Char) :
    Except Fault (Reading (List String × σ)) := do
  let (name, rest) ← readMemberName text
  match shape.fields.find? (·.name == name) with
  | some field =>
    if seen.contains name then .error (.data (.duplicateField name))
    else do
      let rest ← readColon rest
      let (record, rest) ← field.read record rest
      return ((name :: seen, record), rest)
  | none => do
    let rest ← readColon rest
    let (_, rest) ← readFront .lax maxDepth rest
    return ((seen, record), rest)

/-- Members and the closing brace, after at least one member is known to follow. -/
def readMembers (shape : RecordShape σ) :
    Nat → List String → σ → List Char → Except Fault (Reading (List String × σ))
  | 0, _, _, _ => .error .truncated
  | fuel + 1, seen, record, text => do
    let ((seen, record), rest) ← shape.readMember seen record text
    let (again, rest) ← readSeparator '}' (skipBlank rest)
    if again then shape.readMembers fuel seen record rest else return ((seen, record), rest)

/-- Fields in order up to the closing bracket, `first` when none has been read. -/
def readFields (shape : RecordShape σ) :
    List (FieldReader σ) → Bool → Nat → σ → List Char → Except Fault (Reading σ)
  | [], _, _, record, text =>
    match skipBlank text with
    | [] => .error .truncated
    | ']' :: rest => .ok (record, rest)
    | _ => .error .malformed
  | field :: more, first, index, record, text =>
    match skipBlank text with
    | [] => .error .truncated
    | ']' :: rest =>
      if (field :: more).any (·.required) then
        let lead := ((field :: more).takeWhile fun f => !f.required).length
        .error (.data (.wrongLength (index + lead) shape.counted))
      else .ok (record, rest)
    | c :: rest =>
      if first then do
        let (record, rest) ← field.read record (c :: rest)
        shape.readFields more false (index + 1) record rest
      else if c = ',' then
        match skipBlank rest with
        | [] => .error .truncated
        | ']' :: _ => .error .malformed
        | rest => do
          let (record, rest) ← field.read record rest
          shape.readFields more false (index + 1) record rest
      else .error .malformed

/-- A record, starting from the values that its fields have by default. -/
def readRecord (shape : RecordShape σ) (initial : σ) (text : List Char) :
    Except Fault (Reading σ) :=
  match skipBlank text with
  | [] => .error .truncated
  | c :: rest =>
    if c = '{' then do
      let ((seen, record), rest) ←
        match skipBlank rest with
        | [] => .error .truncated
        | '}' :: rest => .ok (([], initial), rest)
        | rest => shape.readMembers (rest.length + 1) [] initial rest
      match shape.missing? seen with
      | some name => .error (.data (.missingField name))
      | none => return (record, rest)
    else if c = '[' then shape.readFields shape.fields true 0 initial rest
    else .error (wrongTypeFault shape.name c rest)

/-- Reads a whole text as a record. -/
def readWhole (shape : RecordShape σ) (initial : σ) (text : List Char) : Except Fault σ := do
  let (record, rest) ← shape.readRecord initial text
  expectEnd rest
  return record

end RecordShape

end CaretLayout.Json
