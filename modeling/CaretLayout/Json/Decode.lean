import CaretLayout.Json.Reader

/-!
# Decoding JSON trees

Typed data out of a tree that has been read.  A value that does not fit is a data fault that names
what was found.  A record is an object or an array of its fields in order: the members of an object
are taken in the order of the text, unknown ones are ignored and known ones must not repeat, and
then the missing fields are looked for in the order of their declaration.
-/

namespace CaretLayout.Json

/-- How a value is named when it does not fit. -/
def Found.ofJson : Json → Found
  | .null => .null
  | .bool b => .bool b
  | .int i => .int i
  | .float x => .float x
  | .string s => .string s
  | .array _ => .sequence
  | .object _ => .map

/-- A string. -/
def asString : Json → Except DataFault String
  | .string s => .ok s
  | v => .error (.wrongType (.ofJson v) "a string")

/-- An unsigned 64-bit number. -/
def asWord : Json → Except DataFault Nat
  | .int i => if 0 ≤ i then .ok i.toNat else .error (.wrongValue (.int i) "usize")
  | v => .error (.wrongType (.ofJson v) "usize")

/-- A list of strings. -/
def asStrings : Json → Except DataFault (List String)
  | .array items => items.mapM asString
  | v => .error (.wrongType (.ofJson v) "a sequence")

/-- A string, or null for its absence. -/
def asOptionalString : Json → Except DataFault (Option String)
  | .null => .ok none
  | v => do
    let s ← asString v
    return some s

/-! ### Records -/

/-- A field of a record: how its value is stored in the record. -/
structure FieldDecoder (σ : Type) where
  name : String
  /-- Whether the record is incomplete without the field. -/
  required : Bool
  store : σ → Json → Except DataFault σ

/-- The name and the fields of a record. -/
structure RecordDecoder (σ : Type) where
  name : String
  fields : List (FieldDecoder σ)

/-- A number of elements, as messages name it. -/
def elements (n : Nat) : String :=
  toString n ++ (if n = 1 then " element" else " elements")

namespace RecordDecoder

variable {σ : Type}

/-- The first required field that was not seen. -/
def missing? (d : RecordDecoder σ) (seen : List String) : Option String :=
  (d.fields.find? fun f => f.required && !seen.contains f.name).map (·.name)

/-- Stores the members of an object in the record. -/
def storeMembers (d : RecordDecoder σ) :
    List String → σ → List (String × Json) → Except DataFault (List String × σ)
  | seen, record, [] => .ok (seen, record)
  | seen, record, (name, value) :: more =>
    match d.fields.find? (·.name == name) with
    | some field =>
      if seen.contains name then .error (.duplicateField name)
      else
        match field.store record value with
        | .ok record => d.storeMembers (name :: seen) record more
        | .error fault => .error fault
    | none => d.storeMembers seen record more

/-- A record from the members of an object. -/
def ofMembers (d : RecordDecoder σ) (initial : σ) (members : List (String × Json)) :
    Except DataFault σ :=
  match d.storeMembers [] initial members with
  | .ok (seen, record) =>
    match d.missing? seen with
    | some name => .error (.missingField name)
    | none => .ok record
  | .error fault => .error fault

/-- Stores items in the fields in order; `index` fields have been filled. -/
def storeItems (d : RecordDecoder σ) :
    List (FieldDecoder σ) → Nat → σ → List Json → Except DataFault σ
  | [], index, record, surplus =>
    if surplus.isEmpty then .ok record
    else .error (.wrongLength (index + surplus.length) (elements index ++ " in sequence"))
  | field :: fields, index, record, [] =>
    if field.required then
      .error (.wrongLength index (d.name ++ " with " ++ elements d.fields.length))
    else d.storeItems fields (index + 1) record []
  | field :: fields, index, record, item :: items =>
    match field.store record item with
    | .ok record => d.storeItems fields (index + 1) record items
    | .error fault => .error fault

/-- A record from its fields in order. -/
def ofItems (d : RecordDecoder σ) (initial : σ) (items : List Json) : Except DataFault σ :=
  d.storeItems d.fields 0 initial items

end RecordDecoder

end CaretLayout.Json
