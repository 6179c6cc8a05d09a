import CaretLayout.Toml.Value

/-!
# Decoding TOML values

A value is taken for what it is asked to be, or it is refused.  A record is decoded field by field,
from a table or from an array that holds the fields in order.  Fields that are not given keep the
values of the initial record.  A table may have further entries, as long as they can be passed over;
an array may have further items, which are not looked at.
-/

namespace CaretLayout.Toml

/-- The text of a string. -/
def string? : Toml → Option String
  | string s => some s
  | _ => none

/-- The truth value of a boolean. -/
def boolean? : Toml → Option Bool
  | boolean b => some b
  | _ => none

/-- The number of an integer that fits into an unsigned 64 bit word. -/
def word? : Toml → Option Nat
  | integer i => if 0 ≤ i ∧ i.toNat < Nat.pow 2 64 then some i.toNat else none
  | _ => none

/-- The items of an array of strings. -/
def strings? : Toml → Option (List String)
  | array items => items.mapM string?
  | _ => none

/-- The first two items of an array that starts with two strings. -/
def pair? : Toml → Option (String × String)
  | array (string a :: string b :: _) => some (a, b)
  | _ => none

/-- The items of an array of pairs. -/
def pairs? : Toml → Option (List (String × String))
  | array items => items.mapM pair?
  | _ => none

/-- Whether a container holds nothing. -/
def isEmptyContainer : Toml → Bool
  | array items => items.isEmpty
  | table entries => entries.isEmpty
  | _ => false

/-- The name of a variant without contents: a string, or a table whose only key is the name and has
an empty container as its value. -/
def variant? : Toml → Option String
  | string name => some name
  | table [(name, content)] => if content.isEmptyContainer then some name else none
  | _ => none

/-- A field of a record: its name, and how its value is stored. -/
structure FieldDecoder (σ : Type) where
  name : String
  store : σ → Toml → Option σ

/-- The fields of a record in order. -/
abbrev RecordDecoder (σ : Type) := List (FieldDecoder σ)

namespace RecordDecoder

variable {σ : Type}

/-- Stores the entries of a table. -/
def ofEntries (d : RecordDecoder σ) : σ → List (String × Toml) → Option σ
  | record, [] => some record
  | record, (key, value) :: rest =>
    match d.find? (·.name == key) with
    | some f => (f.store record value).bind (ofEntries d · rest)
    | none => if value.passable then ofEntries d record rest else none

/-- Stores the items of an array, as far as there are fields. -/
def ofItems : RecordDecoder σ → σ → List Toml → Option σ
  | f :: fields, record, value :: rest => (f.store record value).bind (ofItems fields · rest)
  | _, record, _ => some record

/-- Decodes a record that starts as `initial`. -/
def decode (d : RecordDecoder σ) (initial : σ) : Toml → Option σ
  | table entries => ofEntries d initial entries
  | array items => ofItems d initial items
  | _ => none

end RecordDecoder

end CaretLayout.Toml
