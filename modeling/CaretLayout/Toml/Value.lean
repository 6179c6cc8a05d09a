/-!
# TOML values

A TOML document as a tree.  Numbers that nobody asks for are kept only as far as they decide whether
the document can be used: an integer with its value, a floating point number with the question
whether its magnitude is within range.  Dates and times are checked when they are read and then all
alike.
-/

namespace CaretLayout

/-- A TOML value. -/
inductive Toml where
  | string (s : String)
  | integer (i : Int)
  | float (inRange : Bool)
  | boolean (b : Bool)
  | moment
  | array (items : List Toml)
  | table (entries : List (String × Toml))
deriving Repr

namespace Toml

/-- The value of a key of a table. -/
def entry? (key : String) : List (String × Toml) → Option Toml
  | [] => none
  | (k, v) :: rest => if k = key then some v else entry? key rest

/-- The greatest and least integers that can be taken at all. -/
def integerInRange (i : Int) : Bool :=
  -(Nat.pow 2 127 : Int) ≤ i && i < (Nat.pow 2 128 : Int)

mutual

/-- Whether a value that nobody asks for can be passed over: its numbers are within range. -/
def passable : Toml → Bool
  | string _ => true
  | integer i => integerInRange i
  | float inRange => inRange
  | boolean _ => true
  | moment => true
  | array items => allPassable items
  | table entries => entriesPassable entries

/-- Whether all items can be passed over. -/
def allPassable : List Toml → Bool
  | [] => true
  | v :: rest => v.passable && allPassable rest

/-- Whether all entries can be passed over. -/
def entriesPassable : List (String × Toml) → Bool
  | [] => true
  | (_, v) :: rest => v.passable && entriesPassable rest

end

end Toml

end CaretLayout
