import CaretLayout.Decimal.Binary64

/-!
# JSON values

A JSON text as a tree.  A number is an integer when it is written without fraction and exponent and
fits into 64 bits, signed or unsigned; any other number is a binary floating point number.  The
members of an object stand in the order of the text, with repetitions; `canonical` keeps the last
member of each name and sorts by name, which is how a value counts that is passed on as a whole.
-/

namespace CaretLayout

/-- A JSON value. -/
inductive Json where
  | null
  | bool (b : Bool)
  | int (i : Int)
  | float (x : Binary64)
  | string (s : String)
  | array (items : List Json)
  | object (members : List (String × Json))
deriving Repr

namespace Json

/-! ### Equality -/

mutual

/-- Whether two values are equal. -/
def beq : Json → Json → Bool
  | null, null => true
  | bool a, bool b => a == b
  | int a, int b => a == b
  | float a, float b => decide (a = b)
  | string a, string b => a == b
  | array a, array b => beqItems a b
  | object a, object b => beqMembers a b
  | _, _ => false

/-- Whether two lists of values are equal. -/
def beqItems : List Json → List Json → Bool
  | [], [] => true
  | a :: as, b :: bs => beq a b && beqItems as bs
  | _, _ => false

/-- Whether two lists of members are equal. -/
def beqMembers : List (String × Json) → List (String × Json) → Bool
  | [], [] => true
  | (k, a) :: as, (l, b) :: bs => k == l && beq a b && beqMembers as bs
  | _, _ => false

end

mutual

theorem beq_iff (a b : Json) : beq a b = true ↔ a = b := by
  cases a <;> cases b <;> simp [beq, beqItems_iff, beqMembers_iff]

theorem beqItems_iff (a b : List Json) : beqItems a b = true ↔ a = b := by
  cases a with
  | nil => cases b <;> simp [beqItems]
  | cons x xs =>
    cases b with
    | nil => simp [beqItems]
    | cons y ys => simp [beqItems, beq_iff x y, beqItems_iff xs ys]

theorem beqMembers_iff (a b : List (String × Json)) : beqMembers a b = true ↔ a = b := by
  cases a with
  | nil => cases b <;> simp [beqMembers]
  | cons x xs =>
    obtain ⟨k, v⟩ := x
    cases b with
    | nil => simp [beqMembers]
    | cons y ys =>
      obtain ⟨l, w⟩ := y
      simp [beqMembers, beq_iff v w, beqMembers_iff xs ys, and_assoc]

end

instance : DecidableEq Json := fun a b => decidable_of_iff _ (beq_iff a b)

/-! ### Order of members -/

/-- The value of the last member of a name. -/
def lastMember? (name : String) : List (String × Json) → Option Json
  | [] => none
  | (k, v) :: rest =>
    match lastMember? name rest with
    | some w => some w
    | none => if k = name then some v else none

/-- Puts a member into a list sorted by name; a later member of the same name is kept. -/
def insertMember (member : String × Json) : List (String × Json) → List (String × Json)
  | [] => [member]
  | other :: rest =>
    if member.1 < other.1 then member :: other :: rest
    else if member.1 = other.1 then other :: rest
    else other :: insertMember member rest

mutual

/-- The value with the members of every object sorted by name, the last one of each name kept. -/
def canonical : Json → Json
  | array items => array (canonicalItems items)
  | object members => object (canonicalMembers members)
  | v => v

/-- The values in canonical form. -/
def canonicalItems : List Json → List Json
  | [] => []
  | v :: rest => canonical v :: canonicalItems rest

/-- The members sorted by name, with values in canonical form. -/
def canonicalMembers : List (String × Json) → List (String × Json)
  | [] => []
  | (k, v) :: rest => insertMember (k, canonical v) (canonicalMembers rest)

end

/-! ### Views -/

/-- The value of a member of an object. -/
def member? (name : String) : Json → Option Json
  | object members => lastMember? name members
  | _ => none

/-- The text of a string. -/
def string? : Json → Option String
  | string s => some s
  | _ => none

/-- The items of an array. -/
def array? : Json → Option (List Json)
  | array items => some items
  | _ => none

/-- Whether the value is an object. -/
def isObject : Json → Bool
  | object _ => true
  | _ => false

end Json

end CaretLayout
