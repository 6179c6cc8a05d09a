/-!
# Finite maps by key

A finite map from strings is an association list in the order of first insertion.  The view of a
map is `find?`; one lemma says what each operation does to it.
-/

namespace CaretLayout

/-- A finite map from strings, as the list of its entries. -/
structure Keyed (β : Type) where
  entries : List (String × β) := []
deriving Repr, DecidableEq

namespace Keyed

variable {β γ : Type}

/-- The value stored under a key in a list of entries. -/
def findIn (key : String) : List (String × β) → Option β
  | [] => none
  | (k, v) :: rest => if k = key then some v else findIn key rest

/-- Replaces the value of a key in place, or adds the key at the end. -/
def insertIn (key : String) (value : β) : List (String × β) → List (String × β)
  | [] => [(key, value)]
  | (k, v) :: rest => if k = key then (k, value) :: rest else (k, v) :: insertIn key value rest

/-- The value stored under a key. -/
def find? (m : Keyed β) (key : String) : Option β :=
  findIn key m.entries

/-- Whether a key is present. -/
def contains (m : Keyed β) (key : String) : Bool :=
  (m.find? key).isSome

/-- Stores a value under a key, in place of any earlier one. -/
def insert (m : Keyed β) (key : String) (value : β) : Keyed β :=
  ⟨insertIn key value m.entries⟩

/-- Removes a key. -/
def erase (m : Keyed β) (key : String) : Keyed β :=
  ⟨m.entries.filter (fun e => !(e.1 == key))⟩

/-- Applies a function to every value. -/
def mapValues (f : β → γ) (m : Keyed β) : Keyed γ :=
  ⟨m.entries.map (fun e => (e.1, f e.2))⟩

/-- The keys, in the order of first insertion. -/
def keys (m : Keyed β) : List String :=
  m.entries.map (·.1)

/-- The values, in the order of their keys. -/
def values (m : Keyed β) : List β :=
  m.entries.map (·.2)

/-- The number of keys. -/
def size (m : Keyed β) : Nat :=
  m.entries.length

theorem findIn_insertIn (key other : String) (value : β) (l : List (String × β)) :
    findIn other (insertIn key value l) = if key = other then some value else findIn other l := by
  induction l with
  | nil => simp [insertIn, findIn]
  | cons e rest ih =>
    obtain ⟨k, v⟩ := e
    by_cases hk : k = key
    · subst hk
      by_cases ho : k = other <;> simp [insertIn, findIn, ho]
    · by_cases ho : k = other
      · subst ho
        simp [insertIn, findIn, hk, Ne.symm hk]
      · simp [insertIn, findIn, hk, ho, ih]

/-- After an insertion the key has the new value and every other key its old one. -/
theorem find?_insert (m : Keyed β) (key other : String) (value : β) :
    (m.insert key value).find? other = if key = other then some value else m.find? other :=
  findIn_insertIn key other value m.entries

/-- After a removal the key is absent and every other key has its old value. -/
theorem find?_erase (m : Keyed β) (key other : String) :
    (m.erase key).find? other = if key = other then none else m.find? other := by
  obtain ⟨l⟩ := m
  simp only [erase, find?]
  induction l with
  | nil => simp [findIn]
  | cons e rest ih =>
    obtain ⟨k, v⟩ := e
    by_cases hk : k = key
    · subst hk
      by_cases ho : k = other <;> simp_all [findIn]
    · by_cases ho : k = other
      · subst ho
        simp [findIn, hk, Ne.symm hk]
      · simp_all [findIn]

/-- Mapping the values maps each value found. -/
theorem find?_mapValues (f : β → γ) (m : Keyed β) (key : String) :
    (m.mapValues f).find? key = (m.find? key).map f := by
  obtain ⟨l⟩ := m
  simp only [mapValues, find?]
  induction l with
  | nil => rfl
  | cons e rest ih =>
    obtain ⟨k, v⟩ := e
    by_cases hk : k = key <;> simp_all [findIn]

end Keyed

end CaretLayout
