/-!
# Occurrences of a marker in a text

A text and a marker are lists over any alphabet, so that one set of definitions serves the
characters of a line and the bytes of its encoding.  A marker that occurs is met in three ways:

* `contains`: somewhere in the text;
* `occurrences`: how often, counted from the left without overlap;
* `lastIndex?`: the offset at which its last occurrence starts.

All three are structural recursions on the text.  The markers that the classifier searches for are
never empty; for the empty marker the definitions are total and their values have no meaning.
-/

namespace CaretLayout.Text

variable {α : Type} [BEq α]

/-- Whether `marker` occurs somewhere in the text. -/
def contains (marker : List α) : List α → Bool
  | [] => marker.isEmpty
  | c :: rest => marker.isPrefixOf (c :: rest) || contains marker rest

/-- Occurrences of `marker` in what is left of a text, of which the first `covered` positions
belong to an occurrence that has been counted. -/
def occurrencesFrom (marker : List α) : Nat → List α → Nat
  | _, [] => 0
  | covered + 1, _ :: rest => occurrencesFrom marker covered rest
  | 0, c :: rest =>
    if marker.isPrefixOf (c :: rest) then 1 + occurrencesFrom marker (marker.length - 1) rest
    else occurrencesFrom marker 0 rest

/-- The number of occurrences of `marker`, each taken as far left as possible and none
overlapping another. -/
def occurrences (marker text : List α) : Nat :=
  occurrencesFrom marker 0 text

/-- The offset at which the last occurrence of `marker` starts. -/
def lastIndex? (marker : List α) : List α → Option Nat
  | [] => none
  | c :: rest =>
    match lastIndex? marker rest with
    | some i => some (i + 1)
    | none => if marker.isPrefixOf (c :: rest) then some 0 else none

/-- Whether the first offset lies after the second, where an absent one lies before every
offset. -/
def isAfter : Option Nat → Option Nat → Bool
  | some i, some j => decide (j < i)
  | some _, none => true
  | none, _ => false

@[simp] theorem occurrencesFrom_nil (marker : List α) (covered : Nat) :
    occurrencesFrom marker covered [] = 0 := by
  cases covered <;> rfl

@[simp] theorem isAfter_none_left (j : Option Nat) : isAfter none j = false := by
  cases j <;> rfl

@[simp] theorem isAfter_none_right (i : Nat) : isAfter (some i) none = true := rfl

@[simp] theorem isAfter_some (i j : Nat) : isAfter (some i) (some j) = decide (j < i) := rfl

end CaretLayout.Text
