/-!
# Waiting for quiet

A debouncer holds back the latest of a stream of items until the stream has been quiet for a given
interval.  Time is a number that its owner passes in; the debouncer has no clock.  Each item
replaces the one that is waiting and starts the interval again.
-/

namespace CaretLayout

/-- An item that waits for its deadline. -/
structure Waiting (α : Type) where
  item : α
  deadline : Nat
deriving DecidableEq, Repr

/-- Holds back the latest item of a stream. -/
structure Debouncer (α : Type) where
  /-- How long the stream must be quiet. -/
  quiet : Nat
  /-- The item that is held back. -/
  waiting : Option (Waiting α) := none
deriving DecidableEq, Repr

namespace Debouncer

variable {α : Type}

/-- Whether an item is held back. -/
def isPending (d : Debouncer α) : Bool :=
  d.waiting.isSome

/-- The item that is held back. -/
def pending (d : Debouncer α) : Option α :=
  d.waiting.map (·.item)

/-- When the item that is held back is due. -/
def deadline (d : Debouncer α) : Option Nat :=
  d.waiting.map (·.deadline)

/-- Holds back an item in place of any other and starts the interval again. -/
def schedule (d : Debouncer α) (now : Nat) (item : α) : Debouncer α :=
  { d with waiting := some ⟨item, now + d.quiet⟩ }

/-- Gives out the item when its deadline has come. -/
def poll (d : Debouncer α) (now : Nat) : Debouncer α × Option α :=
  match d.waiting with
  | some w => if w.deadline ≤ now then ({ d with waiting := none }, some w.item) else (d, none)
  | none => (d, none)

/-- Gives up the item, whatever its deadline. -/
def cancel (d : Debouncer α) : Debouncer α × Option α :=
  ({ d with waiting := none }, d.pending)

end Debouncer

end CaretLayout
