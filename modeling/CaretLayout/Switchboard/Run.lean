import CaretLayout.Switchboard.Basic

/-!
# Runs of the switchboard

A run is a list of timed steps: an event that is handled, or a visit of the sessions in some order
that dispatches the cursors that are due.  A run gives the last switchboard and the effects of each
step.
-/

namespace CaretLayout.Switchboard

/-- A timed step. -/
inductive Step where
  /-- An event is handled. -/
  | event (now : Nat) (e : Event)
  /-- The cursors that are due are dispatched, session by session in this order. -/
  | flush (now : Nat) (order : List String)
deriving DecidableEq, Repr

/-- When a step is taken. -/
def Step.time : Step → Nat
  | event now _ => now
  | flush now _ => now

/-- Takes a step. -/
def step (s : Settings) (b : Switchboard) : Step → Switchboard × List Effect
  | .event now e => b.handle s now e
  | .flush now order => b.flushIn s now order

/-- Takes steps in order, with the effects of each. -/
def run (s : Settings) : Switchboard → List Step → Switchboard × List (List Effect)
  | b, [] => (b, [])
  | b, next :: more =>
    let (b, effects) := b.step s next
    let (b, others) := run s b more
    (b, effects :: others)

end CaretLayout.Switchboard
