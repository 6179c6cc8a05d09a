import CaretLayout.Json.Reader
import CaretLayout.Log
import CaretLayout.Text.Space

/-!
# Delivery to subscribers

Whatever the agent prints is handed to every subscriber in the order of their registration.  A
subscriber may register further ones while it is called; these hear of later values only, since a
delivery goes to those who were registered when it began.

How subscribers behave is a parameter: `react s ν v` is what happens when subscriber `ν` is called
with `v` in the ambient state `s`, namely a new state and the subscribers it registers.
-/

namespace CaretLayout

/-- The subscribers in the order of registration, and what has been counted. -/
structure Router (ν : Type) where
  subscribers : List ν := []
  delivered : Nat := 0
  malformed : Nat := 0
deriving DecidableEq, Repr

/-- What a subscriber does when it is called: a new ambient state, and new subscribers. -/
abbrev Reaction (σ ν : Type) := σ → ν → Json → σ × List ν

namespace Router

variable {σ ν : Type}

/-- Registers a subscriber after all others. -/
def subscribe (r : Router ν) (subscriber : ν) : Router ν :=
  { r with subscribers := r.subscribers ++ [subscriber] }

/-- Calls subscribers one after another, registering those that they bring. -/
def callAll (react : Reaction σ ν) (value : Json) : List ν → σ → Router ν → σ × Router ν
  | [], s, r => (s, r)
  | subscriber :: more, s, r =>
    let (s, added) := react s subscriber value
    callAll react value more s (added.foldl subscribe r)

/-- Hands a value to everyone who is registered now. -/
def deliver (react : Reaction σ ν) (s : σ) (r : Router ν) (value : Json) : σ × Router ν :=
  let (s, r) := callAll react value r.subscribers s r
  (s, { r with delivered := r.delivered + 1 })

/-- What a line that is not JSON is logged as. -/
def droppedRecord (line : List Char) : Log.Record where
  level := .trace
  topic := "sidecar.protocol"
  event := "non_json_line_dropped"
  fields := [("len", .count (Text.Utf8.byteLength line)), ("err", .complaint line)]

/-- What became of a line. -/
structure LineOutcome (σ ν : Type) where
  state : σ
  router : Router ν
  /-- Whether the line was delivered. -/
  accepted : Bool
  log : List Log.Record := []

/-- Delivers the value of a line.  A blank line is ignored, and a line that is not JSON is
counted. -/
def route (react : Reaction σ ν) (s : σ) (r : Router ν) (line : List Char) : LineOutcome σ ν :=
  match Text.trim line with
  | [] => { state := s, router := r, accepted := false }
  | text =>
    match Json.read text with
    | .ok value =>
      let (s, r) := deliver react s r value
      { state := s, router := r, accepted := true }
    | .error _ =>
      { state := s, router := { r with malformed := r.malformed + 1 }, accepted := false
        log := [droppedRecord text] }

end Router

end CaretLayout
