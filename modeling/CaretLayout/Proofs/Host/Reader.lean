import CaretLayout.Host.Stream
import CaretLayout.Proofs.Text.Segment

/-!
# What the reader of the host makes of a stream

The reader goes through the segments of the stream up to the first that asks for a shutdown
(`untilShutdown`).  A segment is malformed, blank or an event (`reading`), and no segment has a part
in what becomes of another.  While somebody receives its events and nobody tells it to stop, the
reader hands on the events of these segments in order and one end after them, and its counts are the
numbers of the segments of each sort (`run_account`).

`handleSegment_spec` is the step of one segment, `handleSegments_spec` the run over all of them, and
`run_eq` removes the chunks.
-/

namespace CaretLayout.HostStream

open Text (Segment segments lineFeed Buffer)

/-! ### The segments of a stream -/

/-- What a segment of the stream says. -/
inductive Reading where
  /-- It is not text, or neither blank nor an event. -/
  | malformed
  | blank
  | event (e : HostEvent)
deriving DecidableEq, Repr

/-- What a segment of the stream says. -/
def reading (s : Segment UInt8) : Reading :=
  match Text.Utf8.decode s.body with
  | .error _ => .malformed
  | .ok line =>
    match HostEvent.parseLine line with
    | .error _ => .malformed
    | .ok none => .blank
    | .ok (some e) => .event e

/-- Whether a segment asks for a shutdown. -/
def asksShutdown (s : Segment UInt8) : Bool :=
  reading s == .event .shutdown

/-- The event that is handed on for a segment, if any. -/
def forwarded? (s : Segment UInt8) : Option HostEvent :=
  match reading s with
  | .event .shutdown => none
  | .event e => some e
  | _ => none

/-- Whether an event is a cursor movement. -/
def isCursor : HostEvent → Bool
  | .cursor _ => true
  | _ => false

/-- The segments of a stream that are read: an unfinished one is lost if the stream fails. -/
def held (bytes : List UInt8) : Ending → List (Segment UInt8)
  | .closed => segments lineFeed bytes
  | .failed _ => (segments lineFeed bytes).filter (·.ended)

/-- The segments up to the first that asks for a shutdown, and with it. -/
def untilShutdown (l : List (Segment UInt8)) : List (Segment UInt8) :=
  l.take (l.findIdx asksShutdown + 1)

/-- Why a reader stops that comes to the end of the stream. -/
def Ending.reason : Ending → StopReason
  | .closed => .streamEnded
  | .failed _ => .streamError

/-- The segments of a stream that the reader goes through. -/
def taken (bytes : List UInt8) (ending : Ending) : List (Segment UInt8) :=
  untilShutdown (held bytes ending)

theorem untilShutdown_cons_of_asks {s : Segment UInt8} (h : asksShutdown s = true)
    (l : List (Segment UInt8)) : untilShutdown (s :: l) = [s] := by
  rw [untilShutdown, List.findIdx_cons, h]
  rfl

theorem untilShutdown_cons_of_not {s : Segment UInt8} (h : asksShutdown s = false)
    (l : List (Segment UInt8)) : untilShutdown (s :: l) = s :: untilShutdown l := by
  rw [untilShutdown, List.findIdx_cons, h]
  rfl

/-! ### One segment -/

/-- What is counted for a segment. -/
def Reading.count (c : Counts) : Reading → Counts
  | malformed => { c with lines := c.lines + 1, malformed := c.malformed + 1 }
  | blank => { c with lines := c.lines + 1 }
  | event (.cursor _) => { c with lines := c.lines + 1, cursors := c.cursors + 1 }
  | event _ => { c with lines := c.lines + 1 }

/-- What is handed on for a segment. -/
def Reading.events : Reading → List Event
  | event .shutdown => [.shutdown]
  | event e => [.host e]
  | _ => []

/-- The reader after a line that it has counted. -/
def Progress.countLine (p : Progress) : Progress :=
  { p with counts := { p.counts with lines := p.counts.lines + 1 } }

/-- What can become of a segment: it is counted and logged, or its event is handled. -/
theorem handleSegment_cases (p : Progress) (s : Segment UInt8) :
    (reading s = .malformed ∧
      ∃ log, handleSegment p s = { p.countLine.countMalformed with log := log }) ∨
    (reading s = .blank ∧ handleSegment p s = p.countLine) ∨
    ∃ e, reading s = .event e ∧ handleSegment p s = handleEvent p.countLine e := by
  unfold handleSegment reading
  rcases Text.Utf8.decode s.body with valid | line
  · exact Or.inl ⟨rfl, _, rfl⟩
  · dsimp only
    rcases HostEvent.parseLine line with fault | _ | e
    · exact Or.inl ⟨rfl, _, rfl⟩
    · exact Or.inr (Or.inl ⟨rfl, rfl⟩)
    · exact Or.inr (Or.inr ⟨e, rfl, rfl⟩)

/-- One segment, while somebody receives the events. -/
theorem handleSegment_spec {p : Progress} (hroom : p.room = none) (s : Segment UInt8) :
    (handleSegment p s).room = none ∧
    (handleSegment p s).events = p.events ++ (reading s).events ∧
    (handleSegment p s).counts = (reading s).count p.counts ∧
    (handleSegment p s).stopped =
      if asksShutdown s then some .shutdownRequested else p.stopped := by
  unfold asksShutdown
  rcases handleSegment_cases p s with ⟨hr, log, hs⟩ | ⟨hr, hs⟩ | ⟨e, hr, hs⟩
  · rw [hr, hs]
    exact ⟨hroom, (List.append_nil _).symm, rfl, rfl⟩
  · rw [hr, hs]
    exact ⟨hroom, (List.append_nil _).symm, rfl, rfl⟩
  · rw [hr, hs]
    cases e <;>
      simp [handleEvent, Progress.send, Progress.push, Progress.note, Progress.countLine,
        Reading.events, Reading.count, hroom]

/-! ### All segments -/

/-- What is counted for segments. -/
def tally (c : Counts) (l : List (Segment UInt8)) : Counts :=
  { c with
    lines := c.lines + l.length
    malformed := c.malformed + l.countP (reading · == .malformed)
    cursors := c.cursors + (l.filterMap forwarded?).countP isCursor }

theorem tally_cons (c : Counts) (s : Segment UInt8) (l : List (Segment UInt8)) :
    tally c (s :: l) = tally ((reading s).count c) l := by
  unfold tally
  rw [List.length_cons, List.countP_cons, List.filterMap_cons, forwarded?]
  rcases reading s with _ | _ | e
  · simp [Reading.count, Nat.add_assoc, Nat.add_comm 1]
  · simp [Reading.count, Nat.add_assoc, Nat.add_comm 1]
  · cases e <;>
      simp [Reading.count, List.countP_cons, isCursor, Nat.add_assoc, Nat.add_comm 1]

theorem handleSegments_of_stopped {p : Progress} (h : p.stopped.isSome = true) :
    ∀ l : List (Segment UInt8), handleSegments p l = p
  | [] => rfl
  | s :: l => by rw [handleSegments, if_pos h]

theorem handleSegments_append : ∀ (l l' : List (Segment UInt8)) (p : Progress),
    handleSegments p (l ++ l') = handleSegments (handleSegments p l) l'
  | [], l', p => rfl
  | s :: l, l', p => by
    rw [List.cons_append, handleSegments, handleSegments]
    split
    · next h => exact (handleSegments_of_stopped h l').symm
    · exact handleSegments_append l l' _

/-- The segments up to the first that asks for a shutdown, while somebody receives the events. -/
theorem handleSegments_spec : ∀ (l : List (Segment UInt8)) {p : Progress}, p.room = none →
    p.stopped = none →
    (handleSegments p l).room = none ∧
    (handleSegments p l).events =
      p.events ++ (untilShutdown l).flatMap (fun s => (reading s).events) ∧
    (handleSegments p l).counts = tally p.counts (untilShutdown l) ∧
    (handleSegments p l).stopped = if l.any asksShutdown then some .shutdownRequested else none
  | [], p, hroom, hgo => ⟨hroom, (List.append_nil _).symm, rfl, hgo⟩
  | s :: l, p, hroom, hgo => by
    obtain ⟨hroom', hevents, hcounts, hstopped⟩ := handleSegment_spec hroom s
    have hstep : handleSegments p (s :: l) = handleSegments (handleSegment p s) l := by
      rw [handleSegments, hgo]
      rfl
    rw [hstep]
    rcases hask : asksShutdown s with _ | _
    · rw [hask, hgo] at hstopped
      obtain ⟨ihroom, ihevents, ihcounts, ihstopped⟩ := handleSegments_spec l hroom' hstopped
      rw [untilShutdown_cons_of_not hask, List.flatMap_cons, List.any_cons, hask, tally_cons]
      refine ⟨ihroom, ?_, ?_, ihstopped⟩
      · rw [ihevents, hevents, List.append_assoc]
      · rw [ihcounts, hcounts]
    · rw [hask] at hstopped
      have hrest : handleSegments (handleSegment p s) l = handleSegment p s :=
        handleSegments_of_stopped (by rw [hstopped]; rfl) l
      rw [hrest, untilShutdown_cons_of_asks hask, tally_cons, List.any_cons, hask]
      refine ⟨hroom', ?_, hcounts, hstopped⟩
      rw [hevents, List.flatMap_singleton]

/-- What is handed on for segments, with the end that a shutdown brings. -/
theorem flatMap_events_untilShutdown : ∀ l : List (Segment UInt8),
    ((untilShutdown l).flatMap fun s => (reading s).events) =
      ((untilShutdown l).filterMap forwarded?).map Event.host ++
        if l.any asksShutdown then [.shutdown] else []
  | [] => rfl
  | s :: l => by
    rcases hask : asksShutdown s with _ | _
    · rw [untilShutdown_cons_of_not hask, List.flatMap_cons, flatMap_events_untilShutdown l,
        List.any_cons, hask, Bool.false_or, ← List.append_assoc, List.filterMap_cons]
      congr 1
      unfold asksShutdown at hask
      unfold forwarded?
      rcases hr : reading s with _ | _ | e
      · rfl
      · rfl
      · cases e with
        | shutdown => simp [hr] at hask
        | _ => rfl
    · have hr : reading s = .event .shutdown := eq_of_beq hask
      rw [untilShutdown_cons_of_asks hask, List.any_cons, hask, List.flatMap_singleton, hr,
        List.filterMap_cons, forwarded?, hr]
      rfl

/-- Every segment that is read is of one sort. -/
theorem length_untilShutdown : ∀ l : List (Segment UInt8),
    (untilShutdown l).length =
      (untilShutdown l).countP (reading · == .malformed) +
        (untilShutdown l).countP (reading · == .blank) +
        ((untilShutdown l).filterMap forwarded?).length + if l.any asksShutdown then 1 else 0
  | [] => rfl
  | s :: l => by
    rcases hask : asksShutdown s with _ | _
    · have ih := length_untilShutdown l
      rw [untilShutdown_cons_of_not hask, List.any_cons, hask, Bool.false_or, List.length_cons,
        List.countP_cons, List.countP_cons, List.filterMap_cons, forwarded?]
      unfold asksShutdown at hask
      generalize (if l.any asksShutdown = true then 1 else 0) = last at ih ⊢
      rcases hr : reading s with _ | _ | e
      · simp; omega
      · simp; omega
      · cases e with
        | shutdown => simp [hr] at hask
        | _ => simp; omega
    · have hr : reading s = .event .shutdown := eq_of_beq hask
      rw [untilShutdown_cons_of_asks hask, List.any_cons, hask, List.countP_singleton,
        List.countP_singleton, List.filterMap_cons, forwarded?, hr]
      rfl

/-! ### The whole stream -/

@[simp] theorem lines_countStop (c : Counts) (reason : StopReason) :
    (countStop c reason).lines = c.lines := by
  cases reason <;> rfl

@[simp] theorem malformed_countStop (c : Counts) (reason : StopReason) :
    (countStop c reason).malformed = c.malformed := by
  cases reason <;> rfl

/-- The reader goes through the segments of the stream, however it is divided. -/
theorem run_eq (room : Option Nat) (signalled : Bool) (chunks : List (List UInt8))
    (ending : Ending) :
    run room signalled chunks ending =
      finish (handleSegments (start room signalled) (held chunks.flatten ending)) ending := by
  show finish (handleRest (handleSegments _ (Buffer.feedAll {} chunks).2)
    (Buffer.feedAll {} chunks).1 ending) ending = _
  rw [Buffer.feedAll_eq_feed]
  cases ending with
  | closed =>
    have hall := Buffer.feed_append_rest chunks.flatten (b := {}) List.not_mem_nil
    rw [List.reverse_nil, List.nil_append] at hall
    rw [handleRest, ← handleSegments_append, hall]
    rfl
  | failed =>
    rw [handleRest, Buffer.feed_snd_eq_filter]
    rfl

theorem finish_of_requested {p : Progress} (h : p.stopped = some .shutdownRequested)
    (ending : Ending) :
    (finish p ending).stopped = some .shutdownRequested ∧ (finish p ending).events = p.events ∧
      (finish p ending).counts = { p.counts with stopEnd := p.counts.stopEnd + 1 } := by
  simp [finish, h, countStop, Progress.note]

/-- At the end of the stream the reader hands over the end, while somebody receives it. -/
theorem finish_of_going {p : Progress} (hroom : p.room = none) (h : p.stopped = none)
    (ending : Ending) :
    (finish p ending).stopped = some ending.reason ∧
      (finish p ending).events = p.events ++ [.shutdown] ∧
      (finish p ending).counts = countStop p.counts ending.reason := by
  cases ending <;>
    simp [finish, h, hroom, countStop, Ending.reason, Progress.note, Progress.push]

/-- The account that a reader gives of a stream of bytes when it has stopped. -/
structure Account (bytes : List UInt8) (ending : Ending) (p : Progress) : Prop where
  /-- It stops at the first shutdown, or else at the end of the stream. -/
  stopped : p.stopped = some
    (if (held bytes ending).any asksShutdown then .shutdownRequested else ending.reason)
  /-- The events of the segments are handed on in order, and one end after them. -/
  events : p.events = ((taken bytes ending).filterMap forwarded?).map .host ++ [.shutdown]
  /-- A shutdown is handed on as the end of the stream only. -/
  noShutdown : .host .shutdown ∉ p.events
  /-- Each count is a number of segments; one reason for stopping is counted, and nothing else. -/
  counts : p.counts = {
    starts := 1
    lines := (taken bytes ending).length
    malformed := (taken bytes ending).countP (reading · == .malformed)
    cursors := ((taken bytes ending).filterMap forwarded?).countP isCursor
    stopEnd := if p.stopped = some .streamError then 0 else 1
    stopError := if p.stopped = some .streamError then 1 else 0 }
  /-- Every line is malformed, blank, handed on, or the shutdown that stopped the reader. -/
  balance : p.counts.lines = p.counts.malformed + (taken bytes ending).countP (reading · == .blank) +
    ((taken bytes ending).filterMap forwarded?).length +
      if p.stopped = some .shutdownRequested then 1 else 0

theorem forwarded?_eq_some_iff {s : Segment UInt8} {e : HostEvent} :
    forwarded? s = some e ↔ reading s = .event e ∧ e ≠ .shutdown := by
  unfold forwarded?
  rcases reading s with _ | _ | e'
  · simp
  · simp
  · cases e' <;> cases e <;> simp

theorem shutdown_notMem_filterMap (l : List (Segment UInt8)) :
    HostEvent.shutdown ∉ l.filterMap forwarded? := by
  intro h
  obtain ⟨s, -, hs⟩ := List.mem_filterMap.mp h
  exact (forwarded?_eq_some_iff.mp hs).2 rfl

/-- The reader at the end of its work: how it stopped, and what it has handed on and counted. -/
theorem finish_handleSegments (l : List (Segment UInt8)) (ending : Ending) :
    (finish (handleSegments (start none false) l) ending).stopped =
        some (if l.any asksShutdown then .shutdownRequested else ending.reason) ∧
      (finish (handleSegments (start none false) l) ending).events =
        ((untilShutdown l).filterMap forwarded?).map .host ++ [.shutdown] ∧
      (finish (handleSegments (start none false) l) ending).counts =
        countStop (tally { starts := 1 } (untilShutdown l))
          (if l.any asksShutdown then .shutdownRequested else ending.reason) := by
  obtain ⟨hroom, hevents, hcounts, hstopped⟩ :=
    handleSegments_spec l (p := start none false) rfl rfl
  rw [flatMap_events_untilShutdown] at hevents
  rcases hask : l.any asksShutdown with _ | _
  · rw [hask] at hevents hstopped
    obtain ⟨hs, he, hc⟩ := finish_of_going hroom hstopped ending
    refine ⟨hs, ?_, ?_⟩
    · rw [he, hevents]
      simp [start, Progress.note]
    · rw [hc, hcounts]
      rfl
  · rw [hask] at hevents hstopped
    obtain ⟨hs, he, hc⟩ := finish_of_requested hstopped ending
    refine ⟨hs, ?_, ?_⟩
    · rw [he, hevents]
      simp [start, Progress.note]
    · rw [hc, hcounts]
      rfl

/-- **The reader over a stream** that arrives in any chunks, while somebody receives its events and
nobody tells it to stop. -/
theorem run_account (chunks : List (List UInt8)) (ending : Ending) :
    Account chunks.flatten ending (run none false chunks ending) := by
  obtain ⟨hstopped, hevents, hcounts⟩ :=
    finish_handleSegments (held chunks.flatten ending) ending
  have hlength := length_untilShutdown (held chunks.flatten ending)
  rw [run_eq]
  have hasked : (finish (handleSegments (start none false) (held chunks.flatten ending))
      ending).stopped = some .shutdownRequested ↔
        (held chunks.flatten ending).any asksShutdown = true := by
    rw [hstopped]
    rcases (held chunks.flatten ending).any asksShutdown with _ | _
    · cases ending <;> simp [Ending.reason]
    · simp
  refine ⟨hstopped, hevents, ?_, ?_, ?_⟩
  · rw [hevents, List.mem_append, List.mem_map]
    rintro (⟨e, he, hs⟩ | hs)
    · cases hs
      exact shutdown_notMem_filterMap _ he
    · simp at hs
  · rw [hcounts, hstopped]
    rcases (held chunks.flatten ending).any asksShutdown with _ | _
    · cases ending <;> simp [countStop, tally, Ending.reason, taken]
    · simp [countStop, tally, taken]
  · simp only [hasked, hcounts, lines_countStop, malformed_countStop, tally, Nat.zero_add]
    exact hlength

/-- A blank line, one that is no event, a cursor and a shutdown, in two reads; what follows the
shutdown is not read. -/
example :
    let text := " \t\r\n\x7b\"type\":\"toggle\"\n" ++
      "\x7b\"type\":\"cursor\",\"language_id\":\"c\",\"line\":3,\"column\":0\x7d\n" ++
      "\x7b\"type\":\"shutdown\"\x7d\n\x7b\"type\":\"toggle\"\x7d"
    let bytes := Text.Utf8.encode text.toList
    let p := run none false [bytes.take 30, bytes.drop 30] .closed
    p.events = [.host (.cursor ⟨"", "c", 3, 0, [], 0, none⟩), .shutdown] ∧
    p.counts = { starts := 1, lines := 4, malformed := 1, cursors := 1, stopEnd := 1 } := by
  decide +kernel

end CaretLayout.HostStream
