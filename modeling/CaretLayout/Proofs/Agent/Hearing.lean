import CaretLayout.Agent.Live
import CaretLayout.Proofs.Agent.Framing
import CaretLayout.Proofs.Agent.Lifecycle

/-!
# What is heard of an agent

The lines that are heard of an agent have times, but their texts are the lines of the whole stream
(`map_textOf_linesRead`).  What is heard next is the earliest of the next line, the next line of the
error output and the end (`next_nextOf?`), and whatever is heard, the rest is still there to be heard
(`Listening.after`): lines that are read late are not lost by the end.
-/

namespace CaretLayout

/-! ### Lines with their times -/

namespace Trace

/-- The bytes that are printed on a stream, without their times. -/
def printedOn (t : Trace) (stream : OutputStream) : List UInt8 :=
  (t.bytesOn stream).map (·.byte)

/-- The lines are the segments of the bytes. -/
theorem bytes_of_cutLines {e : Nat} : ∀ (bytes : List InputByte) {line : List UInt8},
    Text.lineFeed ∉ line → (cutLines (some e) line bytes).map (·.bytes) =
      (Text.segments Text.lineFeed (line.reverse ++ bytes.map (·.byte))).map (·.body)
  | [], [], _ => rfl
  | [], c :: line, h => by
    have hne : (c :: line).reverse ≠ [] := by simp
    rw [List.map_nil, List.append_nil,
      Text.segments_of_not_mem (fun hm => h (List.mem_reverse.mp hm)) hne]
    rfl
  | b :: bytes, line, h => by
    rw [cutLines, List.map_cons]
    split
    · next hb =>
      have hb : b.byte = Text.lineFeed := hb
      rw [hb, Text.segments_append_cons fun hm => h (List.mem_reverse.mp hm), List.map_cons,
        List.map_cons, bytes_of_cutLines bytes List.not_mem_nil]
      rfl
    · next hb =>
      have hline : Text.lineFeed ∉ b.byte :: line := by
        rw [List.mem_cons, not_or]
        exact ⟨fun h' => hb h'.symm, h⟩
      rw [bytes_of_cutLines bytes hline, List.reverse_cons, List.append_assoc, List.singleton_append]

theorem bytes_linesRead (t : Trace) (stream : OutputStream) (lag : Nat → Nat) :
    (t.linesRead stream lag).map (·.bytes) = (t.linesOn stream).map (·.bytes) := by
  refine List.ext_getElem? fun n => ?_
  rw [linesRead, List.getElem?_map, List.getElem?_mapIdx, List.getElem?_map, Option.map_map]
  rfl

end Trace

/-! ### What is heard -/

/-- Every kill was reported, and the writer of the present process has nothing left to write. -/
structure Supervisor.Settled (s : Supervisor) : Prop where
  reported : ∀ c ∈ s.children, c.killed = true → c.reported = true
  written : ∀ c, s.child? s.slot.generation = some c → c.taken = c.accepted.length

namespace Supervisor

variable {s s' : Supervisor} {generation : Nat} {c c' : AgentChild}

/-- A process may end and be reported. -/
theorem Settled.setChild (h : s.Settled) (hc : s.child? generation = some c)
    (hkilled : c'.killed = c.killed) (hreported : c.reported = true → c'.reported = true)
    (haccepted : c'.accepted = c.accepted) (htaken : c'.taken = c.taken) :
    (s.setChild generation c').Settled where
  reported := by
    intro d hd hk
    rcases List.mem_or_eq_of_mem_set hd with hd | rfl
    · exact h.reported d hd hk
    · have hmem : c ∈ s.children := List.mem_of_getElem? (child?_eq_some_iff.mp hc).2
      exact hreported (h.reported c hmem (hkilled ▸ hk))
  written := by
    intro d hd
    rw [child?_setChild hc] at hd
    split at hd
    · next heq =>
      cases hd
      rw [haccepted, htaken]
      exact h.written c (heq ▸ hc)
    · exact h.written d hd

theorem Settled.childEnds {code : Option Int} (h : s.Settled)
    (hstep : s.step? (.childEnds generation code) = some s') : s'.Settled := by
  obtain ⟨c, hc, -, rfl⟩ := childEnds_eq_some hstep
  exact h.setChild hc rfl id rfl rfl

theorem Settled.watcherReports (h : s.Settled)
    (hstep : s.step? (.watcherReports generation) = some s') : s'.Settled := by
  obtain ⟨c, code, hc, -, rfl⟩ := watcherReports_eq_some hstep
  have hset : (s.setChild generation { c with reported := true }).Settled :=
    h.setChild hc rfl (fun _ => rfl) rfl rfl
  unfold report
  dsimp only
  split_ifs
  · exact ⟨hset.reported, hset.written⟩
  · exact ⟨hset.reported, hset.written⟩

end Supervisor

namespace LiveAgent

/-- The text of a line that is heard. -/
def textOf (l : Trace.TimedLine) : List Char :=
  AgentOutput.lineOf ⟨l.bytes, true⟩

/-- The agent runs or has ended by itself, what its process does is a given trace, and its writer has
nothing left to write. -/
structure Listening (t : Trace) (a : LiveAgent) : Prop where
  trace : a.trace? = some t
  audible : (a.supervisor.slot.state.isRunning || a.heardEnd) = true
  settled : a.supervisor.Settled

/-- The lines of the output that were not heard, with the times at which they are read. -/
def linesLeft (t : Trace) (a : LiveAgent) : List Trace.TimedLine :=
  (a.outputLines t).drop a.heardLines

/-- The lines of the error output that were not heard. -/
def errorsLeft (t : Trace) (a : LiveAgent) : List Trace.TimedLine :=
  (a.errorLines t).drop a.heardErrors

/-- When the end is noticed, and the exit code, unless the end was heard. -/
def endLeft (t : Trace) (a : LiveAgent) : Option (Nat × Option Int) :=
  if a.heardEnd then none else t.ending.map fun e => (e.1 + a.lags.ending, e.2)

/-- When the end of a process that ends at a time is noticed. -/
def noticedAt (a : LiveAgent) (time : Nat) : Nat :=
  max a.now (time + a.lags.ending)

/-- The texts of the lines are the lines of the stream, however it is divided into reads. -/
theorem map_textOf_linesRead {t : Trace} {stream : OutputStream} {ending : Nat × Option Int}
    (hending : t.ending = some ending) {chunks : List (List UInt8)}
    (hchunks : chunks.flatten = t.printedOn stream) (lag : Nat → Nat) :
    (t.linesRead stream lag).map textOf = AgentOutput.lines chunks := by
  have hbytes : (t.linesOn stream).map (·.bytes) =
      (AgentOutput.segments chunks).map (·.body) := by
    rw [Trace.linesOn, hending, AgentOutput.segments_eq, hchunks]
    exact Trace.bytes_of_cutLines _ List.not_mem_nil
  calc (t.linesRead stream lag).map textOf
      = ((t.linesRead stream lag).map (·.bytes)).map fun bytes =>
          AgentOutput.lineOf ⟨bytes, true⟩ := by
        rw [List.map_map]
        rfl
    _ = AgentOutput.lines chunks := by
        rw [Trace.bytes_linesRead, hbytes, List.map_map]
        rfl

variable {t : Trace} {a : LiveAgent}

theorem killed?_eq_none (h : a.supervisor.Settled) : a.killed? = none := by
  rw [killed?, Option.map_eq_none_iff, List.findIdx?_eq_none_iff]
  intro c hc
  rcases hk : c.killed with _ | _
  · rfl
  · rw [h.reported c hc hk]
    rfl

theorem write_eq (h : a.supervisor.Settled) : a.write = a := by
  rw [write]
  split
  · rfl
  · next c hc =>
    have hrest : c.accepted.drop c.taken = [] := by
      rw [h.written c hc, List.drop_length]
    rw [hrest]
    dsimp only
    rw [List.foldl_nil, List.flatMap_nil, List.map_nil, List.append_nil]

theorem finish_settled (h : a.supervisor.Settled) (generation : Nat) (code : Option Int) :
    (a.finish generation code).supervisor.Settled := by
  have hended : (a.act (.childEnds generation code)).supervisor.Settled := by
    show ((a.supervisor.step? _).getD a.supervisor).Settled
    rcases hstep : a.supervisor.step? (.childEnds generation code) with _ | s'
    · exact h
    · exact h.childEnds hstep
  show (((a.act _).supervisor.step? _).getD (a.act _).supervisor).Settled
  rcases hstep : (a.act (.childEnds generation code)).supervisor.step?
    (.watcherReports generation) with _ | s'
  · exact hended
  · exact hended.watcherReports hstep

theorem after_now (time : Nat) (notice : Notice) : (a.after time notice).now = max a.now time := by
  cases notice <;> rfl

/-! ### What is heard next -/

/-- What can be heard next: of the next lines and the end the earliest one, in this order if they come at
the same time. -/
inductive Next (t : Trace) (a : LiveAgent) : Option (Nat × Notice) → Prop where
  | line {l : Trace.TimedLine} {more : List Trace.TimedLine} (left : linesLeft t a = l :: more)
      (ending : ∀ e ∈ endLeft t a, l.time ≤ e.1) : Next t a (some (l.time, .line (textOf l)))
  | errorLine {x : Trace.TimedLine} {more : List Trace.TimedLine}
      (left : errorsLeft t a = x :: more) (lines : ∀ l ∈ (linesLeft t a).head?, x.time < l.time)
      (ending : ∀ e ∈ endLeft t a, x.time ≤ e.1) :
      Next t a (some (x.time, .errorLine (textOf x)))
  | ended {e : Nat × Option Int} (left : endLeft t a = some e)
      (lines : ∀ l ∈ (linesLeft t a).head?, e.1 < l.time) : Next t a (some (e.1, .ended e.2))
  | silence (lines : linesLeft t a = []) (errors : errorsLeft t a = [])
      (ending : endLeft t a = none) : Next t a none

theorem sooner_of_le {m n : Nat × Notice} (h : m.1 ≤ n.1) : sooner (some m) (some n) = some m :=
  if_pos h

theorem sooner_of_lt {m n : Nat × Notice} (h : n.1 < m.1) : sooner (some m) (some n) = some n :=
  if_neg (Nat.not_le.mpr h)

/-- What is heard next is the earliest of a line, a line of the error output and the end. -/
theorem nextOf?_eq (t : Trace) (a : LiveAgent) : a.nextOf? t =
    sooner (sooner ((linesLeft t a).head?.map fun l => (l.time, .line (textOf l)))
      ((errorsLeft t a).head?.map fun l => (l.time, .errorLine (textOf l))))
      ((endLeft t a).map fun e => (e.1, .ended e.2)) := by
  rw [nextOf?, linesLeft, errorsLeft, List.head?_drop, List.head?_drop, endLeft]
  split_ifs
  · rfl
  · rw [Option.map_map]
    rfl

/-- The earlier one of the next lines of both streams. -/
theorem sooner_lines (t : Trace) (a : LiveAgent) :
    (∃ l more, linesLeft t a = l :: more ∧
        sooner ((linesLeft t a).head?.map fun l => (l.time, .line (textOf l)))
          ((errorsLeft t a).head?.map fun l => (l.time, .errorLine (textOf l))) =
            some (l.time, .line (textOf l))) ∨
      (∃ x more, errorsLeft t a = x :: more ∧ (∀ l ∈ (linesLeft t a).head?, x.time < l.time) ∧
        sooner ((linesLeft t a).head?.map fun l => (l.time, .line (textOf l)))
          ((errorsLeft t a).head?.map fun l => (l.time, .errorLine (textOf l))) =
            some (x.time, .errorLine (textOf x))) ∨
      linesLeft t a = [] ∧ errorsLeft t a = [] := by
  rcases hl : linesLeft t a with _ | ⟨l, ls⟩ <;> rcases hx : errorsLeft t a with _ | ⟨x, xs⟩
  · exact Or.inr (Or.inr ⟨rfl, rfl⟩)
  · exact Or.inr (Or.inl ⟨x, xs, rfl, by simp, rfl⟩)
  · exact Or.inl ⟨l, ls, rfl, rfl⟩
  · by_cases h : l.time ≤ x.time
    · exact Or.inl ⟨l, ls, rfl, sooner_of_le h⟩
    · have hlt : x.time < l.time := Nat.lt_of_not_le h
      exact Or.inr (Or.inl ⟨x, xs, rfl, by simpa using hlt, sooner_of_lt hlt⟩)

theorem next_nextOf? (t : Trace) (a : LiveAgent) : Next t a (a.nextOf? t) := by
  rw [nextOf?_eq]
  rcases sooner_lines t a with ⟨l, ls, hl, hfirst⟩ | ⟨x, xs, hx, hlines, hfirst⟩ | ⟨hl, hx⟩
  · rw [hfirst]
    rcases he : endLeft t a with _ | e
    · exact .line hl (by simp [he])
    · by_cases h : l.time ≤ e.1
      · rw [Option.map_some, sooner_of_le h]
        exact .line hl (by simpa [he] using h)
      · have hlt : e.1 < l.time := Nat.lt_of_not_le h
        rw [Option.map_some, sooner_of_lt hlt]
        exact .ended he (by simpa [hl] using hlt)
  · rw [hfirst]
    rcases he : endLeft t a with _ | e
    · exact .errorLine hx hlines (by simp [he])
    · by_cases h : x.time ≤ e.1
      · rw [Option.map_some, sooner_of_le h]
        exact .errorLine hx hlines (by simpa [he] using h)
      · have hlt : e.1 < x.time := Nat.lt_of_not_le h
        rw [Option.map_some, sooner_of_lt hlt]
        exact .ended he fun l hl => hlt.trans (hlines l hl)
  · rw [hl, hx]
    rcases he : endLeft t a with _ | e
    · exact .silence hl hx he
    · exact .ended he (by simp [hl])

/-! ### Hearing it -/

theorem Listening.nextOfProcess?_eq (h : Listening t a) : a.nextOfProcess? = a.nextOf? t := by
  rw [nextOfProcess?, if_pos h.audible, h.trace, Option.bind_some]

theorem Listening.hear_eq_some (h : Listening t a) {time : Nat} {notice : Notice}
    (hnext : a.nextOf? t = some (time, notice)) : a.hear = some (a.after time notice, notice) := by
  rw [hear, killed?_eq_none h.settled]
  dsimp only
  rw [write_eq h.settled, h.nextOfProcess?_eq, hnext, Option.map_some]

theorem Listening.hear_eq_none (h : Listening t a) (hnext : a.nextOf? t = none) :
    a.hear = none := by
  rw [hear, killed?_eq_none h.settled]
  dsimp only
  rw [write_eq h.settled, h.nextOfProcess?_eq, hnext, Option.map_none]

/-- The agent is listened to on, whatever is heard. -/
theorem Listening.after (h : Listening t a) (time : Nat) (notice : Notice) :
    Listening t (a.after time notice) := by
  cases notice with
  | line text => exact ⟨h.trace, h.audible, h.settled⟩
  | errorLine text => exact ⟨h.trace, h.audible, h.settled⟩
  | ended code => exact ⟨h.trace, Bool.or_true _, finish_settled h.settled _ code⟩

theorem after_line (time : Nat) {l : Trace.TimedLine} {more : List Trace.TimedLine}
    (hl : linesLeft t a = l :: more) (text : List Char) :
    linesLeft t (a.after time (.line text)) = more ∧
      errorsLeft t (a.after time (.line text)) = errorsLeft t a ∧
      endLeft t (a.after time (.line text)) = endLeft t a := by
  refine ⟨?_, rfl, rfl⟩
  show (a.outputLines t).drop (a.heardLines + 1) = more
  rw [← List.tail_drop, ← linesLeft, hl, List.tail_cons]

theorem after_errorLine (time : Nat) {x : Trace.TimedLine} {more : List Trace.TimedLine}
    (hx : errorsLeft t a = x :: more) (text : List Char) :
    linesLeft t (a.after time (.errorLine text)) = linesLeft t a ∧
      errorsLeft t (a.after time (.errorLine text)) = more ∧
      endLeft t (a.after time (.errorLine text)) = endLeft t a := by
  refine ⟨rfl, ?_, rfl⟩
  show (a.errorLines t).drop (a.heardErrors + 1) = more
  rw [← List.tail_drop, ← errorsLeft, hx, List.tail_cons]

theorem after_ended (time : Nat) (code : Option Int) :
    linesLeft t (a.after time (.ended code)) = linesLeft t a ∧
      errorsLeft t (a.after time (.ended code)) = errorsLeft t a ∧
      endLeft t (a.after time (.ended code)) = none :=
  ⟨rfl, rfl, rfl⟩

end LiveAgent

end CaretLayout
