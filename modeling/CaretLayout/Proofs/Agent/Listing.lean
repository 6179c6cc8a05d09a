import CaretLayout.Command.Layouts
import CaretLayout.Proofs.Agent.Hearing
import CaretLayout.Proofs.Agent.Reply

/-!
# Listing layouts

An agent that is asked for its layouts answers with the first decisive line of its output: an object
that reports an error or carries a list (`Decisive`).  Whatever stands before and after this line has
no effect, and an agent without such a line has failed by its end (`ask_decided`).

A line may be read after the end is known.  Hearing the end only cuts the wait short, to the time for
which the agent is still listened to, so the wait as it will be once the end is heard stays the same
whatever is heard (`waitLeft`).  By induction on the number of notices, the wait comes to the first
decisive line among those that are left, if they are read within it (`await_eq`).
-/

namespace CaretLayout

namespace Inventory

open LiveAgent (Listening Next linesLeft errorsLeft endLeft textOf)

variable {t : Trace} {a a' : LiveAgent} {w : Wait}

/-! ### The wait -/

theorem Wait.deadline_after_ended (w : Wait) (time : Nat) (code : Option Int) :
    (w.after time (.ended code)).deadline = min w.deadline (time + exitDrain) := by
  unfold after
  dsimp only
  split_ifs with h
  · exact (min_eq_right h.le).symm
  · exact (min_eq_left (Nat.not_lt.mp h)).symm

theorem Wait.deadline_after_le (w : Wait) (time : Nat) (notice : Notice) :
    (w.after time notice).deadline ≤ w.deadline := by
  cases notice with
  | ended code =>
    rw [deadline_after_ended]
    exact min_le_left _ _
  | _ => exact le_rfl

/-- An end after the wait is over makes no difference. -/
theorem Wait.after_of_le {time : Nat} (h : w.deadline ≤ time) (notice : Notice) :
    w.after time notice = w := by
  cases notice with
  | ended code => exact if_neg (Nat.not_lt.mpr (h.trans (Nat.le_add_right time exitDrain)))
  | _ => rfl

/-- The wait as it will be once the end is heard. -/
def waitLeft (t : Trace) (w : Wait) (a : LiveAgent) : Wait :=
  match endLeft t a with
  | some e => w.after (max a.now e.1) (.ended e.2)
  | none => w

theorem waitLeft_of_end {e : Nat × Option Int} (h : endLeft t a = some e) :
    waitLeft t w a = w.after (max a.now e.1) (.ended e.2) := by
  rw [waitLeft, h]

theorem waitLeft_of_no_end (h : endLeft t a = none) : waitLeft t w a = w := by
  rw [waitLeft, h]

theorem deadline_waitLeft_le (t : Trace) (w : Wait) (a : LiveAgent) :
    (waitLeft t w a).deadline ≤ w.deadline := by
  rcases h : endLeft t a with _ | e
  · rw [waitLeft_of_no_end h]
  · rw [waitLeft_of_end h]
    exact w.deadline_after_le _ _

/-- What is heard before the end leaves the wait as it will be. -/
theorem waitLeft_congr {time : Nat} (hnow : a'.now = max a.now time)
    (hend : endLeft t a' = endLeft t a) (htime : ∀ e ∈ endLeft t a, time ≤ e.1) :
    waitLeft t w a' = waitLeft t w a := by
  rcases h : endLeft t a with _ | e
  · rw [waitLeft_of_no_end (hend.trans h), waitLeft_of_no_end h]
  · rw [waitLeft_of_end (hend.trans h), waitLeft_of_end h, hnow, max_assoc,
      max_eq_right (htime e h)]

/-- Whoever hears something after the wait is over, hears the end after it too. -/
theorem waitLeft_of_late {time : Nat} (hlate : w.deadline ≤ max a.now time)
    (htime : ∀ e ∈ endLeft t a, time ≤ e.1) : waitLeft t w a = w := by
  rcases h : endLeft t a with _ | e
  · exact waitLeft_of_no_end h
  · rw [waitLeft_of_end h]
    exact Wait.after_of_le (hlate.trans (max_le_max_left a.now (htime e h))) _

theorem await_of_hear {limit : Nat} {notice : Notice} (hhear : a.hear = some (a', notice)) :
    await (limit + 1) w a =
      if w.deadline ≤ a'.now then .error w.failure
      else (ofNotice? notice).getD (await limit (w.after a'.now notice) a') := by
  rw [await, hhear]
  dsimp only
  rcases ofNotice? notice with _ | answer
  · rfl
  · rfl

/-- How many notices there can be until nothing is left to be heard. -/
def leftToHear (t : Trace) (a : LiveAgent) : Nat :=
  (linesLeft t a).length + (errorsLeft t a).length + (endLeft t a).toList.length

theorem lines_and_end_of_leftToHear (h : leftToHear t a = 0) :
    linesLeft t a = [] ∧ endLeft t a = none := by
  have hlines : (linesLeft t a).length = 0 := by unfold leftToHear at h; omega
  have hend : (endLeft t a).toList.length = 0 := by unfold leftToHear at h; omega
  exact ⟨List.eq_nil_of_length_eq_zero hlines, by simpa using hend⟩

/-- That the lines that are left are read within the wait. -/
def ReadInTime (t : Trace) (w : Wait) (a : LiveAgent) : Prop :=
  ∀ l ∈ linesLeft t a, max a.now l.time < (waitLeft t w a).deadline

/-- What is heard before the lines that are left is heard within the wait. -/
theorem ReadInTime.before (h : ReadInTime t w a) {time : Nat}
    (hlines : ∀ l ∈ (linesLeft t a).head?, time < l.time) (hne : linesLeft t a ≠ []) :
    max a.now time < (waitLeft t w a).deadline := by
  obtain ⟨l, more, hl⟩ := List.exists_cons_of_ne_nil hne
  have hread := h l (by rw [hl]; exact List.mem_cons_self)
  have htime : time < l.time := hlines l (by rw [hl]; rfl)
  omega

/-- Nothing is left to be read of an agent of which something is heard too late. -/
theorem ReadInTime.linesLeft_eq_nil (h : ReadInTime t w a) {time : Nat}
    (hlines : ∀ l ∈ (linesLeft t a).head?, time < l.time) (hlate : w.deadline ≤ max a.now time) :
    linesLeft t a = [] := by
  by_contra hne
  have hbefore := h.before hlines hne
  exact absurd (hlate.trans_lt hbefore) (Nat.not_lt.mpr (deadline_waitLeft_le t w a))

/-- The lines that are left after something is heard are still read within the wait. -/
theorem ReadInTime.mono (h : ReadInTime t w a) {w' : Wait} {time : Nat}
    (hnow : a'.now = max a.now time) (hwait : waitLeft t w' a' = waitLeft t w a)
    (hsub : ∀ l ∈ linesLeft t a', l ∈ linesLeft t a)
    (htime : linesLeft t a' ≠ [] → max a.now time < (waitLeft t w a).deadline) :
    ReadInTime t w' a' := by
  intro l hl
  rw [hwait, hnow]
  have hread := h l (hsub l hl)
  have hbefore := htime (List.ne_nil_of_mem hl)
  omega

/-- The answer of the first decisive line among those that are left, and otherwise the end of the
wait. -/
def answerLeft (t : Trace) (w : Wait) (a : LiveAgent) : Except Failure (List LayoutInfo) :=
  (ofLines? ((linesLeft t a).map textOf)).getD (.error (waitLeft t w a).failure)

theorem answerLeft_of_nil (hlines : linesLeft t a = []) (hwait : waitLeft t w a = w) :
    answerLeft t w a = .error w.failure := by
  rw [answerLeft, hlines, hwait]
  rfl

/-! ### One notice -/

/-- What a notice does to the wait: it ends the wait with the answer, or it leaves the answer as it is
and less to be heard. -/
inductive Advances (t : Trace) (w : Wait) (a : LiveAgent) : Prop where
  | settles (answered : ∀ limit, await (limit + 1) w a = answerLeft t w a)
  | leaves {w' : Wait} {a' : LiveAgent} (listening : Listening t a') (read : ReadInTime t w' a')
      (fewer : leftToHear t a' < leftToHear t a) (same : answerLeft t w' a' = answerLeft t w a)
      (goesOn : ∀ limit, await (limit + 1) w a = await limit w' a')

theorem advances_line (h : Listening t a) (hread : ReadInTime t w a) {l : Trace.TimedLine}
    {more : List Trace.TimedLine} (hheard : a.nextOf? t = some (l.time, .line (textOf l)))
    (left : linesLeft t a = l :: more) (ending : ∀ e ∈ endLeft t a, l.time ≤ e.1) :
    Advances t w a := by
  have hnow := LiveAgent.after_now (a := a) l.time (.line (textOf l))
  obtain ⟨hlines, herrors, hend⟩ := LiveAgent.after_line l.time left (textOf l)
  have hwait := waitLeft_congr (w := w) hnow hend ending
  have hintime := hread l (by rw [left]; exact List.mem_cons_self)
  have hawait : ∀ limit, await (limit + 1) w a =
      (ofLine? (textOf l)).getD (await limit w (a.after l.time (.line (textOf l)))) := by
    intro limit
    rw [await_of_hear (h.hear_eq_some hheard), hnow,
      if_neg (Nat.not_le.mpr (hintime.trans_le (deadline_waitLeft_le t w a)))]
    rfl
  rcases hanswer : ofLine? (textOf l) with _ | answer
  · refine .leaves (h.after _ _) (hread.mono hnow hwait ?_ fun _ => hintime) ?_ ?_ fun limit => ?_
    · rw [hlines, left]
      exact fun x hx => List.mem_cons_of_mem l hx
    · rw [leftToHear, leftToHear, hlines, herrors, hend, left, List.length_cons]
      omega
    · rw [answerLeft, answerLeft, hlines, hwait, left, List.map_cons, ofLines?, ofLines?,
        List.findSome?_cons, hanswer]
    · rw [hawait, hanswer, Option.getD_none]
  · refine .settles fun limit => ?_
    rw [hawait, hanswer, answerLeft, left, List.map_cons, ofLines?, List.findSome?_cons, hanswer]
    rfl

theorem advances_errorLine (h : Listening t a) (hread : ReadInTime t w a) {x : Trace.TimedLine}
    {more : List Trace.TimedLine} (hheard : a.nextOf? t = some (x.time, .errorLine (textOf x)))
    (left : errorsLeft t a = x :: more) (lines : ∀ l ∈ (linesLeft t a).head?, x.time < l.time)
    (ending : ∀ e ∈ endLeft t a, x.time ≤ e.1) : Advances t w a := by
  have hnow := LiveAgent.after_now (a := a) x.time (.errorLine (textOf x))
  obtain ⟨hlines, herrors, hend⟩ := LiveAgent.after_errorLine x.time left (textOf x)
  have hwait := waitLeft_congr (w := w) hnow hend ending
  by_cases hlate : w.deadline ≤ max a.now x.time
  · refine .settles fun limit => ?_
    rw [await_of_hear (h.hear_eq_some hheard), hnow, if_pos hlate,
      answerLeft_of_nil (hread.linesLeft_eq_nil lines hlate) (waitLeft_of_late hlate ending)]
  · refine .leaves (h.after _ _) (hread.mono hnow hwait ?_ ?_) ?_ ?_ fun limit => ?_
    · rw [hlines]
      exact fun _ hl => hl
    · rw [hlines]
      exact hread.before lines
    · rw [leftToHear, leftToHear, hlines, herrors, hend, left, List.length_cons]
      omega
    · rw [answerLeft, answerLeft, hlines, hwait]
    · rw [await_of_hear (h.hear_eq_some hheard), hnow, if_neg hlate]
      rfl

/-- After the end the wait is what it was going to be. -/
theorem advances_ended (h : Listening t a) (hread : ReadInTime t w a) {e : Nat × Option Int}
    (hheard : a.nextOf? t = some (e.1, .ended e.2)) (left : endLeft t a = some e)
    (lines : ∀ l ∈ (linesLeft t a).head?, e.1 < l.time) : Advances t w a := by
  have hnow := LiveAgent.after_now (a := a) e.1 (.ended e.2)
  obtain ⟨hlines, herrors, hend⟩ := LiveAgent.after_ended (t := t) (a := a) e.1 e.2
  have hleft := waitLeft_of_end (w := w) left
  have hwait : waitLeft t (w.after (max a.now e.1) (.ended e.2)) (a.after e.1 (.ended e.2)) =
      waitLeft t w a := by rw [waitLeft_of_no_end hend, hleft]
  by_cases hlate : w.deadline ≤ max a.now e.1
  · refine .settles fun limit => ?_
    rw [await_of_hear (h.hear_eq_some hheard), hnow, if_pos hlate,
      answerLeft_of_nil (hread.linesLeft_eq_nil lines hlate)
        (hleft.trans (Wait.after_of_le hlate _))]
  · refine .leaves (h.after _ _) (hread.mono hnow hwait ?_ ?_) ?_ ?_ fun limit => ?_
    · rw [hlines]
      exact fun _ hl => hl
    · rw [hlines]
      exact hread.before lines
    · rw [leftToHear, leftToHear, hlines, herrors, hend, left, Option.toList_none,
        Option.toList_some, List.length_nil, List.length_singleton]
      omega
    · rw [answerLeft, answerLeft, hlines, hwait]
    · rw [await_of_hear (h.hear_eq_some hheard), hnow, if_neg hlate]
      rfl

theorem advances (h : Listening t a) (hread : ReadInTime t w a) : Advances t w a := by
  have hnext := LiveAgent.next_nextOf? t a
  rcases hheard : a.nextOf? t with _ | ⟨time, notice⟩
  · rw [hheard] at hnext
    cases hnext with
    | silence lines errors ending =>
      refine .settles fun limit => ?_
      rw [await, h.hear_eq_none hheard, answerLeft_of_nil lines (waitLeft_of_no_end ending)]
  · rw [hheard] at hnext
    cases hnext with
    | line left ending => exact advances_line h hread hheard left ending
    | errorLine left lines ending => exact advances_errorLine h hread hheard left lines ending
    | ended left lines => exact advances_ended h hread hheard left lines

/-! ### All notices -/

/-- The wait comes to the first decisive line among those that are left, and otherwise to its end. -/
theorem await_eq {limit : Nat} (h : Listening t a) (hread : ReadInTime t w a)
    (hlimit : leftToHear t a ≤ limit) : await limit w a = answerLeft t w a := by
  induction limit generalizing a w with
  | zero =>
    obtain ⟨hlines, hend⟩ := lines_and_end_of_leftToHear (Nat.le_zero.mp hlimit)
    rw [answerLeft_of_nil hlines (waitLeft_of_no_end hend), await]
  | succ limit ih =>
    cases advances h hread with
    | settles answered => exact answered limit
    | leaves listening read fewer same goesOn =>
      rw [goesOn, ih listening read (Nat.le_of_lt_succ (fewer.trans_le hlimit)), same]

/-! ### A new agent -/

/-- What a new process of a program does that is asked for its layouts at once. -/
def askedTrace (a : LiveAgent) (p : Program) : Trace :=
  p.trace a.args a.now ((Supervisor.wire .list).map (⟨a.now, ·⟩))

/-- The agent that was asked, once its writer has written. -/
def asked (a : LiveAgent) : LiveAgent :=
  (a.start.send .list).write

/-- Nothing was heard of a new agent that was asked. -/
structure NewlyAsked (a : LiveAgent) (p : Program) : Prop where
  started : a.start.startFault? = none
  notKilled : (a.start.send .list).killed? = none
  listening : Listening (askedTrace a p) (asked a)
  alone : (asked a).supervisor.children.length = 1
  now : (asked a).now = a.now
  lines : linesLeft (askedTrace a p) (asked a) = a.outputLines (askedTrace a p)
  errors : errorsLeft (askedTrace a p) (asked a) = a.errorLines (askedTrace a p)
  ending : endLeft (askedTrace a p) (asked a) =
    (askedTrace a p).ending.map fun e => (e.1 + a.lags.ending, e.2)

variable {p : Program}

theorem newlyAsked (hprogram : a.program = .ok p) (hnew : a.supervisor = {}) :
    NewlyAsked a p := by
  obtain ⟨program, path, args, lags, supervisor, now, startedAt, input, heardLines, heardErrors,
    heardEnd⟩ := a
  dsimp only at hprogram hnew
  subst hprogram hnew
  have hinput : ([Request.list].flatMap Supervisor.wire).map (InputByte.mk now) =
      (Supervisor.wire .list).map (⟨now, ·⟩) := by rw [List.flatMap_singleton]
  refine ⟨rfl, rfl, ⟨?_, rfl, ?_, ?_⟩, rfl, rfl, rfl, rfl, rfl⟩
  · exact congrArg (fun input => some (p.trace args now input)) hinput
  · intro c hc hkilled
    cases List.mem_singleton.mp hc
    cases hkilled
  · intro c hc
    cases hc
    rfl

/-- The writer writes before anything is heard. -/
theorem await_asked (h : NewlyAsked a p) (w : Wait) (limit : Nat) :
    await limit w (a.start.send .list) = await limit w (asked a) := by
  have hhear : (a.start.send .list).hear = (asked a).hear := by
    rw [LiveAgent.hear, LiveAgent.hear, h.notKilled,
      LiveAgent.killed?_eq_none h.listening.settled]
    dsimp only
    rw [LiveAgent.write_eq h.listening.settled]
    rfl
  rcases limit with _ | limit
  · rfl
  · rw [await, await, hhear]

theorem noticesLeft_asked (h : NewlyAsked a p) :
    (a.start.send .list).noticesLeft = (asked a).noticesLeft := by
  rw [LiveAgent.noticesLeft, LiveAgent.noticesLeft, LiveAgent.write_eq h.listening.settled]
  rfl

/-- There can be as many notices as it takes to hear everything. -/
theorem leftToHear_le_noticesLeft (h : Listening t a) (hchild : a.supervisor.children ≠ []) :
    leftToHear t a ≤ a.noticesLeft := by
  have hnotices : a.noticesLeft = (a.outputLines t).length + (a.errorLines t).length +
      a.supervisor.children.length := by
    rw [LiveAgent.noticesLeft, LiveAgent.write_eq h.settled, h.trace]
  have hlines : (linesLeft t a).length ≤ (a.outputLines t).length := by
    rw [linesLeft, List.length_drop]
    exact Nat.sub_le _ _
  have herrors : (errorsLeft t a).length ≤ (a.errorLines t).length := by
    rw [errorsLeft, List.length_drop]
    exact Nat.sub_le _ _
  have hend : (endLeft t a).toList.length ≤ 1 := Option.length_toList_le
  have hpos : 0 < a.supervisor.children.length := List.length_pos_iff.mpr hchild
  rw [hnotices, leftToHear]
  omega

/-- How long a new agent that was asked is waited for, once its end is known. -/
theorem waitLeft_asked (h : NewlyAsked a p) {e : Nat} {code : Option Int}
    (hending : (askedTrace a p).ending = some (e, code)) (w : Wait) :
    waitLeft (askedTrace a p) w (asked a) = w.after (a.noticedAt e) (.ended code) := by
  have hend : endLeft (askedTrace a p) (asked a) = some (e + a.lags.ending, code) := by
    rw [h.ending, hending]
    rfl
  rw [waitLeft_of_end hend, h.now]
  rfl

/-- The answer of a new agent is that of its lines, and otherwise the end of the wait. -/
theorem ask_eq (hprogram : a.program = .ok p) (hnew : a.supervisor = {}) {e milliseconds : Nat}
    {code : Option Int} (hending : (askedTrace a p).ending = some (e, code))
    (hread : ∀ l ∈ a.outputLines (askedTrace a p), max a.now l.time <
      min (a.now + milliseconds) (a.noticedAt e + exitDrain)) {chunks : List (List UInt8)}
    (hchunks : chunks.flatten = (askedTrace a p).printedOn .standard) :
    ask a milliseconds = (ofLines? (AgentOutput.lines chunks)).getD (.error
      (Wait.after ⟨a.now + milliseconds, .agentSilent milliseconds⟩ (a.noticedAt e)
        (.ended code)).failure) := by
  have h := newlyAsked hprogram hnew
  have hwait := waitLeft_asked h hending ⟨a.now + milliseconds, .agentSilent milliseconds⟩
  have hintime : ReadInTime (askedTrace a p) ⟨a.now + milliseconds, .agentSilent milliseconds⟩
      (asked a) := by
    intro l hl
    rw [h.lines] at hl
    rw [h.now, hwait, Wait.deadline_after_ended]
    exact hread l hl
  have hchild : (asked a).supervisor.children ≠ [] := by
    rw [← List.length_pos_iff, h.alone]
    exact Nat.one_pos
  rw [ask]
  dsimp only
  rw [h.started]
  dsimp only
  rw [await_asked h, noticesLeft_asked h,
    await_eq h.listening hintime (leftToHear_le_noticesLeft h.listening hchild), answerLeft, h.lines,
    hwait, LiveAgent.outputLines, LiveAgent.map_textOf_linesRead hending hchunks]

/-! ### The first decisive line -/

/-- That a line is an object which decides the listing: it reports an error or carries a list. -/
def Decisive (line : List Char) : Prop :=
  ∃ members, Json.read (Text.trim line) = .ok (.object members) ∧
    (Json.lastMember? "status" members = some (.string "error") ∨
      ∃ items, Json.lastMember? "data" members = some (.array items))

theorem ofLine?_of_read {line : List Char} {v : Json} (h : Json.read (Text.trim line) = .ok v) :
    ofLine? line = (Reply.ofValue? v).bind ofReply? := by
  unfold ofLine?
  split
  · next hblank =>
    have hempty : Json.read [] = .error .truncated := by decide +kernel
    rw [hblank, hempty] at h
    cases h
  · rw [h]

theorem isError_iff {members : List (String × Json)} {r : Reply}
    (hr : Reply.ofValue? (.object members) = some r) :
    r.isError = true ↔ Json.lastMember? "status" members = some (.string "error") := by
  rw [Reply.ofValue?_object] at hr
  cases hr
  rw [Reply.isError, beq_iff_eq, Reply.textMember, Json.member?]
  rcases Json.lastMember? "status" members with _ | v
  · simp
  · cases v with
    | string s => simp [Json.string?]
    | _ => simp [Json.string?]

/-- An object that reports an error decides, even if it carries a list. -/
theorem ofLine?_of_error {line : List Char} {members : List (String × Json)}
    (hread : Json.read (Text.trim line) = .ok (.object members))
    (hstatus : Json.lastMember? "status" members = some (.string "error")) :
    ofLine? line = some (.error (.agentError (Reply.textMember "message" (.object members)))) := by
  rw [ofLine?_of_read hread, Reply.ofValue?_object, Option.bind_some, ofReply?,
    if_pos ((isError_iff (Reply.ofValue?_object members)).mpr hstatus)]

theorem ofLine?_of_data {line : List Char} {members : List (String × Json)} {items : List Json}
    (hread : Json.read (Text.trim line) = .ok (.object members))
    (hstatus : Json.lastMember? "status" members ≠ some (.string "error"))
    (hdata : Json.lastMember? "data" members = some (.array items)) :
    ofLine? line = some (.ok (items.filterMap LayoutInfo.ofValue?)) := by
  have hr := Reply.ofValue?_object members
  rw [ofLine?_of_read hread, hr, Option.bind_some, ofReply?,
    if_neg (fun h => hstatus ((isError_iff hr).mp h)), Reply.layouts_of_array hr hdata]
  rfl

/-- The lines that are not decisive are those without an answer. -/
theorem ofLine?_eq_none_iff {line : List Char} : ofLine? line = none ↔ ¬ Decisive line := by
  constructor
  · rintro hnone ⟨members, hread, hdecisive⟩
    by_cases hstatus : Json.lastMember? "status" members = some (.string "error")
    · rw [ofLine?_of_error hread hstatus] at hnone
      cases hnone
    · obtain ⟨items, hdata⟩ := hdecisive.resolve_left hstatus
      rw [ofLine?_of_data hread hstatus hdata] at hnone
      cases hnone
  · intro h
    rcases hread : Json.read (Text.trim line) with fault | v
    · unfold ofLine?
      split
      · rfl
      · rw [hread]
    · rw [ofLine?_of_read hread]
      cases v with
      | object members =>
        have hr := Reply.ofValue?_object members
        have hstatus : Json.lastMember? "status" members ≠ some (.string "error") := fun hstatus =>
          h ⟨members, hread, Or.inl hstatus⟩
        have hdata : ∀ items, Json.lastMember? "data" members ≠ some (.array items) :=
          fun items hdata => h ⟨members, hread, Or.inr ⟨items, hdata⟩⟩
        rw [hr, Option.bind_some, ofReply?,
          if_neg (fun herror => hstatus ((isError_iff hr).mp herror)),
          Reply.layouts_of_no_array hr hdata]
        rfl
      | _ => rfl

theorem ofLines?_of_first {lines before after : List (List Char)} {line : List Char}
    {answer : Except Failure (List LayoutInfo)} (hlines : lines = before ++ line :: after)
    (hbefore : ∀ l ∈ before, ¬ Decisive l) (hanswer : ofLine? line = some answer) :
    ofLines? lines = some answer := by
  have hnone : before.findSome? ofLine? = none :=
    List.findSome?_eq_none_iff.mpr fun l hl => ofLine?_eq_none_iff.mpr (hbefore l hl)
  rw [ofLines?, hlines, List.findSome?_append, hnone, Option.none_or, List.findSome?_cons, hanswer]

theorem ofLines?_of_none {lines : List (List Char)} (h : ∀ l ∈ lines, ¬ Decisive l) :
    ofLines? lines = none :=
  List.findSome?_eq_none_iff.mpr fun l hl => ofLine?_eq_none_iff.mpr (h l hl)

/-- A program that greets, answers the first line of its input with these bytes and ends. -/
def answering (reply : List UInt8) : Program where
  trace := fun _ start input =>
    let greeting : Emission := ⟨start, .standard, Text.Utf8.encode "hello\n".toList⟩
    match input.find? (·.byte == Text.lineFeed) with
    | some asked => ⟨[greeting, ⟨asked.time + 5, .standard, reply⟩], some (asked.time + 5, some 3)⟩
    | none => ⟨[greeting], none⟩

/-- An agent whose lines are read 30 milliseconds after one another, and whose end is noticed 2
milliseconds after it. -/
def lateAgent (reply : List UInt8) : LiveAgent where
  program := .ok (answering reply)
  path := "agent"
  args := []
  lags := { line := fun n => 30 * n, ending := 2 }

/-- A reply without a list, one with a list, and an error whose line is not finished. -/
def lateReply : List UInt8 :=
  Text.Utf8.encode ("\x7b\"status\":\"ready\"\x7d\n" ++
    "\x7b\"data\":[[\"a\",\"A\"],5]\x7d\n\x7b\"status\":\"error\"\x7d").toList

/-- What the agent prints, in two reads. -/
def lateChunks (reply : List UInt8) : List (List UInt8) :=
  let printed := Text.Utf8.encode "hello\n".toList ++ reply
  [printed.take 20, printed.drop 20]

end Inventory

end CaretLayout
