import CaretLayout.Proofs.Host.Reader
import CaretLayout.Proofs.Text.Utf8
import Mathlib.Data.List.Forall2
import Mathlib.Tactic.SplitIfs

/-!
# The log of the reader holds no text of the document

The lines of the host carry text of the document, and a line that cannot be decoded may carry anything.
Two streams whose lines have the same shapes one by one (`Alike`) leave the same trail: the same log
records with the same fields, the same counts and the same reason for stopping
(`run_trail_eq`), whatever text they carry.

The two readers are kept on the same trail (`SameTrail`) by each pair of lines (`SameTrail.handleSegment`)
and so by all of them (`SameTrail.handleSegments`).
-/

namespace CaretLayout.HostStream

open Text (Segment)

/-! ### Lines of the same shape -/

/-- That two lines have the same shape, whatever text they carry. -/
inductive Alike : Segment UInt8 → Segment UInt8 → Prop
  /-- Cursor movements of one session to one place. -/
  | cursor {s s' : Segment UInt8} {c c' : CursorEvent} :
      reading s = .event (.cursor c) → reading s' = .event (.cursor c') →
      c.session = c'.session → c.line = c'.line → c.column = c'.column → Alike s s'
  /-- Lines of text that are not events, of one length in bytes and for faults of one category. -/
  | malformed {s s' : Segment UInt8} {line line' : List Char} {fault fault' : Json.Fault} :
      Text.Utf8.decode s.body = .ok line → HostEvent.parseLine line = .error fault →
      Text.Utf8.decode s'.body = .ok line' → HostEvent.parseLine line' = .error fault' →
      category fault = category fault' → s.size = s'.size → Alike s s'
  /-- Lines that are not text, of one length and well formed up to one place. -/
  | undecodable {s s' : Segment UInt8} {valid : Nat} :
      Text.Utf8.decode s.body = .error valid → Text.Utf8.decode s'.body = .error valid →
      s.size = s'.size → Alike s s'
  | same (s : Segment UInt8) : Alike s s

/-! ### Readers on the same trail -/

/-- That two readers have done the same as far as can be told without the text of their events. -/
structure SameTrail (p p' : Progress) : Prop where
  log : p.log = p'.log
  counts : p.counts = p'.counts
  room : p.room = p'.room
  stopped : p.stopped = p'.stopped

namespace SameTrail

variable {p p' : Progress}

theorem note (h : SameTrail p p') (level : Log.Level) (event : String)
    (fields : List (String × Log.Field)) :
    SameTrail (p.note level event fields) (p'.note level event fields) where
  log := by rw [Progress.note, Progress.note, h.log]
  counts := h.counts
  room := h.room
  stopped := h.stopped

theorem push (h : SameTrail p p') (e e' : Event) : SameTrail (p.push e) (p'.push e') := by
  have hroom := h.room
  unfold Progress.push
  rcases hp : p.room with _ | _ | n
  · rw [← hroom, hp]
    exact ⟨h.log, h.counts, rfl, h.stopped⟩
  · rw [← hroom, hp]
    exact h
  · rw [← hroom, hp]
    exact ⟨h.log, h.counts, rfl, h.stopped⟩

/-- Whether an event is accepted does not depend on the event. -/
theorem send (h : SameTrail p p') (e e' : Event) : SameTrail (p.send e) (p'.send e') := by
  unfold Progress.send
  rw [← h.room, ← h.counts, ← h.stopped]
  split_ifs with hfull
  · exact ⟨h.log, rfl, rfl, rfl⟩
  · exact h.push e e'

theorem countLine (h : SameTrail p p') : SameTrail p.countLine p'.countLine where
  log := h.log
  counts := by rw [Progress.countLine, Progress.countLine, h.counts]
  room := h.room
  stopped := h.stopped

theorem countMalformed (h : SameTrail p p') : SameTrail p.countMalformed p'.countMalformed where
  log := h.log
  counts := by rw [Progress.countMalformed, Progress.countMalformed, h.counts]
  room := h.room
  stopped := h.stopped

/-- A cursor movement leaves its session and its place, and nothing else. -/
theorem handleCursor (h : SameTrail p p') {c c' : CursorEvent} (hsession : c.session = c'.session)
    (hline : c.line = c'.line) (hcolumn : c.column = c'.column) :
    SameTrail (handleEvent p (.cursor c)) (handleEvent p' (.cursor c')) := by
  have hcounted : SameTrail { p with counts := { p.counts with cursors := p.counts.cursors + 1 } }
      { p' with counts := { p'.counts with cursors := p'.counts.cursors + 1 } } :=
    ⟨h.log, by rw [h.counts], h.room, h.stopped⟩
  rw [handleEvent, handleEvent, hsession, hline, hcolumn]
  exact (hcounted.note _ _ _).send _ _

theorem handleEvent (h : SameTrail p p') (e : HostEvent) :
    SameTrail (handleEvent p e) (handleEvent p' e) := by
  cases e with
  | cursor c => exact h.handleCursor rfl rfl rfl
  | shutdown =>
    have hnoted := h.note .debug "shutdown_requested" []
    have hstopped : SameTrail
        { p.note .debug "shutdown_requested" [] with stopped := some .shutdownRequested }
        { p'.note .debug "shutdown_requested" [] with stopped := some .shutdownRequested } :=
      ⟨hnoted.log, hnoted.counts, hnoted.room, rfl⟩
    exact hstopped.send _ _
  | toggle => exact h.send _ _
  | listLayouts => exact h.send _ _
  | close session => exact h.send _ _

end SameTrail

/-! ### One line -/

theorem handleSegment_of_undecodable (p : Progress) {s : Segment UInt8} {valid : Nat}
    (h : Text.Utf8.decode s.body = .error valid) :
    handleSegment p s = p.countLine.countMalformed.note .warn "undecodable_host_line"
      [("line_len", .count s.size), ("valid_up_to", .count valid)] := by
  unfold handleSegment
  rw [h]
  rfl

theorem handleSegment_of_fault (p : Progress) {s : Segment UInt8} {line : List Char}
    {fault : Json.Fault} (hline : Text.Utf8.decode s.body = .ok line)
    (h : HostEvent.parseLine line = .error fault) :
    handleSegment p s = p.countLine.countMalformed.note .warn "malformed_host_line"
      [("line_len", .count s.size), ("category", .text (category fault))] := by
  unfold handleSegment
  rw [hline]
  dsimp only
  rw [h]
  rfl

theorem handleSegment_of_event (p : Progress) {s : Segment UInt8} {e : HostEvent}
    (h : reading s = .event e) : handleSegment p s = handleEvent p.countLine e := by
  rcases handleSegment_cases p s with ⟨hr, -⟩ | ⟨hr, -⟩ | ⟨e', hr, hs⟩
  · rw [h] at hr
    cases hr
  · rw [h] at hr
    cases hr
  · rw [h] at hr
    cases hr
    exact hs

namespace SameTrail

variable {p p' : Progress}

theorem handleSegment_self (h : SameTrail p p') (s : Segment UInt8) :
    SameTrail (handleSegment p s) (handleSegment p' s) := by
  rcases hbytes : Text.Utf8.decode s.body with valid | line
  · rw [handleSegment_of_undecodable p hbytes, handleSegment_of_undecodable p' hbytes]
    exact h.countLine.countMalformed.note _ _ _
  · rcases hparse : HostEvent.parseLine line with fault | _ | e
    · rw [handleSegment_of_fault p hbytes hparse, handleSegment_of_fault p' hbytes hparse]
      exact h.countLine.countMalformed.note _ _ _
    · have hblank : ∀ q : Progress, handleSegment q s = q.countLine := fun q => by
        unfold handleSegment
        rw [hbytes]
        dsimp only
        rw [hparse]
        rfl
      rw [hblank p, hblank p']
      exact h.countLine
    · have hread : reading s = .event e := by
        unfold reading
        rw [hbytes]
        dsimp only
        rw [hparse]
      rw [handleSegment_of_event p hread, handleSegment_of_event p' hread]
      exact h.countLine.handleEvent e

/-- **One line**: what it leaves in the log and in the counts depends on its shape only. -/
theorem handleSegment (h : SameTrail p p') {s s' : Segment UInt8} (hs : Alike s s') :
    SameTrail (handleSegment p s) (handleSegment p' s') := by
  cases hs with
  | cursor hread hread' hsession hline hcolumn =>
    rw [handleSegment_of_event p hread, handleSegment_of_event p' hread']
    exact h.countLine.handleCursor hsession hline hcolumn
  | malformed hbytes hparse hbytes' hparse' hcategory hsize =>
    rw [handleSegment_of_fault p hbytes hparse, handleSegment_of_fault p' hbytes' hparse',
      hcategory, hsize]
    exact h.countLine.countMalformed.note _ _ _
  | undecodable hbytes hbytes' hsize =>
    rw [handleSegment_of_undecodable p hbytes, handleSegment_of_undecodable p' hbytes', hsize]
    exact h.countLine.countMalformed.note _ _ _
  | same => exact h.handleSegment_self s

/-! ### All lines -/

theorem handleSegments {l l' : List (Segment UInt8)} (hl : List.Forall₂ Alike l l') :
    ∀ {p p' : Progress}, SameTrail p p' → SameTrail (handleSegments p l) (handleSegments p' l') := by
  induction hl with
  | nil => exact fun h => h
  | cons hs _ ih =>
    intro p p' h
    rw [HostStream.handleSegments, HostStream.handleSegments, ← h.stopped]
    split_ifs with hstopped
    · exact h
    · exact ih (h.handleSegment hs)

theorem finish (h : SameTrail p p') (ending : Ending) :
    SameTrail (finish p ending) (finish p' ending) := by
  unfold HostStream.finish
  rw [← h.stopped, ← h.counts]
  generalize p.stopped.getD _ = reason
  have hcounted : SameTrail { p with counts := countStop p.counts reason, stopped := some reason }
      { p' with counts := countStop p.counts reason, stopped := some reason } :=
    ⟨h.log, rfl, h.room, rfl⟩
  dsimp only
  split_ifs with herror hend
  · exact ((hcounted.note _ _ _).push _ _).note _ _ _
  · exact (hcounted.push _ _).note _ _ _
  · exact (hcounted.note _ _ _).note _ _ _
  · exact hcounted.note _ _ _

end SameTrail

/-- **The log holds no text of the document.**  Two streams whose lines that are read have the same
shapes one by one, in any chunks and with the same ending, leave the same log and the same counts,
however many events are accepted. -/
theorem run_trail_eq (room : Option Nat) (signalled : Bool) {chunks chunks' : List (List UInt8)}
    {ending : Ending}
    (h : List.Forall₂ Alike (held chunks.flatten ending) (held chunks'.flatten ending)) :
    (run room signalled chunks ending).log = (run room signalled chunks' ending).log ∧
      (run room signalled chunks ending).counts = (run room signalled chunks' ending).counts ∧
      (run room signalled chunks ending).stopped = (run room signalled chunks' ending).stopped := by
  have hstart : SameTrail (start room signalled) (start room signalled) := ⟨rfl, rfl, rfl, rfl⟩
  have htrail := (SameTrail.handleSegments h hstart).finish ending
  rw [run_eq, run_eq]
  exact ⟨htrail.log, htrail.counts, htrail.stopped⟩

/-- A cursor movement in a document that consists of a word. -/
def movedLine (word : String) : List UInt8 :=
  Text.Utf8.encode ("\x7b\"type\":\"cursor\",\"session\":\"s\",\"language_id\":\"".toList ++
    word.toList ++ "\",\"line\":3,\"column\":1,\"lines\":[\"".toList ++ word.toList ++
    "\"]\x7d".toList)

/-- An event that breaks off after a word. -/
def brokenLine (word : String) : List UInt8 :=
  Text.Utf8.encode ("\x7b\"type\":\"close\",\"session\":\"".toList ++ word.toList)

/-- A word with a byte behind it that is no text. -/
def binaryLine (word : String) : List UInt8 :=
  Text.Utf8.encode word.toList ++ [0xFF]

/-- The stream of these lines with a word. -/
def streamWith (word : String) : List UInt8 :=
  [movedLine word, brokenLine word, binaryLine word].flatMap (· ++ [Text.lineFeed])

theorem run_trail_eq_password :
    (run none false [streamWith "password"] .closed).log =
        (run none false [streamWith "********"] .closed).log ∧
      (run none false [streamWith "password"] .closed).counts =
        (run none false [streamWith "********"] .closed).counts ∧
      (run none false [streamWith "password"] .closed).stopped =
        (run none false [streamWith "********"] .closed).stopped := by
  have hmoved : Alike ⟨movedLine "password", true⟩ ⟨movedLine "********", true⟩ := by
    have h : reading ⟨movedLine "password", true⟩ =
        .event (.cursor ⟨"s", "password", 3, 1, ["password"], 0, none⟩) := by decide +kernel
    have h' : reading ⟨movedLine "********", true⟩ =
        .event (.cursor ⟨"s", "********", 3, 1, ["********"], 0, none⟩) := by decide +kernel
    exact .cursor h h' rfl rfl rfl
  have hbroken : Alike ⟨brokenLine "password", true⟩ ⟨brokenLine "********", true⟩ := by
    have h (word : List Char) (hword : word = "password".toList ∨ word = "********".toList) :
        HostEvent.parseLine ("\x7b\"type\":\"close\",\"session\":\"".toList ++ word) =
          .error .truncated := by
      rcases hword with rfl | rfl
      · decide +kernel
      · decide +kernel
    exact .malformed (Text.Utf8.decode_encode _) (h _ (Or.inl rfl)) (Text.Utf8.decode_encode _)
      (h _ (Or.inr rfl)) rfl (by decide +kernel)
  have hbinary : Alike ⟨binaryLine "password", true⟩ ⟨binaryLine "********", true⟩ := by
    have h : Text.Utf8.decode (binaryLine "password") = .error 8 := by decide +kernel
    have h' : Text.Utf8.decode (binaryLine "********") = .error 8 := by decide +kernel
    exact .undecodable h h' (by decide +kernel)
  have hheld (word : String) (hword : word = "password" ∨ word = "********") :
      held [streamWith word].flatten .closed =
        [⟨movedLine word, true⟩, ⟨brokenLine word, true⟩, ⟨binaryLine word, true⟩] := by
    rcases hword with rfl | rfl
    · decide +kernel
    · decide +kernel
  refine run_trail_eq none false ?_
  rw [hheld _ (Or.inl rfl), hheld _ (Or.inr rfl)]
  exact .cons hmoved (.cons hbroken (.cons hbinary .nil))

end CaretLayout.HostStream
