import CaretLayout.Command.Classify
import CaretLayout.Proofs.Cursor.Window
import CaretLayout.Proofs.Switchboard.Session

/-!
# The same place in an event and in a file

A host sends a slice of a document along with the cursor, and counts its lines from the first line
of the slice; the command that classifies a place in a file has the whole document.  Both come to the
same finding (`classifyLines_of_tellsOf`).  So a session that is new is told, in its first message,
the scope that the command gives for the file (`handle_eq_classifyFile`).
-/

namespace CaretLayout

open CursorContext (SliceReaches ofLines_slice)

namespace CursorEvent

/-- That an event tells of a place in a text: it sends along a slice of the lines of the text that
starts above the window and goes on to the cursor line, or to the end of the text. -/
structure TellsOf (text : List Char) (lookback : Nat) (c : CursorEvent) : Prop where
  firstLine_le : c.firstLine ≤ c.line - lookback
  lines_eq : ∃ count, SliceReaches (Text.lines text) c.firstLine count c.line ∧
    c.lines = (((Text.lines text).drop c.firstLine).take count).map String.ofList

/-- The lines that an event sends along give the finding of the whole text. -/
theorem classifyLines_of_tellsOf {s : Settings} {text : List Char} {c : CursorEvent}
    (h : c.TellsOf text s.lookback) :
    classifyLines (s.table.lookup c.language) (c.lines.map String.toList) c.relativeLine c.column
        s.lookback = s.classifyText c.language text c.line c.column := by
  obtain ⟨count, hreach, hlines⟩ := h.lines_eq
  have hid : String.toList ∘ String.ofList = id := funext fun _ => String.toList_ofList
  have htext : c.lines.map String.toList = ((Text.lines text).drop c.firstLine).take count := by
    rw [hlines, List.map_map, hid, List.map_id]
  unfold Settings.classifyText classifyLines
  rw [htext, relativeLine, ofLines_slice h.firstLine_le hreach]

end CursorEvent

namespace Settings

/-- In a language that is asked for, a file is classified as its text is. -/
theorem classifyFile_of_textOf (s : Settings) {bytes : List UInt8} {text : List Char}
    (hfile : DiskFault.textOf bytes = .ok text) (language path : String) (line column : Nat) :
    s.classifyFile (some language) path (.ok bytes) line column =
      .ok (s.classifyText language text line column) :=
  s.classifyFile_ok hfile (some language) path line column

end Settings

namespace Switchboard

variable {s : Settings} {b : Switchboard}

/-- A cursor in a new session is dispatched at once where there is no time of rest: the agent is
asked for the layout of its scope, and the host is told. -/
theorem handle_cursor_of_new (hq : s.quiet = 0) (hon : b.enabled = true) {c : CursorEvent}
    (hnew : b.sessions.find? c.session = none) (hx : c.isLeftAlone s = false) (now : Nat) :
    (b.handle s now (.host (.cursor c))).2 =
      [.request (.switch (s.layouts.of (c.scope s))), .message (c.modeMessage s)] := by
  have hfits := Session.fits_new s true c.session
  have hsession : b.session s c.session = .new s true := by
    rw [session, hnew, hon]
    rfl
  have hexcluded : (Session.new s true).dispatcher.isExcluded (c.view s.lookback).language
      (c.view s.lookback).contentKind = false :=
    (hfits.isExcluded c).trans hx
  have hchange : (Session.new s true).dispatcher.current ≠
      some ((c.view s.lookback).scope s.table) := by
    rintro ⟨⟩
  obtain ⟨-, hswitch, hsent⟩ :=
    Dispatcher.cursorMoved_of_change hfits.enabled hexcluded hchange
  show (b.cursor s now c).2 = _
  rw [cursor_of_prompt hq hon, dispatch, hsession]
  simp only [effectsOf, hswitch, hsent]
  rfl

/-- **The host and the file agree.**  Without a time of rest, and while switching is on, the cursor
of an event that tells of a place in the text of a file, in a new session and in a language that is
not left alone, makes the switchboard tell the host exactly the scope that the command gives for that
place in the file. -/
theorem handle_eq_classifyFile (hq : s.quiet = 0) (hon : b.enabled = true) {c : CursorEvent}
    (hnew : b.sessions.find? c.session = none) (hx : c.language ∉ s.excluded)
    (hkind : c.contentKind = none) {bytes : List UInt8} {text : List Char}
    (hfile : DiskFault.textOf bytes = .ok text) (htells : c.TellsOf text s.lookback)
    (path : String) (now : Nat) :
    ∃ finding, s.classifyFile (some c.language) path (.ok bytes) c.line c.column = .ok finding ∧
      (b.handle s now (.host (.cursor c))).2 =
        [.request (.switch (s.layouts.of finding.scope)),
          .message (.mode c.session finding.scope.name (s.layouts.of finding.scope))] := by
  refine ⟨_, s.classifyFile_of_textOf hfile c.language path c.line c.column, ?_⟩
  have hleft : c.isLeftAlone s = false := by
    simp [CursorEvent.isLeftAlone, hkind, hx]
  have hscope : c.scope s = (s.classifyText c.language text c.line c.column).scope :=
    congrArg Finding.scope (CursorEvent.classifyLines_of_tellsOf htells)
  rw [handle_cursor_of_new hq hon hnew hleft now, CursorEvent.modeMessage, hscope]

/-- The settings of the small case with a window of one line. -/
def narrow : Settings :=
  { Settings.small 0 with lookback := 1 }

/-- A cursor in the third line of a text, sent with the line above and the line below it. -/
def sliceCursor : CursorEvent where
  session := "a"
  language := "c"
  line := 2
  column := 6
  lines := ["b", "c // é", "d"]
  firstLine := 1
  contentKind := none

/-- The text of the file that the slice is of. -/
def sliceText : List Char :=
  "/* a\r\nb\nc // é\nd".toList

set_option maxRecDepth 2000 in
theorem textOf_sliceText : DiskFault.textOf (Text.Utf8.encode sliceText) = .ok sliceText := by
  rfl

theorem tellsOf_sliceText : sliceCursor.TellsOf sliceText narrow.lookback :=
  ⟨by decide, 3, by decide, rfl⟩

/-- The slice starts at the edge of the window, below a block that is open in the whole file. -/
theorem handle_sliceCursor_eq_classifyFile :
    ∃ finding, narrow.classifyFile (some "c") "a.txt"
        (.ok (Text.Utf8.encode sliceText)) 2 6 = .ok finding ∧
      ((initial narrow).handle narrow 0 (.host (.cursor sliceCursor))).2 =
        [.request (.switch (narrow.layouts.of finding.scope)),
          .message (.mode "a" finding.scope.name (narrow.layouts.of finding.scope))] :=
  handle_eq_classifyFile (s := narrow) (b := initial narrow) (c := sliceCursor) rfl rfl rfl
    (by decide) rfl textOf_sliceText tellsOf_sliceText "a.txt" 0

end Switchboard

end CaretLayout
