import CaretLayout.Command.Classify
import CaretLayout.Proofs.Text.Utf8

/-!
# Line ends

A line may end with a line feed or with a carriage return and a line feed, and a text may mix both.
`withReturns` puts a carriage return before any choice of the line feeds of a text.  Where the text has
no carriage returns of its own the lines stay the same (`lines_withReturns`), so a place in a file is
judged alike with either kind of line ends (`classifyFile_withReturns`).
-/

namespace CaretLayout

namespace Text

/-- The text with a carriage return before each line feed that is chosen, the line feeds being counted
from zero. -/
def withReturns (chosen : Nat → Bool) : List Char → List Char
  | [] => []
  | c :: text =>
    if c = '\n' then
      (if chosen 0 then ['\r', '\n'] else ['\n']) ++ withReturns (fun i => chosen (i + 1)) text
    else c :: withReturns chosen text

/-! ### The lines, character by character -/

theorem Segment.line_prepend {c : Char} (hc : c ≠ '\r') (s : Segment Char) :
    (s.prepend [c]).line = c :: s.line := by
  obtain ⟨body, ended⟩ := s
  rcases body with _ | ⟨d, body⟩
  · simp [Segment.line, Segment.prepend, hc]
  · simp only [Segment.line, Segment.prepend, List.singleton_append, List.getLast?_cons_cons,
      List.dropLast_cons_cons]
    split <;> rfl

theorem lines_lineFeed_cons (text : List Char) : lines ('\n' :: text) = [] :: lines text := rfl

/-- A carriage return before a line feed belongs to the line end. -/
theorem lines_return_lineFeed_cons (text : List Char) :
    lines ('\r' :: '\n' :: text) = [] :: lines text := rfl

/-- Any other character is put before the first line. -/
theorem lines_cons {c : Char} (hfeed : c ≠ '\n') (hreturn : c ≠ '\r') (text : List Char) :
    lines (c :: text) = (c :: (lines text).headD []) :: (lines text).tail := by
  have hne : ¬ (c == '\n') = true := fun h => hfeed (eq_of_beq h)
  rw [lines, lines, segments, if_neg hne]
  rcases segments '\n' text with _ | ⟨s, more⟩
  · rfl
  · rw [List.map_cons, List.map_cons, Segment.line_prepend hreturn]
    rfl

/-- **The lines stay** when carriage returns are put before line feeds. -/
theorem lines_withReturns {text : List Char} (h : '\r' ∉ text) (chosen : Nat → Bool) :
    lines (withReturns chosen text) = lines text := by
  induction text generalizing chosen with
  | nil => rfl
  | cons c text ih =>
    have htext : '\r' ∉ text := fun hm => h (List.mem_cons_of_mem c hm)
    by_cases hfeed : c = '\n'
    · subst hfeed
      rw [withReturns, if_pos rfl, lines_lineFeed_cons, ← ih htext fun i => chosen (i + 1)]
      cases chosen 0 with
      | true => exact lines_return_lineFeed_cons _
      | false => exact lines_lineFeed_cons _
    · have hreturn : c ≠ '\r' := fun hc => h (hc ▸ List.mem_cons_self)
      rw [withReturns, if_neg hfeed, lines_cons hfeed hreturn, lines_cons hfeed hreturn,
        ih htext chosen]

end Text

namespace Settings

open Text (withReturns lines_withReturns)

/-- A file that is written in UTF-8 is classified as its text is. -/
theorem classifyFile_encode (s : Settings) (language : Option String) (path : String)
    (text : List Char) (line column : Nat) :
    s.classifyFile language path (.ok (Text.Utf8.encode text)) line column =
      .ok (s.classifyText (languageOfFile language path) text line column) :=
  s.classifyFile_ok (DiskFault.textOf_encode text) language path line column

/-- **Line ends do not matter**: a file whose text has no carriage return is classified, and every place
in it and past its end has the same finding when any of its line feeds are replaced by a carriage
return and a line feed. -/
theorem classifyFile_withReturns (s : Settings) (language : Option String) (path : String)
    {text : List Char} (h : '\r' ∉ text) (chosen : Nat → Bool) (line column : Nat) :
    ∃ finding,
      s.classifyFile language path (.ok (Text.Utf8.encode text)) line column = .ok finding ∧
      s.classifyFile language path (.ok (Text.Utf8.encode (withReturns chosen text))) line column =
        .ok finding := by
  refine ⟨_, classifyFile_encode s language path text line column, ?_⟩
  rw [classifyFile_encode, classifyText, lines_withReturns h]
  rfl

/-- A text whose last line is not ended. -/
def unendedText : List Char :=
  "é /*\n\n*/ x\n/*".toList

/-- The first and the last line feed are written with a carriage return, and the cursor is behind a
delimiter at the end of the first line. -/
theorem classifyFile_withReturns_unendedText :
    withReturns (· != 1) unendedText = "é /*\r\n\n*/ x\r\n/*".toList ∧
    ∃ finding,
      (({} : Config).settings ".").classifyFile none "a.c" (.ok (Text.Utf8.encode unendedText)) 1 9 =
        .ok finding ∧
      (({} : Config).settings ".").classifyFile none "a.c"
        (.ok (Text.Utf8.encode (withReturns (· != 1) unendedText))) 1 9 = .ok finding :=
  ⟨by decide, classifyFile_withReturns _ none "a.c" (by decide) (· != 1) 1 9⟩

end Settings

end CaretLayout
