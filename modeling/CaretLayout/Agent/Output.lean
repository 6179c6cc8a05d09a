import CaretLayout.Agent.Router
import CaretLayout.Text.Line
import CaretLayout.Text.Utf8

/-!
# What the agent prints

The output streams of the agent are cut at line feeds, whatever the division of their bytes into
reads.  A line loses the carriage returns and line feeds at its end; bytes that are not text are
replaced.  Lines of the standard output are routed to the subscribers, and lines of the error output
are reported unless they are empty.
-/

namespace CaretLayout.AgentOutput

/-- The text of a segment. -/
def lineOf (s : Text.Segment UInt8) : List Char :=
  Text.dropEndWhile Text.isLineEnd (Text.Utf8.decodeLossy s.body)

/-- The segments of a stream that has ended, the unfinished one at its end included. -/
def segments (chunks : List (List UInt8)) : List (Text.Segment UInt8) :=
  let (buffer, finished) := Text.Buffer.feedAll {} chunks
  finished ++ buffer.rest.toList

/-- The lines of a stream that has ended. -/
def lines (chunks : List (List UInt8)) : List (List Char) :=
  (segments chunks).map lineOf

/-- The lines of a stream that are worth reporting. -/
def reported (lines : List (List Char)) : List (List Char) :=
  lines.filter (!·.isEmpty)

/-- Routes lines one after another. -/
def routeAll {σ ν : Type} (react : Reaction σ ν) :
    σ → Router ν → List (List Char) → σ × Router ν
  | s, r, [] => (s, r)
  | s, r, line :: more =>
    let o := r.route react s line
    routeAll react o.state o.router more

end CaretLayout.AgentOutput
