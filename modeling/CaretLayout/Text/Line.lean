/-!
# Lines

A sequence is cut into segments at a separator; only the last segment can lack it.  Three readers
are built on the cut: the lines of a text (`lines`), and a buffer that receives a byte stream in
chunks and gives out each segment when its separator has arrived (`Buffer`).
-/

namespace CaretLayout.Text

/-- A piece of a sequence up to a separator. -/
structure Segment (α : Type) where
  /-- What stands before the separator. -/
  body : List α
  /-- Whether the separator is there. -/
  ended : Bool
deriving DecidableEq, Repr

namespace Segment

variable {α : Type}

/-- Puts symbols before a segment. -/
def prepend (front : List α) (s : Segment α) : Segment α :=
  { s with body := front ++ s.body }

/-- The number of symbols, the separator included. -/
def size (s : Segment α) : Nat :=
  s.body.length + (if s.ended then 1 else 0)

end Segment

variable {α : Type} [BEq α]

/-- Cuts a sequence after each `separator`. -/
def segments (separator : α) : List α → List (Segment α)
  | [] => []
  | c :: rest =>
    if c == separator then ⟨[], true⟩ :: segments separator rest
    else
      match segments separator rest with
      | [] => [⟨[c], false⟩]
      | s :: more => s.prepend [c] :: more

/-- The text of a segment as a line: a carriage return directly before the line feed belongs to
the line end. -/
def Segment.line (s : Segment Char) : List Char :=
  if s.ended && s.body.getLast? == some '\r' then s.body.dropLast else s.body

/-- The lines of a text, without their line ends. -/
def lines (text : List Char) : List (List Char) :=
  (segments '\n' text).map Segment.line

/-- The line feed as a byte. -/
def lineFeed : UInt8 := 10

/-! ### Lines of a stream that arrives in chunks -/

/-- The bytes since the last line feed, the latest first. -/
structure Buffer where
  latest : List UInt8 := []
deriving DecidableEq, Repr

namespace Buffer

/-- Takes in the segments of a chunk: each that has its line feed is given out, the first of them
with the bytes that were waiting; an unfinished one waits. -/
def feedSegments : Buffer → List (Segment UInt8) → Buffer × List (Segment UInt8)
  | b, [] => (b, [])
  | b, s :: more =>
    if s.ended then
      let (after, out) := feedSegments {} more
      (after, s.prepend b.latest.reverse :: out)
    else feedSegments ⟨s.body.reverse ++ b.latest⟩ more

/-- Takes in a chunk and gives out the segments that it completes. -/
def feed (b : Buffer) (chunk : List UInt8) : Buffer × List (Segment UInt8) :=
  feedSegments b (segments lineFeed chunk)

/-- The unfinished segment at the end of the stream, if bytes are waiting. -/
def rest (b : Buffer) : Option (Segment UInt8) :=
  if b.latest.isEmpty then none else some ⟨b.latest.reverse, false⟩

/-- Takes in chunks one after another. -/
def feedAll : Buffer → List (List UInt8) → Buffer × List (Segment UInt8)
  | b, [] => (b, [])
  | b, chunk :: more =>
    let (mid, first) := b.feed chunk
    let (after, later) := feedAll mid more
    (after, first ++ later)

end Buffer

end CaretLayout.Text
