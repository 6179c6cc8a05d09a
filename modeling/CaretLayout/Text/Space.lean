/-!
# White space

Two classes of characters that are dropped at the ends of a text: the Unicode property White_Space
(`isSpace`), and the characters that end a line (`isLineEnd`).
-/

namespace CaretLayout.Text

/-- The Unicode property White_Space. -/
def isSpace (c : Char) : Bool :=
  let n := c.toNat
  (9 ≤ n && n ≤ 13) || n == 0x20 || n == 0x85 || n == 0xA0 || n == 0x1680
    || (0x2000 ≤ n && n ≤ 0x200A) || n == 0x2028 || n == 0x2029 || n == 0x202F || n == 0x205F
    || n == 0x3000

/-- A carriage return or a line feed. -/
def isLineEnd (c : Char) : Bool :=
  c == '\r' || c == '\n'

/-- The text without the characters of a class at its end. -/
def dropEndWhile (p : Char → Bool) (text : List Char) : List Char :=
  (text.reverse.dropWhile p).reverse

/-- The text without white space at either end. -/
def trim (text : List Char) : List Char :=
  dropEndWhile isSpace (text.dropWhile isSpace)

end CaretLayout.Text
