import CaretLayout.Toml.Value

/-!
# White space, comments and strings of TOML

The tokens below the level of values.  A line ends with a line feed or a carriage return and a line
feed; a carriage return anywhere else is an error, and so are control characters other than the tab.
Readers return what they read with what is left of the text, or `none`.
-/

namespace CaretLayout.Toml

/-- A space or a tab. -/
def isBlank (c : Char) : Bool :=
  c == ' ' || c == '\t'

/-- The text after leading spaces and tabs. -/
def skipBlank (text : List Char) : List Char :=
  text.dropWhile isBlank

/-- A character that may stand in comments and strings. -/
def isPlain (c : Char) : Bool :=
  c == '\t' || (0x20 ≤ c.toNat && c.toNat != 0x7F)

/-- What follows a line end at the front of a text. -/
def lineEnd? : List Char → Option (List Char)
  | '\n' :: rest => some rest
  | '\r' :: '\n' :: rest => some rest
  | _ => none

/-- The text after a comment, if there is one. -/
def skipComment : List Char → List Char
  | '#' :: rest => rest.dropWhile isPlain
  | rest => rest

/-- What follows white space, a comment and a line end; the text may end instead. -/
def endLine? (text : List Char) : Option (List Char) :=
  match skipComment (skipBlank text) with
  | [] => some []
  | rest => lineEnd? rest

/-- The text after white space, comments and line ends, where a comment may have begun. -/
def skipSpaceFrom : (inComment : Bool) → List Char → List Char
  | _, [] => []
  | _, '\n' :: rest => skipSpaceFrom false rest
  | _, '\r' :: '\n' :: rest => skipSpaceFrom false rest
  | true, c :: rest => if isPlain c then skipSpaceFrom true rest else c :: rest
  | false, c :: rest =>
    if isBlank c then skipSpaceFrom false rest
    else if c = '#' then skipSpaceFrom true rest
    else c :: rest

/-- The text after white space, comments and line ends, as they stand between the parts of an array
or an inline table. -/
def skipSpace (text : List Char) : List Char :=
  skipSpaceFrom false text

/-! ### Escapes -/

/-- The value of a hexadecimal digit. -/
def hexValue? (c : Char) : Option Nat :=
  let n := c.toNat
  if 48 ≤ n ∧ n ≤ 57 then some (n - 48)
  else if 65 ≤ n ∧ n ≤ 70 then some (n - 55)
  else if 97 ≤ n ∧ n ≤ 102 then some (n - 87)
  else none

/-- A character given by `count` hexadecimal digits, with the number of characters that an escape
takes with its letter. -/
def readCodePoint (count : Nat) (text : List Char) : Option (Char × Nat) := do
  let ds ← (text.take count).mapM hexValue?
  let n := ds.foldl (fun n d => n * 16 + d) 0
  if ds.length = count ∧ n.isValidChar then some (Char.ofNat n, count + 1) else none

/-- The character of an escape, and how many characters after the backslash write it. -/
def readEscape : List Char → Option (Char × Nat)
  | [] => none
  | c :: rest =>
    if c = '"' ∨ c = '\\' then some (c, 1)
    else if c = 'b' then some ('\x08', 1)
    else if c = 'e' then some ('\x1b', 1)
    else if c = 'f' then some ('\x0c', 1)
    else if c = 'n' then some ('\n', 1)
    else if c = 'r' then some ('\r', 1)
    else if c = 't' then some ('\t', 1)
    else if c = 'x' then readCodePoint 2 rest
    else if c = 'u' then readCodePoint 4 rest
    else if c = 'U' then readCodePoint 8 rest
    else none

/-! ### Strings -/

/-- A character put before a text that was read. -/
def putBefore (c : Char) : Option (List Char × List Char) → Option (List Char × List Char)
  | some (text, rest) => some (c :: text, rest)
  | none => none

/-- A string on one line, up to its closing quote, after `pending` characters that belong to an escape
already read. -/
def readBasic : (pending : Nat) → List Char → Option (List Char × List Char)
  | _, [] => none
  | pending + 1, _ :: rest => readBasic pending rest
  | 0, c :: rest =>
    if c = '"' then some ([], rest)
    else if c = '\\' then
      match readEscape rest with
      | some (e, width) => putBefore e (readBasic width rest)
      | none => none
    else if isPlain c then putBefore c (readBasic 0 rest)
    else none

/-- A string without escapes on one line, up to its closing quote. -/
def readLiteral : List Char → Option (List Char × List Char)
  | [] => none
  | c :: rest =>
    if c = '\'' then some ([], rest)
    else if isPlain c then putBefore c (readLiteral rest)
    else none

/-- The end of a string over several lines at a quote.  Three quotes end it; up to two more before
them belong to it. -/
def closeLong (quote : Char) (text : List Char) : Option (List Char × List Char) :=
  let run := (text.takeWhile (· == quote)).length
  if run < 3 then none else
    let inside := min (run - 3) 2
    some (List.replicate inside quote, text.drop (inside + 3))

/-- How many characters a backslash at the end of a line joins: all white space up to the next text,
which holds a line end before anything else but blanks. -/
def joinWidth? (text : List Char) : Option Nat :=
  match lineEnd? (skipBlank text) with
  | some _ => some (text.takeWhile fun c => isBlank c || c == '\n' || c == '\r').length
  | none => none

/-- A string over several lines, up to its closing quotes, after `pending` characters that have been
read. -/
def readLongBasic : (pending : Nat) → List Char → Option (List Char × List Char)
  | _, [] => none
  | pending + 1, _ :: rest => readLongBasic pending rest
  | 0, c :: rest =>
    match closeLong '"' (c :: rest) with
    | some closed => some closed
    | none =>
      if c = '\\' then
        match joinWidth? rest with
        | some width => readLongBasic width rest
        | none =>
          match readEscape rest with
          | some (e, width) => putBefore e (readLongBasic width rest)
          | none => none
      else if isPlain c || c == '\n' || (c == '\r' && rest.head? == some '\n') then
        putBefore c (readLongBasic 0 rest)
      else none

/-- A string without escapes over several lines, up to its closing quotes. -/
def readLongLiteral : List Char → Option (List Char × List Char)
  | [] => none
  | c :: rest =>
    match closeLong '\'' (c :: rest) with
    | some closed => some closed
    | none =>
      if isPlain c || c == '\n' || (c == '\r' && rest.head? == some '\n') then
        putBefore c (readLongLiteral rest)
      else none

/-- The text without a line end at its front. -/
def dropFirstLineEnd (text : List Char) : List Char :=
  (lineEnd? text).getD text

/-- A string of any form, on one line only unless `long`. -/
def readString (long : Bool) (text : List Char) : Option (String × List Char) :=
  let found := match text with
    | '"' :: '"' :: '"' :: rest =>
      if long then readLongBasic 0 (dropFirstLineEnd rest) else none
    | '\'' :: '\'' :: '\'' :: rest =>
      if long then readLongLiteral (dropFirstLineEnd rest) else none
    | '"' :: rest => readBasic 0 rest
    | '\'' :: rest => readLiteral rest
    | _ => none
  found.map fun r => (String.ofList r.1, r.2)

end CaretLayout.Toml
