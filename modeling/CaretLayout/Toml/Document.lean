import CaretLayout.Toml.Quoted
import CaretLayout.Toml.Scalar
import CaretLayout.Toml.Tree

/-!
# Reading TOML documents

The reader turns a text into statements and the statements into a tree.  A document is read
completely or not at all, so the reader does not say what is wrong with a text.  Line ends, comments
and a final comma may stand in arrays and in inline tables.  A value holds at most 80 arrays and
inline tables inside one another, and a key has at most 80 parts.
-/

namespace CaretLayout.Toml

/-- The most containers that may stand inside one another, and the most parts of a key. -/
def maxNesting : Nat := 80

/-- A character of a bare key. -/
def isKeyChar (c : Char) : Bool :=
  c.isAlphanum || c == '_' || c == '-'

/-- One part of a key, bare or quoted. -/
def readKeyPart (text : List Char) : Option (String × List Char) :=
  match text with
  | '"' :: _ => readString false text
  | '\'' :: _ => readString false text
  | _ =>
    let part := text.takeWhile isKeyChar
    if part.isEmpty then none else some (String.ofList part, text.dropWhile isKeyChar)

/-- The parts of a key separated by dots, with the white space around them. -/
def readKeyParts : Nat → List Char → Option (List String × List Char)
  | 0, _ => none
  | fuel + 1, text => do
    let (part, rest) ← readKeyPart (skipBlank text)
    match skipBlank rest with
    | '.' :: rest =>
      let (parts, rest) ← readKeyParts fuel rest
      return (part :: parts, rest)
    | rest => return ([part], rest)

/-- A key. -/
def readKey (text : List Char) : Option (List String × List Char) :=
  readKeyParts maxNesting text

mutual

/-- A value, with `depth` containers allowed. -/
def readValue : Nat → Nat → List Char → Option (Toml × List Char)
  | 0, _, _ => none
  | fuel + 1, depth, text =>
    match text with
    | '[' :: rest =>
      match depth with
      | 0 => none
      | depth + 1 => do
        let (items, rest) ← readItems fuel depth rest
        return (.array items, rest)
    | '{' :: rest =>
      match depth with
      | 0 => none
      | depth + 1 => do
        let (assignments, rest) ← readAssignments fuel depth rest
        let table ← ofAssignments assignments
        return (table, rest)
    | '"' :: _ => (readString true text).map fun r => (.string r.1, r.2)
    | '\'' :: _ => (readString true text).map fun r => (.string r.1, r.2)
    | _ => Scalar.read text

/-- The items of an array up to its closing bracket. -/
def readItems : Nat → Nat → List Char → Option (List Toml × List Char)
  | 0, _, _ => none
  | fuel + 1, depth, text =>
    match skipSpace text with
    | ']' :: rest => some ([], rest)
    | text => do
      let (item, rest) ← readValue fuel depth text
      match skipSpace rest with
      | ']' :: rest => return ([item], rest)
      | ',' :: rest =>
        let (items, rest) ← readItems fuel depth rest
        return (item :: items, rest)
      | _ => none

/-- The assignments of an inline table up to its closing brace. -/
def readAssignments : Nat → Nat → List Char → Option (List (List String × Toml) × List Char)
  | 0, _, _ => none
  | fuel + 1, depth, text =>
    match skipSpace text with
    | '}' :: rest => some ([], rest)
    | text => do
      let (key, rest) ← readKey text
      match rest with
      | '=' :: rest =>
        let (value, rest) ← readValue fuel depth (skipBlank rest)
        match skipSpace rest with
        | '}' :: rest => return ([(key, value)], rest)
        | ',' :: rest =>
          let (assignments, rest) ← readAssignments fuel depth rest
          return ((key, value) :: assignments, rest)
        | _ => none
      | _ => none

end

/-- The statement on a line that is not blank, and what follows it on the line. -/
def readStatement (fuel : Nat) (text : List Char) : Option (Statement × List Char) :=
  match text with
  | '[' :: '[' :: rest => do
    let (path, rest) ← readKey rest
    match rest with
    | ']' :: ']' :: rest => return (.addTable path, rest)
    | _ => none
  | '[' :: rest => do
    let (path, rest) ← readKey rest
    match rest with
    | ']' :: rest => return (.openTable path, rest)
    | _ => none
  | _ => do
    let (key, rest) ← readKey text
    match rest with
    | '=' :: rest =>
      let (value, rest) ← readValue fuel maxNesting (skipBlank rest)
      return (.assign key value, rest)
    | _ => none

/-- The statements of a document. -/
def readStatements : Nat → List Char → Option (List Statement)
  | 0, _ => none
  | fuel + 1, text =>
    match skipSpace text with
    | [] => some []
    | text => do
      let (statement, rest) ← readStatement fuel text
      let rest ← endLine? rest
      let more ← readStatements fuel rest
      return statement :: more

/-- The fuel that is enough for the statements of a text and for their values: a container opens with
a character, and each item and each statement takes at least one. -/
def fuelFor (text : List Char) : Nat :=
  2 * text.length + 3

/-- The tree of a document.  A byte order mark at its front is skipped. -/
def read (text : List Char) : Option Toml := do
  let text := if text.head? = some (Char.ofNat 0xFEFF) then text.drop 1 else text
  let statements ← readStatements (fuelFor text) text
  ofStatements statements

end CaretLayout.Toml
