import CaretLayout.Emulator.Shell.Syntax

/-!
# Tokens of scripts

A script is cut into words, signs and redirections.  The pieces of a word are kept apart: what is
quoted, and what is to be expanded.  A script inside a word is kept as text with a reader for it, so
that tokens and commands can be read one after the other.
-/

namespace CaretLayout.Emulator.Shell

/-- A piece of a word before the scripts inside it are read. -/
inductive RawPiece where
  | text (quoted : Bool) (s : List Char)
  | variable (quoted : Bool) (name : String)
  | arithmetic (quoted : Bool) (expression : List Char)
  | output (quoted : Bool) (script : List Char)
deriving DecidableEq, Repr

/-- What a redirection does. -/
inductive Direction where
  | out
  | into
  | outStream
deriving DecidableEq, Repr

/-- A token. -/
inductive Token where
  | word (pieces : List RawPiece)
  | sign (s : String)
  | redirect (stream : Nat) (direction : Direction)
deriving DecidableEq, Repr

/-- A character of a name. -/
def isNameChar (c : Char) : Bool :=
  c.isAlphanum || c == '_'

/-- A character that ends a word. -/
def endsWord (c : Char) : Bool :=
  " \t\n;&|<>()".toList.contains c

/-- The text up to the parenthesis that closes `depth` open ones, and the rest after it. -/
def toClosing : Nat → List Char → Option (List Char × List Char)
  | _, [] => none
  | depth, '\'' :: rest =>
    let inside := rest.takeWhile (· != '\'')
    match h : rest.dropWhile (· != '\'') with
    | [] => none
    | _ :: after =>
      have : after.length < rest.length + 1 := by
        have := (List.dropWhile_suffix (l := rest) (· != '\'')).length_le
        simp only [h, List.length_cons] at this
        omega
      (toClosing depth after).map fun r => ('\'' :: inside ++ '\'' :: r.1, r.2)
  | depth, '\\' :: c :: rest => (toClosing depth rest).map fun r => ('\\' :: c :: r.1, r.2)
  | depth, '(' :: rest => (toClosing (depth + 1) rest).map fun r => ('(' :: r.1, r.2)
  | 0, ')' :: rest => some ([], rest)
  | depth + 1, ')' :: rest => (toClosing depth rest).map fun r => (')' :: r.1, r.2)
  | depth, c :: rest => (toClosing depth rest).map fun r => (c :: r.1, r.2)
termination_by _ text => text.length

/-- What a dollar sign, which has been read, stands for. -/
def readDollar (quoted : Bool) (text : List Char) : Option (RawPiece × List Char) :=
  match text with
  | '(' :: '(' :: rest => do
    let (expression, rest) ← toClosing 1 rest
    return (.arithmetic quoted expression.dropLast, rest)
  | '(' :: rest => do
    let (script, rest) ← toClosing 0 rest
    return (.output quoted script, rest)
  | '{' :: rest =>
    let name := rest.takeWhile isNameChar
    match rest.dropWhile isNameChar with
    | '}' :: rest => some (.variable quoted (String.ofList name), rest)
    | _ => none
  | c :: rest =>
    if c.isDigit || "?$#@*!".toList.contains c then
      some (.variable quoted (String.ofList [c]), rest)
    else if isNameChar c then
      some (.variable quoted (String.ofList (text.takeWhile isNameChar)),
        text.dropWhile isNameChar)
    else some (.text quoted ['$'], text)
  | [] => some (.text quoted ['$'], [])

/-- The pieces between double quotes, whose first has been read. -/
def readQuoted : Nat → List Char → Option (List RawPiece × List Char)
  | 0, _ => none
  | fuel + 1, text =>
    match text with
    | [] => none
    | '"' :: rest => some ([], rest)
    | '$' :: rest => do
      let (piece, rest) ← readDollar true rest
      let (pieces, rest) ← readQuoted fuel rest
      return (piece :: pieces, rest)
    | '\\' :: '\n' :: rest => readQuoted fuel rest
    | '\\' :: c :: rest => do
      let (pieces, rest) ← readQuoted fuel rest
      let s := if "$\"\\\x60".toList.contains c then [c] else ['\\', c]
      return (.text true s :: pieces, rest)
    | c :: rest => do
      let (pieces, rest) ← readQuoted fuel rest
      return (.text true [c] :: pieces, rest)

/-- The pieces of a word. -/
def readWord : Nat → List Char → Option (List RawPiece × List Char)
  | 0, _ => none
  | fuel + 1, text =>
    match text with
    | [] => some ([], [])
    | '\'' :: rest => do
      let inside := rest.takeWhile (· != '\'')
      match rest.dropWhile (· != '\'') with
      | [] => none
      | _ :: rest =>
        let (pieces, rest) ← readWord fuel rest
        return (.text true inside :: pieces, rest)
    | '"' :: rest => do
      let (inside, rest) ← readQuoted fuel rest
      let (pieces, rest) ← readWord fuel rest
      return (.text true [] :: inside ++ pieces, rest)
    | '$' :: rest => do
      let (piece, rest) ← readDollar false rest
      let (pieces, rest) ← readWord fuel rest
      return (piece :: pieces, rest)
    | '\\' :: '\n' :: rest => readWord fuel rest
    | '\\' :: c :: rest => do
      let (pieces, rest) ← readWord fuel rest
      return (.text true [c] :: pieces, rest)
    | c :: rest =>
      if endsWord c then some ([], text)
      else do
        let (pieces, rest) ← readWord fuel rest
        return (.text false [c] :: pieces, rest)

/-- The redirection at the front of a text, with the number of the stream before it. -/
def readRedirect (number : List Char) (text : List Char) : Option (Token × List Char) :=
  let stream := fun (usual : Nat) => (String.ofList number).toNat?.getD usual
  match text with
  | '>' :: '&' :: rest => some (.redirect (stream 1) .outStream, rest)
  | '>' :: '>' :: rest => some (.redirect (stream 1) .out, rest)
  | '>' :: '|' :: rest => some (.redirect (stream 1) .out, rest)
  | '>' :: rest => some (.redirect (stream 1) .out, rest)
  | '<' :: '<' :: _ => none
  | '<' :: rest => some (.redirect (stream 0) .into, rest)
  | _ => none

/-- The signs, the longer ones first. -/
def signs : List String :=
  ["&&", "||", ";;", ";", "&", "|", "(", ")", "\n"]

/-- The sign at the front of a text. -/
def sign? (text : List Char) : Option String :=
  signs.find? fun s => s.toList.isPrefixOf text

/-- The tokens of a script. -/
def tokens : Nat → List Char → Option (List Token)
  | 0, _ => none
  | fuel + 1, text =>
    match text with
    | [] => some []
    | ' ' :: rest => tokens fuel rest
    | '\t' :: rest => tokens fuel rest
    | '\\' :: '\n' :: rest => tokens fuel rest
    | '#' :: rest => tokens fuel (rest.dropWhile (· != '\n'))
    | _ =>
      match sign? text with
      | some s => (tokens fuel (text.drop s.length)).map (.sign s :: ·)
      | none => do
        let number := text.takeWhile Char.isDigit
        match readRedirect number (text.drop number.length) with
        | some (token, rest) => (tokens fuel rest).map (token :: ·)
        | none =>
          if text.head?.any endsWord then none
          else do
            let (pieces, rest) ← readWord (text.length + 1) text
            (tokens fuel rest).map (.word pieces :: ·)

end CaretLayout.Emulator.Shell
