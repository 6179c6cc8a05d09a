import CaretLayout.Emulator.Shell.Token

/-!
# Reading scripts

Commands are read from the tokens of a script.  Words such as `if` and `done` have their meaning
only where a command could start.
-/

namespace CaretLayout.Emulator.Shell

/-- The text of a word that has nothing quoted and nothing to be expanded. -/
def bare? : List RawPiece → Option (List Char)
  | [] => some []
  | .text false s :: rest => (bare? rest).map (s ++ ·)
  | _ => none

/-- The plain word that a token is. -/
def plain? : Token → Option String
  | .word pieces => (bare? pieces).map String.ofList
  | _ => none

/-- The words that end a list of commands, or stand inside a command. -/
def closers : List String :=
  ["then", "elif", "else", "fi", "do", "done", "esac", "\x7d"]

/-- The variable that a word assigns to, and the word that it assigns. -/
def assignmentFrom : List Char → List RawPiece → Option (String × List RawPiece)
  | name, .text false [c] :: rest =>
    if c = '=' then
      if name.isEmpty || name.head?.any Char.isDigit then none
      else some (String.ofList name, rest)
    else if isNameChar c then assignmentFrom (name ++ [c]) rest
    else none
  | _, _ => none

/-- Leaves out the line feeds at the front. -/
def skipNewlines : List Token → List Token
  | .sign "\n" :: rest => skipNewlines rest
  | tokens => tokens

/-- Leaves out the signs at the front that separate commands. -/
def skipSeparators : List Token → List Token
  | .sign "\n" :: rest => skipSeparators rest
  | .sign ";" :: rest => skipSeparators rest
  | tokens => tokens

/-- Whether a list of commands ends here. -/
def atEnd : List Token → Bool
  | [] => true
  | .sign s :: _ => s = ")" || s = ";;"
  | t :: _ => (plain? t).any closers.contains

/-- Expects a plain word. -/
def expect (word : String) : List Token → Option (List Token)
  | t :: rest => if plain? t = some word then some rest else none
  | [] => none

/-- A simple command as far as it has been read. -/
structure Parts where
  assignments : List (String × Word) := []
  words : List Word := []
  redirects : List Redirect := []

mutual

/-- Reads a piece. -/
def readPiece : Nat → RawPiece → Option Piece
  | 0, _ => none
  | fuel + 1, piece =>
    match piece with
    | .text quoted s => some (.text quoted s)
    | .variable quoted name => some (.variable quoted name)
    | .arithmetic quoted expression => some (.arithmetic quoted expression)
    | .output quoted text => do
      let l ← tokens (text.length + 1) text
      let (script, rest) ← readList fuel l
      if rest.isEmpty then some (.output quoted script) else none

/-- Reads the pieces of a word. -/
def readPieces : Nat → List RawPiece → Option Word
  | 0, _ => none
  | fuel + 1, pieces => pieces.mapM (readPiece fuel)

/-- Reads commands up to the end of the list. -/
def readList : Nat → List Token → Option (Script × List Token)
  | 0, _ => none
  | fuel + 1, l =>
    let l := skipSeparators l
    if atEnd l then some ([], l)
    else do
      let (command, rest) ← readChain fuel l
      match rest with
      | .sign ";" :: _ => continueList fuel command rest
      | .sign "\n" :: _ => continueList fuel command rest
      | _ => if atEnd rest then some ([command], rest) else none

/-- Reads further commands. -/
def continueList : Nat → Command → List Token → Option (Script × List Token)
  | 0, _, _ => none
  | fuel + 1, command, l => do
    let (more, rest) ← readList fuel l
    return (command :: more, rest)

/-- Reads commands joined by `&&` and `||`. -/
def readChain : Nat → List Token → Option (Command × List Token)
  | 0, _ => none
  | fuel + 1, l => do
    let (first, rest) ← readPipe fuel l
    readChainAfter fuel first rest

/-- Reads what is joined to a command. -/
def readChainAfter : Nat → Command → List Token → Option (Command × List Token)
  | 0, _, _ => none
  | fuel + 1, first, l =>
    match l with
    | .sign "&&" :: rest => do
      let (second, rest) ← readPipe fuel (skipNewlines rest)
      readChainAfter fuel (.both first second) rest
    | .sign "||" :: rest => do
      let (second, rest) ← readPipe fuel (skipNewlines rest)
      readChainAfter fuel (.either first second) rest
    | _ => some (first, l)

/-- Reads commands joined by pipes, negated or not. -/
def readPipe : Nat → List Token → Option (Command × List Token)
  | 0, _ => none
  | fuel + 1, l =>
    match expect "!" l with
    | some rest => do
      let (command, rest) ← readPipe fuel rest
      return (.negated command, rest)
    | none => do
      let (first, rest) ← readCommand fuel l
      match rest with
      | .sign "|" :: rest =>
        let (second, rest) ← readPipe fuel (skipNewlines rest)
        return (.pipe first second, rest)
      | _ => return (first, rest)

/-- Reads one command. -/
def readCommand : Nat → List Token → Option (Command × List Token)
  | 0, _ => none
  | fuel + 1, l =>
    match l with
    | .sign "(" :: rest => do
      let (body, rest) ← readList fuel rest
      match rest with
      | .sign ")" :: rest =>
        let (redirects, rest) ← readRedirects fuel rest
        return (.subshell body redirects, rest)
      | _ => none
    | t :: rest =>
      match plain? t with
      | some "if" => readChoice fuel rest
      | some "while" => readLoop fuel false rest
      | some "until" => readLoop fuel true rest
      | some "for" => readEach fuel rest
      | some "case" => readCases fuel rest
      | some "\x7b" => do
        let (body, rest) ← readList fuel rest
        let rest ← expect "\x7d" rest
        let (redirects, rest) ← readRedirects fuel rest
        return (.group body redirects, rest)
      | some word => if closers.contains word then none else readSimple fuel {} l
      | none => readSimple fuel {} l
    | [] => none

/-- Reads the branches of a condition, whose first word has been read. -/
def readChoice : Nat → List Token → Option (Command × List Token)
  | 0, _ => none
  | fuel + 1, l => do
    let (condition, rest) ← readList fuel l
    let rest ← expect "then" rest
    let (body, rest) ← readList fuel rest
    match expect "fi" rest with
    | some rest => return (.choice [(condition, body)] [], rest)
    | none =>
      match expect "else" rest with
      | some rest =>
        let (otherwise, rest) ← readList fuel rest
        let rest ← expect "fi" rest
        return (.choice [(condition, body)] otherwise, rest)
      | none =>
        let rest ← expect "elif" rest
        let (other, rest) ← readChoice fuel rest
        return (.choice [(condition, body)] [other], rest)

/-- Reads a loop, whose first word has been read. -/
def readLoop : Nat → Bool → List Token → Option (Command × List Token)
  | 0, _, _ => none
  | fuel + 1, whileFails, l => do
    let (condition, rest) ← readList fuel l
    let rest ← expect "do" rest
    let (body, rest) ← readList fuel rest
    let rest ← expect "done" rest
    let (redirects, rest) ← readRedirects fuel rest
    return (.loop whileFails condition body redirects, rest)

/-- Reads a loop over words, whose first word has been read. -/
def readEach : Nat → List Token → Option (Command × List Token)
  | 0, _ => none
  | fuel + 1, l =>
    match l with
    | t :: rest => do
      let name ← plain? t
      let rest ← expect "in" rest
      let (words, rest) ← readWords fuel rest
      let rest ← expect "do" (skipSeparators rest)
      let (body, rest) ← readList fuel rest
      let rest ← expect "done" rest
      return (.each name words body, rest)
    | [] => none

/-- Reads words as far as they go. -/
def readWords : Nat → List Token → Option (List Word × List Token)
  | 0, _ => none
  | fuel + 1, l =>
    match l with
    | .word pieces :: rest => do
      let word ← readPieces fuel pieces
      let (words, rest) ← readWords fuel rest
      return (word :: words, rest)
    | _ => some ([], l)

/-- Reads a choice by pattern, whose first word has been read. -/
def readCases : Nat → List Token → Option (Command × List Token)
  | 0, _ => none
  | fuel + 1, l =>
    match l with
    | .word pieces :: rest => do
      let word ← readPieces fuel pieces
      let rest ← expect "in" (skipNewlines rest)
      let (arms, rest) ← readArms fuel (skipNewlines rest)
      return (.cases word arms, rest)
    | _ => none

/-- Reads the arms of a choice by pattern up to its last word. -/
def readArms : Nat → List Token → Option (List (List Word × Script) × List Token)
  | 0, _ => none
  | fuel + 1, l =>
    match expect "esac" l with
    | some rest => some ([], rest)
    | none => do
      let l := match l with
        | .sign "(" :: rest => rest
        | _ => l
      let (patterns, rest) ← readPatterns fuel l
      let (body, rest) ← readList fuel rest
      let rest := match rest with
        | .sign ";;" :: rest => skipNewlines rest
        | _ => rest
      let (arms, rest) ← readArms fuel rest
      return ((patterns, body) :: arms, rest)

/-- Reads the patterns of an arm up to its parenthesis. -/
def readPatterns : Nat → List Token → Option (List Word × List Token)
  | 0, _ => none
  | fuel + 1, l =>
    match l with
    | .word pieces :: .sign ")" :: rest => do
      let word ← readPieces fuel pieces
      return ([word], rest)
    | .word pieces :: .sign "|" :: rest => do
      let word ← readPieces fuel pieces
      let (words, rest) ← readPatterns fuel rest
      return (word :: words, rest)
    | _ => none

/-- Reads the redirection whose sign has been read. -/
def readRedirectTo : Nat → Nat → Direction → List Token → Option (Redirect × List Token)
  | 0, _, _, _ => none
  | fuel + 1, stream, direction, l =>
    match l with
    | .word pieces :: rest =>
      match direction with
      | .out => (readPieces fuel pieces).map fun w => (.toFile stream w, rest)
      | .into => (readPieces fuel pieces).map fun w => (.fromFile w, rest)
      | .outStream => do
        let name ← bare? pieces
        if name = ['-'] then some (.close stream, rest)
        else (String.ofList name).toNat?.map fun n => (.toStream stream n, rest)
    | _ => none

/-- Reads redirections as far as they go. -/
def readRedirects : Nat → List Token → Option (List Redirect × List Token)
  | 0, _ => none
  | fuel + 1, l =>
    match l with
    | .redirect stream direction :: rest => do
      let (redirect, rest) ← readRedirectTo fuel stream direction rest
      let (redirects, rest) ← readRedirects fuel rest
      return (redirect :: redirects, rest)
    | _ => some ([], l)

/-- Reads a simple command. -/
def readSimple : Nat → Parts → List Token → Option (Command × List Token)
  | 0, _, _ => none
  | fuel + 1, parts, l =>
    match l with
    | .redirect stream direction :: rest => do
      let (redirect, rest) ← readRedirectTo fuel stream direction rest
      readSimple fuel { parts with redirects := parts.redirects ++ [redirect] } rest
    | .word pieces :: rest =>
      match if parts.words.isEmpty then assignmentFrom [] pieces else none with
      | some (name, value) => do
        let word ← readPieces fuel value
        readSimple fuel { parts with assignments := parts.assignments ++ [(name, word)] } rest
      | none => do
        let word ← readPieces fuel pieces
        readSimple fuel { parts with words := parts.words ++ [word] } rest
    | _ => some (.simple parts.assignments parts.words parts.redirects, l)

end

/-- Reads a whole script. -/
def read? (text : List Char) : Option Script := do
  let l ← tokens (text.length + 1) text
  let (script, rest) ← readList (8 * text.length + 16) l
  if rest.isEmpty then some script else none

end CaretLayout.Emulator.Shell
