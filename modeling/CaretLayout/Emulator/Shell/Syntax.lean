/-!
# Scripts

The form of shell scripts: words made of pieces that are expanded when the script runs, and commands
made of words.  It covers what small agents are written in: simple commands, lists, conditions,
loops, choices by pattern, pipes, and redirections of the output.
-/

namespace CaretLayout.Emulator.Shell

mutual

/-- A piece of a word. -/
inductive Piece where
  /-- Text as it stands, and whether it is quoted. -/
  | text (quoted : Bool) (s : List Char)
  /-- The value of a variable or parameter. -/
  | variable (quoted : Bool) (name : String)
  /-- The value of an arithmetic expression. -/
  | arithmetic (quoted : Bool) (expression : List Char)
  /-- What a script prints. -/
  | output (quoted : Bool) (script : List Command)

/-- A redirection of a stream. -/
inductive Redirect where
  /-- To a file. -/
  | toFile (stream : Nat) (file : List Piece)
  /-- To where another stream goes. -/
  | toStream (stream other : Nat)
  /-- To nowhere. -/
  | close (stream : Nat)
  /-- The input comes from a file. -/
  | fromFile (file : List Piece)

/-- A command. -/
inductive Command where
  | simple (assignments : List (String × List Piece)) (words : List (List Piece))
      (redirects : List Redirect)
  | both (first second : Command)
  | either (first second : Command)
  | negated (command : Command)
  | pipe (first second : Command)
  | group (body : List Command) (redirects : List Redirect)
  | subshell (body : List Command) (redirects : List Redirect)
  | choice (branches : List (List Command × List Command)) (otherwise : List Command)
  | loop (whileFails : Bool) (condition body : List Command) (redirects : List Redirect)
  | each (name : String) (words : List (List Piece)) (body : List Command)
  | cases (word : List Piece) (arms : List (List (List Piece) × List Command))

end

/-- A word. -/
abbrev Word := List Piece

/-- A script. -/
abbrev Script := List Command

end CaretLayout.Emulator.Shell
