/-!
# Arithmetic in scripts

Expressions over whole numbers with addition, subtraction, multiplication, division, remainder,
comparisons and parentheses.  Division is towards zero, and by zero it fails.
-/

namespace CaretLayout.Emulator.Shell.Arithmetic

/-- Leaves out white space at the front. -/
def skip (text : List Char) : List Char :=
  text.dropWhile fun c => c == ' ' || c == '\t' || c == '\n'

/-- The truth of a comparison as a number. -/
def truth (b : Bool) : Int :=
  if b then 1 else 0

/-- The operation that a sign stands for, at each level of binding. -/
def operation (level : Nat) (text : List Char) : Option ((Int → Int → Option Int) × List Char) :=
  match level, text with
  | 0, '=' :: '=' :: rest => some (fun a b => some (truth (a == b)), rest)
  | 0, '!' :: '=' :: rest => some (fun a b => some (truth (a != b)), rest)
  | 1, '<' :: '=' :: rest => some (fun a b => some (truth (a ≤ b)), rest)
  | 1, '>' :: '=' :: rest => some (fun a b => some (truth (b ≤ a)), rest)
  | 1, '<' :: rest => some (fun a b => some (truth (a < b)), rest)
  | 1, '>' :: rest => some (fun a b => some (truth (b < a)), rest)
  | 2, '+' :: rest => some (fun a b => some (a + b), rest)
  | 2, '-' :: rest => some (fun a b => some (a - b), rest)
  | 3, '*' :: rest => some (fun a b => some (a * b), rest)
  | 3, '/' :: rest => some (fun a b => if b = 0 then none else some (a.tdiv b), rest)
  | 3, '%' :: rest => some (fun a b => if b = 0 then none else some (a.tmod b), rest)
  | _, _ => none

mutual

/-- The value of an expression whose operations bind at least as strongly as a level. -/
def readLevel (value : String → Option Int) : Nat → Nat → List Char → Option (Int × List Char)
  | 0, _, _ => none
  | fuel + 1, level, text =>
    if level < 4 then do
      let (first, rest) ← readLevel value fuel (level + 1) text
      readMore value fuel level first rest
    else readUnary value fuel (skip text)

/-- Goes on with operations of a level. -/
def readMore (value : String → Option Int) :
    Nat → Nat → Int → List Char → Option (Int × List Char)
  | 0, _, _, _ => none
  | fuel + 1, level, first, text =>
    match operation level (skip text) with
    | none => some (first, text)
    | some (f, rest) => do
      let (second, rest) ← readLevel value fuel (level + 1) rest
      let result ← f first second
      readMore value fuel level result rest

/-- The value of a number, a variable, a negated value or an expression in parentheses. -/
def readUnary (value : String → Option Int) : Nat → List Char → Option (Int × List Char)
  | 0, _ => none
  | fuel + 1, text =>
    match text with
    | '-' :: rest => (readUnary value fuel (skip rest)).map fun r => (-r.1, r.2)
    | '+' :: rest => readUnary value fuel (skip rest)
    | '(' :: rest => do
      let (result, rest) ← readLevel value fuel 0 rest
      match skip rest with
      | ')' :: rest => return (result, rest)
      | _ => none
    | '$' :: rest => readUnary value fuel rest
    | _ =>
      let name := text.takeWhile fun c => c.isAlphanum || c == '_'
      let rest := text.dropWhile fun c => c.isAlphanum || c == '_'
      if name.isEmpty then none
      else if name.all Char.isDigit then
        some (name.foldl (fun n c => n * 10 + (c.toNat - '0'.toNat : Nat)) 0, rest)
      else (value (String.ofList name)).map fun n => (n, rest)

end

/-- The value of an expression. -/
def eval? (value : String → Option Int) (text : List Char) : Option Int := do
  let (result, rest) ← readLevel value (12 * text.length + 12) 0 text
  if (skip rest).isEmpty then some result else none

end CaretLayout.Emulator.Shell.Arithmetic
