import CaretLayout.Command.Usage

/-!
# Reading arguments

The arguments of a command are read from left to right.  An option takes its value from the same
argument after an equals sign, or from the next argument unless that looks like an option.  Such a
value is checked only when the next option or operand begins, so that an argument which is not known
is reported before the value that stands in front of it.  After `--` every argument is an operand.
-/

namespace CaretLayout.Argument

/-- What the value of a parameter has to be. -/
inductive ValueKind where
  | text
  /-- A text that is not empty. -/
  | path
  | number
deriving DecidableEq, Repr

/-- A parameter: an option, or the operand. -/
structure Parameter where
  /-- The name, without the dashes of an option. -/
  name : String
  /-- How the parameter is shown in reports. -/
  shown : String
  kind : ValueKind
deriving DecidableEq, Repr

/-- What a flag asks for. -/
inductive Display where
  | help
  | version
deriving DecidableEq, Repr

/-- Why reading stops before the end. -/
inductive Stop where
  | usage (e : UsageError)
  /-- Something is to be shown instead. -/
  | display (d : Display)
deriving DecidableEq, Repr

/-- The parameters of a command. -/
structure Grammar where
  options : List Parameter
  /-- The flag that shows the version is known. -/
  hasVersion : Bool := false
  operand : Option Parameter := none
  /-- The names of the subcommands. -/
  subcommands : List String := []
  /-- The names of the parameters that have to be given. -/
  required : List String := []
deriving DecidableEq, Repr

/-- The values that were given, by the names of their parameters. -/
abbrev Values := List (String × String)

/-- The value of a parameter. -/
def Values.find? (v : Values) (name : String) : Option String :=
  (List.find? (fun e => e.1 == name) v).map (·.2)

/-- Arguments as far as they have been read. -/
structure Progress where
  values : Values := []
  /-- The parameter that was begun last, with its value if that has been read. -/
  pending : Option (Parameter × Option String) := none
  /-- Whether the operand was given. -/
  operandGiven : Bool := false
deriving DecidableEq, Repr

/-- Checks a value. -/
def check (p : Parameter) (value : String) : Except Stop Unit :=
  match p.kind with
  | .text => .ok ()
  | .path => if value.isEmpty then .error (.usage (.valueRequired p.shown)) else .ok ()
  | .number =>
    match readWord value.toList with
    | .ok _ => .ok ()
    | .error fault => .error (.usage (.invalidNumber value p.shown fault))

/-- Takes in the value of a parameter. -/
def store (v : Values) (p : Parameter) : Option String → Except Stop Values
  | none => .error (.usage (.valueRequired p.shown))
  | some value =>
    if (v.find? p.name).isSome then .error (.usage (.repeated p.shown))
    else (check p value).map fun _ => v ++ [(p.name, value)]

/-- Takes in the parameter that was begun last. -/
def settle (g : Progress) : Except Stop Progress :=
  match g.pending with
  | none => .ok g
  | some (p, value) => (store g.values p value).map fun v => { g with values := v, pending := none }

/-- Whether the value of an option is awaited. -/
def awaitsValue (g : Progress) : Bool :=
  g.pending.any (·.2.isNone)

/-- The flag of a long name. -/
def longFlag? (grammar : Grammar) (name : String) : Option Display :=
  if name = "help" then some .help
  else if name = "version" && grammar.hasVersion then some .version
  else none

/-- The flag of a letter. -/
def shortFlag? (grammar : Grammar) (letter : Char) : Option Display :=
  if letter = 'h' then some .help
  else if letter = 'V' && grammar.hasVersion then some .version
  else none

/-- Shows something, once the parameter that was begun last is settled. -/
def showInstead (g : Progress) (d : Display) : Except Stop Progress :=
  (settle g).bind fun _ => .error (.display d)

/-- Reads an argument that starts with two dashes, given without them. -/
def readLong (grammar : Grammar) (g : Progress) (text : List Char) : Except Stop Progress :=
  let name := String.ofList (text.takeWhile (· != '='))
  let value := match text.dropWhile (· != '=') with
    | [] => none
    | _ :: value => some (String.ofList value)
  match grammar.options.find? (·.name == name), longFlag? grammar name with
  | some p, _ =>
    (settle g).bind fun g =>
      match value with
      | none => .ok { g with pending := some (p, none) }
      | some value => (store g.values p (some value)).map fun v => { g with values := v }
  | none, some d =>
    match value with
    | none => showInstead g d
    | some value => .error (.usage (.unexpectedValue value ("--" ++ name)))
  | none, none => .error (.usage (.unexpected ("--" ++ name)))

/-- Reads an argument that starts with one dash, given its first letter. -/
def readShort (grammar : Grammar) (g : Progress) (letter : Char) : Except Stop Progress :=
  match shortFlag? grammar letter with
  | some d => showInstead g d
  | none => .error (.usage (.unexpected (String.ofList ['-', letter])))

/-- What an operand is reported as that is not expected. -/
def strayOperand (grammar : Grammar) (verbatim : Bool) (argument : String) : UsageError :=
  if grammar.subcommands.isEmpty || (verbatim && grammar.subcommands.contains argument) then
    .unexpected argument
  else .unrecognized argument

/-- Reads an operand. -/
def readOperand (grammar : Grammar) (g : Progress) (verbatim : Bool) (argument : String) :
    Except Stop Progress :=
  match grammar.operand with
  | some p =>
    if g.operandGiven then .error (.usage (.unexpected argument))
    else
      (settle g).map fun g => { g with pending := some (p, some argument), operandGiven := true }
  | none => .error (.usage (strayOperand grammar verbatim argument))

/-- What was read: the arguments up to a subcommand, and the arguments after its name. -/
structure Reading where
  progress : Progress
  subcommand : Option (String × List String) := none
deriving DecidableEq, Repr

/-- Reads arguments, all as operands if `verbatim`, up to a subcommand. -/
def readFrom (grammar : Grammar) : Bool → Progress → List String → Except Stop Reading
  | _, g, [] => .ok { progress := g }
  | true, g, argument :: rest =>
    (readOperand grammar g true argument).bind (readFrom grammar true · rest)
  | false, g, argument :: rest =>
    if !awaitsValue g && grammar.subcommands.contains argument then
      .ok { progress := g, subcommand := some (argument, rest) }
    else
      match argument.toList with
      | ['-', '-'] => readFrom grammar true g rest
      | '-' :: '-' :: text => (readLong grammar g text).bind (readFrom grammar false · rest)
      | '-' :: letter :: _ => (readShort grammar g letter).bind (readFrom grammar false · rest)
      | _ =>
        match g.pending with
        | some (p, none) =>
          readFrom grammar false { g with pending := some (p, some argument) } rest
        | _ => (readOperand grammar g false argument).bind (readFrom grammar false · rest)

/-- Settles what is left, and looks for parameters that are missing. -/
def finish (grammar : Grammar) (g : Progress) : Except Stop Values :=
  (settle g).bind fun g =>
    if grammar.required.all fun name => (g.values.find? name).isSome then .ok g.values
    else .error (.usage .missing)

/-- Reads all arguments of a command that has no subcommands. -/
def readAll (grammar : Grammar) (arguments : List String) : Except Stop Values :=
  (readFrom grammar false {} arguments).bind fun r => finish grammar r.progress

end CaretLayout.Argument
