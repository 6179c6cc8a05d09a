import CaretLayout.Json.Fault
import CaretLayout.Text.Utf8

/-!
# Reading JSON

The reader takes a text from the left, one function for each kind of token, each of which returns
what it read and what is left.  It is strict: no comments, no trailing commas, no control characters
in strings, no lone surrogates, no number beyond the range of binary64, and at most 127 containers
inside one another.

A value that nobody asks for is skipped with less care (`Care.lax`): its escapes need only have the
right digits, its numbers any size, its containers any depth.

The recursion through containers is bounded by a fuel that the wrappers compute from the length of
the text: three units for each character, since a container opens with a character and takes three
calls to reach its first item.
-/

namespace CaretLayout.Json

/-- How closely a value is read. -/
inductive Care where
  /-- The value is wanted. -/
  | strict
  /-- The value is skipped. -/
  | lax
deriving DecidableEq, Repr

/-- Something read, and what is left of the text. -/
abbrev Reading (α : Type) := α × List Char

/-- The greatest unsigned 64-bit number. -/
def maxWord : Nat := Nat.pow 2 64 - 1

/-- The most containers that may stand inside one another. -/
def maxDepth : Nat := 127

/-- White space between tokens. -/
def isBlank (c : Char) : Bool :=
  c == ' ' || c == '\t' || c == '\n' || c == '\r'

/-- The text after its leading white space. -/
def skipBlank (text : List Char) : List Char :=
  text.dropWhile isBlank

/-! ### Strings -/

/-- The value of a hexadecimal digit. -/
def hexValue (c : Char) : Option Nat :=
  let n := c.toNat
  if 48 ≤ n ∧ n ≤ 57 then some (n - 48)
  else if 65 ≤ n ∧ n ≤ 70 then some (n - 55)
  else if 97 ≤ n ∧ n ≤ 102 then some (n - 87)
  else none

/-- The number that four hexadecimal digits write.  The text is truncated when fewer than four bytes
are left. -/
def readHex4 (text : List Char) : Except Fault Nat :=
  if Text.Utf8.byteLength (text.take 4) < 4 then .error .truncated
  else
    match text with
    | a :: b :: c :: d :: _ =>
      match hexValue a, hexValue b, hexValue c, hexValue d with
      | some a, some b, some c, some d => .ok (a * 4096 + b * 256 + c * 16 + d)
      | _, _, _, _ => .error .malformed
    | _ => .error .malformed

/-- The character of a surrogate pair whose first half is `high` and whose second half comes next. -/
def readLowSurrogate (high : Nat) : List Char → Except Fault Char
  | [] => .error .truncated
  | '\\' :: [] => .error .truncated
  | '\\' :: 'u' :: text => do
    let low ← readHex4 text
    if 0xDC00 ≤ low ∧ low ≤ 0xDFFF then
      return Char.ofNat ((high - 0xD800) * 1024 + (low - 0xDC00) + 0x10000)
    else .error .malformed
  | _ => .error .malformed

/-- The character of a `\u` escape whose digits come next, and how many characters of the text write
it: four digits, or four, another `\u` and four more for a surrogate pair. -/
def readUnicode (care : Care) (text : List Char) : Except Fault (Char × Nat) := do
  let n ← readHex4 text
  match care with
  | .lax => return (Char.ofNat n, 4)
  | .strict =>
    if 0xDC00 ≤ n ∧ n ≤ 0xDFFF then .error .malformed
    else if n < 0xD800 ∨ 0xDBFF < n then return (Char.ofNat n, 4)
    else do
      let c ← readLowSurrogate n (text.drop 4)
      return (c, 10)

/-- The character of an escape, and how many characters after the backslash write it. -/
def readEscape (care : Care) : List Char → Except Fault (Char × Nat)
  | [] => .error .truncated
  | c :: rest =>
    if c = '"' ∨ c = '\\' ∨ c = '/' then .ok (c, 1)
    else if c = 'b' then .ok ('\x08', 1)
    else if c = 'f' then .ok ('\x0c', 1)
    else if c = 'n' then .ok ('\n', 1)
    else if c = 'r' then .ok ('\r', 1)
    else if c = 't' then .ok ('\t', 1)
    else if c = 'u' then do
      let (e, width) ← readUnicode care rest
      return (e, width + 1)
    else .error .malformed

/-- The characters of a string up to its closing quote, after `pending` characters that belong to an
escape already read. -/
def readChars (care : Care) : (pending : Nat) → List Char → Except Fault (Reading (List Char))
  | _, [] => .error .truncated
  | pending + 1, _ :: rest => readChars care pending rest
  | 0, c :: rest =>
    if c = '"' then .ok ([], rest)
    else if c = '\\' then do
      let (e, width) ← readEscape care rest
      let (more, rest) ← readChars care width rest
      return (e :: more, rest)
    else if c.toNat < 0x20 then .error .malformed
    else do
      let (more, rest) ← readChars care 0 rest
      return (c :: more, rest)

/-- A string after its opening quote. -/
def readString (care : Care) (text : List Char) : Except Fault (Reading String) := do
  let (chars, rest) ← readChars care 0 text
  return (String.ofList chars, rest)

/-! ### Numbers -/

/-- The value of a decimal digit. -/
def digitValue (c : Char) : Nat :=
  c.toNat - 48

/-- The digits at the front of a text, and what follows them. -/
def spanDigits (text : List Char) : List Char × List Char :=
  (text.takeWhile Char.isDigit, text.dropWhile Char.isDigit)

/-- A number as it is written. -/
structure Numeral where
  negative : Bool
  whole : List Char
  /-- The digits after the point, if there is one. -/
  decimals : Option (List Char)
  /-- The sign and the digits of the exponent, if there is one. -/
  power : Option (Bool × List Char)
deriving DecidableEq, Repr

/-- The fault of a missing digit.  A skipped number does not tell the end of the text from a wrong
character. -/
def missingDigit (care : Care) (text : List Char) : Fault :=
  match care, text with
  | .strict, [] => .truncated
  | _, _ => .malformed

/-- The digits before the point: a zero, or digits that do not start with one. -/
def readWhole (care : Care) (text : List Char) : Except Fault (Reading (List Char)) :=
  match spanDigits text with
  | ([], rest) => .error (missingDigit care rest)
  | ('0' :: _ :: _, _) => .error .malformed
  | (digits, rest) => .ok (digits, rest)

/-- At least one digit. -/
def readDigits (care : Care) (text : List Char) : Except Fault (Reading (List Char)) :=
  match spanDigits text with
  | ([], rest) => .error (missingDigit care rest)
  | (digits, rest) => .ok (digits, rest)

/-- The point and the digits after it, if there is a point. -/
def readDecimals (care : Care) : List Char → Except Fault (Reading (Option (List Char)))
  | '.' :: rest => do
    let (digits, rest) ← readDigits care rest
    return (some digits, rest)
  | rest => .ok (none, rest)

/-- The sign of an exponent, true when it is negative. -/
def readSign : List Char → Bool × List Char
  | '+' :: rest => (false, rest)
  | '-' :: rest => (true, rest)
  | rest => (false, rest)

/-- The exponent, if there is one. -/
def readPower (care : Care) : List Char → Except Fault (Reading (Option (Bool × List Char)))
  | c :: rest =>
    if c = 'e' ∨ c = 'E' then do
      let (negative, rest) := readSign rest
      let (digits, rest) ← readDigits care rest
      return (some (negative, digits), rest)
    else .ok (none, c :: rest)
  | [] => .ok (none, [])

/-- A number as it is written, after its sign. -/
def readNumeral (care : Care) (negative : Bool) (text : List Char) :
    Except Fault (Reading Numeral) := do
  let (whole, rest) ← readWhole care text
  let (decimals, rest) ← readDecimals care rest
  let (power, rest) ← readPower care rest
  return (⟨negative, whole, decimals, power⟩, rest)

/-- Adds digits to a number as long as it stays within a bound; returns it with the digits that are
left. -/
def absorb (bound : Nat) : Nat → List Char → Nat × List Char
  | n, [] => (n, [])
  | n, c :: rest =>
    let next := n * 10 + digitValue c
    if bound < next then (n, c :: rest) else absorb bound next rest

/-- The power of ten `10 ^ n` as a magnitude, for `n` up to 308. -/
def powerOfTen (n : Nat) : Magnitude :=
  (Magnitude.ofNat (Nat.pow 10 n)).getD .zero

/-- Divides a magnitude by `10 ^ n`, in steps of `10 ^ 308`. -/
def divideByTen (m : Magnitude) (n : Nat) : Magnitude :=
  if n ≤ 308 then (m.div (powerOfTen n)).getD .zero
  else if m.mantissa = 0 then m
  else divideByTen ((m.div (powerOfTen 308)).getD .zero) (n - 308)
termination_by n
decreasing_by omega

/-- The magnitude `significand * 10 ^ exponent`: the significand is rounded, then the product or the
quotient.  Too large a magnitude is malformed. -/
def scale (significand : Nat) (exponent : Int) : Except Fault Magnitude :=
  let m := (Magnitude.ofNat significand).getD .zero
  if exponent < 0 then .ok (divideByTen m exponent.natAbs)
  else if exponent ≤ 308 then
    match m.mul (powerOfTen exponent.natAbs) with
    | some product => .ok product
    | none => .error .malformed
  else if m.mantissa = 0 then .ok m
  else .error .malformed

/-- The greatest signed 32-bit number, which bounds a written exponent. -/
def maxPower : Nat := Nat.pow 2 31 - 1

/-- The magnitude of a numeral.  Digits that no longer fit into the 64-bit significand are dropped;
those before the point count as powers of ten. -/
def Numeral.magnitude (n : Numeral) : Except Fault Magnitude :=
  let (significand, dropped) := absorb maxWord 0 n.whole
  let decimals := n.decimals.getD []
  let (significand, unread) := absorb maxWord significand decimals
  let shift : Int := (dropped.length : Int) - ((decimals.length - unread.length : Nat) : Int)
  match n.power with
  | none => scale significand shift
  | some (negative, digits) =>
    match absorb maxPower 0 digits with
    | (power, []) => scale significand (if negative then shift - power else shift + power)
    | _ => if significand = 0 ∨ negative then .ok .zero else .error .malformed

/-- The value of a numeral: an integer if it is written as one and fits into 64 bits. -/
def Numeral.value (n : Numeral) : Except Fault Json :=
  let float := do
    let m ← n.magnitude
    return Json.float ⟨n.negative, m⟩
  match n.decimals, n.power, absorb maxWord 0 n.whole with
  | none, none, (k, []) =>
    if !n.negative then .ok (.int k)
    else if 0 < k ∧ k ≤ Nat.pow 2 63 then .ok (.int (-(k : Int)))
    else float
  | _, _, _ => float

/-- A number after its sign. -/
def readNumber (care : Care) (negative : Bool) (text : List Char) :
    Except Fault (Reading Json) := do
  let (n, rest) ← readNumeral care negative text
  match care with
  | .lax => return (.null, rest)
  | .strict =>
    let v ← n.value
    return (v, rest)

/-! ### Values -/

/-- The remaining letters of a word. -/
def readWord : List Char → List Char → Except Fault (List Char)
  | [], text => .ok text
  | _ :: _, [] => .error .truncated
  | w :: word, c :: rest => if c = w then readWord word rest else .error .malformed

/-- A value other than a container; its first character is `c`. -/
def readScalar (care : Care) (c : Char) (rest : List Char) : Except Fault (Reading Json) :=
  if c = 'n' then do
    let rest ← readWord ['u', 'l', 'l'] rest
    return (.null, rest)
  else if c = 't' then do
    let rest ← readWord ['r', 'u', 'e'] rest
    return (.bool true, rest)
  else if c = 'f' then do
    let rest ← readWord ['a', 'l', 's', 'e'] rest
    return (.bool false, rest)
  else if c = '"' then do
    let (s, rest) ← readString care rest
    return (.string s, rest)
  else if c = '-' then readNumber care true rest
  else if c.isDigit then readNumber care false (c :: rest)
  else .error .malformed

/-- What may follow an item: the closing character, or a comma and another item. -/
def readSeparator (close : Char) : List Char → Except Fault (Reading Bool)
  | [] => .error .truncated
  | c :: rest =>
    if c = close then .ok (false, rest)
    else if c = ',' then .ok (true, skipBlank rest)
    else .error .malformed

/-- The name of a member. -/
def readName (care : Care) : List Char → Except Fault (Reading String)
  | [] => .error .truncated
  | c :: rest => if c = '"' then readString care rest else .error .malformed

/-- The name of a member that is wanted. -/
def readMemberName (text : List Char) : Except Fault (Reading String) :=
  readName .strict text

/-- The colon after the name of a member. -/
def readColon (text : List Char) : Except Fault (List Char) :=
  match skipBlank text with
  | [] => .error .truncated
  | ':' :: rest => .ok rest
  | _ => .error .malformed

/-- The depth left inside a container. -/
def deeper (care : Care) (depth : Nat) : Except Fault Nat :=
  match care, depth with
  | .lax, d => .ok d
  | .strict, 0 => .error .malformed
  | .strict, d + 1 => .ok d

mutual

/-- A value, with white space before it. -/
def readValue (care : Care) : Nat → Nat → List Char → Except Fault (Reading Json)
  | 0, _, _ => .error .truncated
  | fuel + 1, depth, text =>
    match skipBlank text with
    | [] => .error .truncated
    | c :: rest =>
      if c = '[' then do
        let depth ← deeper care depth
        let (items, rest) ← readItems care fuel depth rest
        return (.array items, rest)
      else if c = '{' then do
        let depth ← deeper care depth
        let (members, rest) ← readMembers care fuel depth rest
        return (.object members, rest)
      else readScalar care c rest

/-- The items of an array after its opening bracket. -/
def readItems (care : Care) : Nat → Nat → List Char → Except Fault (Reading (List Json))
  | 0, _, _ => .error .truncated
  | fuel + 1, depth, text =>
    match skipBlank text with
    | [] => .error .truncated
    | ']' :: rest => .ok ([], rest)
    | rest => readMoreItems care fuel depth rest

/-- An item and those after it. -/
def readMoreItems (care : Care) : Nat → Nat → List Char → Except Fault (Reading (List Json))
  | 0, _, _ => .error .truncated
  | fuel + 1, depth, text => do
    let (item, rest) ← readValue care fuel depth text
    let (again, rest) ← readSeparator ']' (skipBlank rest)
    if again then
      let (items, rest) ← readMoreItems care fuel depth rest
      return (item :: items, rest)
    else return ([item], rest)

/-- The members of an object after its opening brace. -/
def readMembers (care : Care) :
    Nat → Nat → List Char → Except Fault (Reading (List (String × Json)))
  | 0, _, _ => .error .truncated
  | fuel + 1, depth, text =>
    match skipBlank text with
    | [] => .error .truncated
    | '}' :: rest => .ok ([], rest)
    | rest => readMoreMembers care fuel depth rest

/-- A member and those after it. -/
def readMoreMembers (care : Care) :
    Nat → Nat → List Char → Except Fault (Reading (List (String × Json)))
  | 0, _, _ => .error .truncated
  | fuel + 1, depth, text => do
    let (name, rest) ← readName care text
    let rest ← readColon rest
    let (value, rest) ← readValue care fuel depth rest
    let (again, rest) ← readSeparator '}' (skipBlank rest)
    if again then
      let (members, rest) ← readMoreMembers care fuel depth rest
      return ((name, value) :: members, rest)
    else return ([(name, value)], rest)

end

/-- The fuel that is enough for any value of a text. -/
def fuelFor (text : List Char) : Nat :=
  3 * text.length + 3

/-- A value at the front of a text, with `depth` containers allowed. -/
def readFront (care : Care) (depth : Nat) (text : List Char) : Except Fault (Reading Json) :=
  readValue care (fuelFor text) depth text

/-- Requires that only white space is left. -/
def expectEnd (text : List Char) : Except Fault Unit :=
  match skipBlank text with
  | [] => .ok ()
  | _ => .error .malformed

/-- Reads a whole text as one value, its members in the order of the text. -/
def readTree (text : List Char) : Except Fault Json := do
  let (v, rest) ← readFront .strict maxDepth text
  expectEnd rest
  return v

/-- Reads a whole text as one value in canonical form. -/
def read (text : List Char) : Except Fault Json := do
  let v ← readTree text
  return v.canonical

end CaretLayout.Json
