import CaretLayout.Decimal.Shortest
import CaretLayout.Json.Value

/-!
# Printing JSON

The text of a JSON value, without white space.  A string escapes the quote, the backslash and the
characters below U+0020 and nothing else.  A floating point number is written in full from `1e-5` to
below `1e16`, with at least one decimal, and with an exponent outside.
-/

namespace CaretLayout.Json

/-- A hexadecimal digit in lower case. -/
def hexDigit (n : Nat) : Char :=
  if n < 10 then Char.ofNat (48 + n) else Char.ofNat (87 + n)

/-- A character as it stands in a string. -/
def escapeChar (c : Char) : List Char :=
  if c = '"' then ['\\', '"']
  else if c = '\\' then ['\\', '\\']
  else if c = '\x08' then ['\\', 'b']
  else if c = '\x0c' then ['\\', 'f']
  else if c = '\n' then ['\\', 'n']
  else if c = '\r' then ['\\', 'r']
  else if c = '\t' then ['\\', 't']
  else if c.toNat < 0x20 then ['\\', 'u', '0', '0', hexDigit (c.toNat / 16), hexDigit (c.toNat % 16)]
  else [c]

/-- A string with its quotes. -/
def quote (s : String) : List Char :=
  '"' :: (s.toList.flatMap escapeChar ++ ['"'])

/-- An integer in decimal. -/
def printInt (i : Int) : List Char :=
  if i < 0 then '-' :: Decimal.digitsOf i.natAbs else Decimal.digitsOf i.natAbs

/-- The digits of a decimal number in full, with at least one decimal. -/
def printPlain (s : Decimal.Scaled) : List Char :=
  let digits := Decimal.digitsOf s.digits
  if 0 ≤ s.exponent then digits ++ List.replicate s.exponent.toNat '0' ++ ['.', '0']
  else
    let places := (-s.exponent).toNat
    let padded := List.replicate (places + 1 - digits.length) '0' ++ digits
    padded.take (padded.length - places) ++ '.' :: padded.drop (padded.length - places)

/-- The digits of a decimal number with one digit before the point and an exponent. -/
def printExponent (s : Decimal.Scaled) : List Char :=
  let digits := Decimal.digitsOf s.digits
  let order : Int := s.exponent + digits.length - 1
  let point := if digits.length = 1 then digits else digits.take 1 ++ '.' :: digits.drop 1
  point ++ 'e' :: (if order < 0 then '-' else '+') :: Decimal.digitsOf order.natAbs

/-- A floating point number. -/
def printFloat (x : Binary64) : List Char :=
  let s := Decimal.shortest x.magnitude
  let order : Int := s.exponent + (Decimal.digitsOf s.digits).length - 1
  let text := if -5 ≤ order ∧ order < 16 then printPlain s else printExponent s
  if x.negative then '-' :: text else text

mutual

/-- The text of a value. -/
def print : Json → List Char
  | null => ['n', 'u', 'l', 'l']
  | bool true => ['t', 'r', 'u', 'e']
  | bool false => ['f', 'a', 'l', 's', 'e']
  | int i => printInt i
  | float x => printFloat x
  | string s => quote s
  | array items => '[' :: printItems items
  | object members => '{' :: printMembers members

/-- The rest of an array after its opening bracket. -/
def printItems : List Json → List Char
  | [] => [']']
  | v :: rest => print v ++ printMoreItems rest

/-- The rest of an array after an item. -/
def printMoreItems : List Json → List Char
  | [] => [']']
  | v :: rest => ',' :: (print v ++ printMoreItems rest)

/-- The rest of an object after its opening brace. -/
def printMembers : List (String × Json) → List Char
  | [] => ['}']
  | (k, v) :: rest => quote k ++ ':' :: (print v ++ printMoreMembers rest)

/-- The rest of an object after a member. -/
def printMoreMembers : List (String × Json) → List Char
  | [] => ['}']
  | (k, v) :: rest => ',' :: (quote k ++ ':' :: (print v ++ printMoreMembers rest))

end

/-- The text of a value as a string. -/
def text (v : Json) : String :=
  String.ofList (print v)

end CaretLayout.Json
