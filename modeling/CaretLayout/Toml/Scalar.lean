import CaretLayout.Toml.Value

/-!
# Bare scalars of TOML

The values that are written without quotes or brackets: booleans, integers, floating point numbers,
dates and times.  A bare scalar is a maximal run of certain characters, and a date may be continued
by a time after a single space.  Each form is a recogniser on the whole run.
-/

namespace CaretLayout.Toml.Scalar

/-- The characters of bare scalars. -/
def isScalarChar (c : Char) : Bool :=
  c.isAlphanum || c == '_' || c == '+' || c == '-' || c == '.' || c == ':'

/-- The value of a digit, up to base 36. -/
def digit? (c : Char) : Option Nat :=
  if c.isDigit then some (c.toNat - 48)
  else if c.isLower then some (c.toNat - 87)
  else if c.isUpper then some (c.toNat - 55)
  else none

/-- Digits in a base, a single underscore allowed between two of them: their value, or `none` when
the text is not of this form.  `openEnd` says that a digit must come next. -/
def digitsFrom (base : Nat) : (openEnd : Bool) → Nat → List Char → Option Nat
  | openEnd, n, [] => if openEnd then none else some n
  | openEnd, n, c :: rest =>
    if c = '_' then if openEnd then none else digitsFrom base true n rest
    else
      match digit? c with
      | some d => if d < base then digitsFrom base false (n * base + d) rest else none
      | none => none

/-- The value of digits in a base. -/
def digits? (base : Nat) (text : List Char) : Option Nat :=
  digitsFrom base true 0 text

/-- The value of a decimal number without superfluous zeros in front. -/
def decimal? (text : List Char) : Option Nat :=
  match text with
  | '0' :: _ :: _ => none
  | _ => digits? 10 text

/-- The sign of a number, true when it is negative, and what follows it. -/
def sign : List Char → Bool × List Char
  | '+' :: rest => (false, rest)
  | '-' :: rest => (true, rest)
  | rest => (false, rest)

/-- An integer, in decimal with a sign or in another base without. -/
def integer? (text : List Char) : Option Int :=
  match text with
  | '0' :: 'x' :: rest => (digits? 16 rest).map Int.ofNat
  | '0' :: 'o' :: rest => (digits? 8 rest).map Int.ofNat
  | '0' :: 'b' :: rest => (digits? 2 rest).map Int.ofNat
  | _ =>
    let (negative, rest) := sign text
    (decimal? rest).map fun n => if negative then -(n : Int) else n

/-! ### Floating point numbers -/

/-- The text before and after the first character of a class. -/
def cutAt (p : Char → Bool) (text : List Char) : List Char × Option (List Char) :=
  match text.dropWhile (!p ·) with
  | [] => (text, none)
  | _ :: rest => (text.takeWhile (!p ·), some rest)

/-- How many digits a text has, underscores aside. -/
def digitCount (text : List Char) : Nat :=
  (text.filter (· != '_')).length

/-- Whether `significand * 10 ^ exponent` rounds to a finite number: it lies below the middle between
the greatest finite number and the next power of two. -/
def finite (significand : Nat) (exponent : Int) : Bool :=
  if significand = 0 then true
  else if 400 < exponent then false
  else if exponent + (Nat.toDigits 10 significand).length < 300 then true
  else
    significand * Nat.pow 10 exponent.toNat <
      (Nat.pow 2 1024 - Nat.pow 2 970) * Nat.pow 10 (-exponent).toNat

/-- A floating point number with a point or an exponent or both: whether its magnitude is within
range. -/
def decimalFloat? (text : List Char) : Option Bool :=
  let (_, unsigned) := sign text
  let (front, power) := cutAt (fun c => c == 'e' || c == 'E') unsigned
  let (whole, decimals) := cutAt (· == '.') front
  if decimals.isNone && power.isNone then none
  else do
    let n ← decimal? whole
    let (significand, places) ←
      match decimals with
      | none => some (n, 0)
      | some ds => (digitsFrom 10 true n ds).bind fun m =>
        (digits? 10 ds).map fun _ => (m, digitCount ds)
    match power with
    | none => return finite significand (-(places : Int))
    | some p =>
      let (negative, ds) := sign p
      let e ← digits? 10 ds
      return finite significand ((if negative then -(e : Int) else e) - places)

/-- An infinity or a number that is none. -/
def isSpecial (text : List Char) : Bool :=
  let (_, rest) := sign text
  rest == ['i', 'n', 'f'] || rest == ['n', 'a', 'n']

/-! ### Dates and times -/

/-- A number of exactly `count` digits, and what follows. -/
def fixed (count : Nat) (text : List Char) : Option (Nat × List Char) :=
  let ds := text.take count
  if ds.length = count ∧ ds.all Char.isDigit then
    some (ds.foldl (fun n c => n * 10 + (c.toNat - 48)) 0, text.drop count)
  else none

/-- What follows a character of a class. -/
def after (p : Char → Bool) : List Char → Option (List Char)
  | c :: rest => if p c then some rest else none
  | [] => none

/-- The number of days of a month. -/
def daysIn (year month : Nat) : Nat :=
  if month = 2 then
    if year % 4 = 0 ∧ (year % 100 ≠ 0 ∨ year % 400 = 0) then 29 else 28
  else if month = 4 ∨ month = 6 ∨ month = 9 ∨ month = 11 then 30
  else 31

/-- A date, and what follows it. -/
def date (text : List Char) : Option (List Char) := do
  let (year, rest) ← fixed 4 text
  let rest ← after (· == '-') rest
  let (month, rest) ← fixed 2 rest
  let rest ← after (· == '-') rest
  let (day, rest) ← fixed 2 rest
  if 1 ≤ month ∧ month ≤ 12 ∧ 1 ≤ day ∧ day ≤ daysIn year month then some rest else none

/-- The seconds of a time with their fraction, if there are any. -/
def seconds (text : List Char) : Option (List Char) :=
  match text with
  | ':' :: rest => do
    let (second, rest) ← fixed 2 rest
    if 60 < second then none
    else
      match rest with
      | '.' :: rest =>
        if (rest.takeWhile Char.isDigit).isEmpty then none else some (rest.dropWhile Char.isDigit)
      | rest => some rest
  | rest => some rest

/-- A time, and what follows it. -/
def time (text : List Char) : Option (List Char) := do
  let (hour, rest) ← fixed 2 text
  let rest ← after (· == ':') rest
  let (minute, rest) ← fixed 2 rest
  if hour ≤ 23 ∧ minute ≤ 59 then seconds rest else none

/-- The difference of a date and time from universal time, if it is given, up to the end. -/
def offset (text : List Char) : Bool :=
  match text with
  | [] => true
  | c :: rest =>
    if c = 'Z' ∨ c = 'z' then rest.isEmpty
    else if c = '+' ∨ c = '-' then
      (do
        let (hour, rest) ← fixed 2 rest
        let rest ← after (· == ':') rest
        let (minute, rest) ← fixed 2 rest
        return decide (hour ≤ 23 ∧ minute ≤ 59) && rest.isEmpty).getD false
    else false

/-- A date, a time, or a date with a time after `T` or a space. -/
def isMoment (text : List Char) : Bool :=
  match date text with
  | some [] => true
  | some (c :: rest) =>
    (c == 'T' || c == 't' || c == ' ') && ((time rest).map offset).getD false
  | none => time text == some []

/-- Whether a text has the shape of a date, which a time may follow after a space. -/
def hasDateShape (text : List Char) : Bool :=
  text.length == 10 && (date text).isSome

/-- The value of a bare scalar. -/
def value? (text : List Char) : Option Toml :=
  if text = ['t', 'r', 'u', 'e'] then some (.boolean true)
  else if text = ['f', 'a', 'l', 's', 'e'] then some (.boolean false)
  else if isSpecial text then some (.float true)
  else
    match integer? text with
    | some i => some (.integer i)
    | none =>
      match decimalFloat? text with
      | some inRange => some (.float inRange)
      | none => if isMoment text then some .moment else none

/-- Reads a bare scalar: its value, and what is left of the text. -/
def read (text : List Char) : Option (Toml × List Char) :=
  let run := text.takeWhile isScalarChar
  let rest := text.dropWhile isScalarChar
  match rest with
  | ' ' :: c :: more =>
    if hasDateShape run && c.isDigit then
      (value? (run ++ ' ' :: (c :: more).takeWhile isScalarChar)).map
        (·, (c :: more).dropWhile isScalarChar)
    else (value? run).map (·, rest)
  | _ => (value? run).map (·, rest)

end CaretLayout.Toml.Scalar
