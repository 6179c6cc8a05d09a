/-!
# Escapes of printing programs

The programs that print their arguments read escapes after a backslash and conversions after a
percent sign.  All text is bytes here.
-/

namespace CaretLayout.Emulator

/-- The bytes of a text. -/
def bytesOf (s : String) : List UInt8 :=
  s.toUTF8.toList

/-- The byte of an ASCII character. -/
def byteOf (c : Char) : UInt8 :=
  UInt8.ofNat c.toNat

/-- The character with the number of a byte. -/
def charOf (b : UInt8) : Char :=
  Char.ofNat b.toNat

/-- Whether a byte is an octal digit. -/
def isOctal (b : UInt8) : Bool :=
  byteOf '0' ≤ b && b ≤ byteOf '7'

/-- Whether a byte is a decimal digit. -/
def isDecimal (b : UInt8) : Bool :=
  byteOf '0' ≤ b && b ≤ byteOf '9'

/-- The value of digits in a base. -/
def valueOf (base : Nat) (digits : List UInt8) : Nat :=
  digits.foldl (fun n b => n * base + (b - byteOf '0').toNat) 0

/-- The byte of an escape letter. -/
def letterEscape (b : UInt8) : Option UInt8 :=
  match charOf b with
  | 'a' => some 7
  | 'b' => some 8
  | 'f' => some 12
  | 'n' => some 10
  | 'r' => some 13
  | 't' => some 9
  | 'v' => some 11
  | '\\' => some 92
  | _ => none

/-- The byte of an escape, whose backslash has been read, and the rest.  An escape that is not known
stands for its backslash alone. -/
def readEscape (text : List UInt8) : UInt8 × List UInt8 :=
  match text with
  | [] => (92, [])
  | b :: rest =>
    if isOctal b then
      let digits := (text.take 3).takeWhile isOctal
      (UInt8.ofNat (valueOf 8 digits), text.drop digits.length)
    else
      match letterEscape b with
      | some c => (c, rest)
      | none => (92, text)

/-- The octal digits of an escape may be told by a zero before them. -/
def skipZero : List UInt8 → List UInt8
  | z :: b :: rest => if z = byteOf '0' && isOctal b then b :: rest else z :: b :: rest
  | text => text

/-- A text with its escapes replaced, and whether it asks for an end of all printing. -/
def unescape : Nat → List UInt8 → List UInt8 × Bool
  | 0, _ => ([], false)
  | _ + 1, [] => ([], false)
  | fuel + 1, b :: rest =>
    if b = 92 then
      match rest with
      | 99 :: _ => ([], true)
      | _ =>
        let (c, rest) := readEscape (skipZero rest)
        let (text, stop) := unescape fuel rest
        (c :: text, stop)
    else
      let (text, stop) := unescape fuel rest
      (b :: text, stop)

/-- Joins words with spaces. -/
def joinWords (words : List (List UInt8)) : List UInt8 :=
  ([byteOf ' '] : List UInt8).intercalate words

/-- The words with their escapes replaced, on a line.  A first word `-n` leaves out the line
feed. -/
def echoEscaped (words : List (List UInt8)) : List UInt8 :=
  let (words, bare) :=
    if words.head? = some (bytesOf "-n") then (words.drop 1, true) else (words, false)
  let joined := joinWords words
  let (text, stop) := unescape (joined.length + 1) joined
  if stop || bare then text else text ++ [10]

/-- The words as they are, on a line.  A first word `-n` leaves out the line feed. -/
def echoPlain (words : List (List UInt8)) : List UInt8 :=
  if words.head? = some (bytesOf "-n") then joinWords (words.drop 1)
  else joinWords words ++ [10]

/-! ### Formats -/

/-- A conversion: how wide its result is at least, where the padding goes, and how much is shown. -/
structure Conversion where
  left : Bool
  zeros : Bool
  width : Nat
  precision : Option Nat
  kind : Char
deriving DecidableEq, Repr

/-- Reads a conversion, whose percent sign has been read. -/
def readConversion (text : List UInt8) : Option (Conversion × List UInt8) :=
  let isFlag := fun b => b = byteOf '-' || b = byteOf '0' || b = byteOf ' ' || b = byteOf '+'
  let flags := text.takeWhile isFlag
  let text := text.dropWhile isFlag
  let width := text.takeWhile isDecimal
  let text := text.dropWhile isDecimal
  let (precision, text) : Option Nat × List UInt8 := match text with
    | 46 :: rest => (some (valueOf 10 (rest.takeWhile isDecimal)), rest.dropWhile isDecimal)
    | _ => (none, text)
  match text with
  | [] => none
  | b :: rest =>
    some ({ left := flags.contains (byteOf '-'), zeros := flags.contains (byteOf '0')
            width := valueOf 10 width, precision := precision, kind := charOf b }, rest)

/-- The number that a word starts with. -/
def numberOf (word : List UInt8) : Int :=
  match word with
  | 45 :: digits => -(valueOf 10 (digits.takeWhile isDecimal) : Nat)
  | 43 :: digits => (valueOf 10 (digits.takeWhile isDecimal) : Nat)
  | digits => (valueOf 10 (digits.takeWhile isDecimal) : Nat)

/-- Pads a text to the width of a conversion. -/
def Conversion.pad (c : Conversion) (filler : Char) (text : List UInt8) : List UInt8 :=
  let padding := List.replicate (c.width - text.length) (byteOf (if c.left then ' ' else filler))
  if c.left then text ++ padding else padding ++ text

/-- A natural number with at least the digits that a precision asks for. -/
def digitsOf (base n precision : Nat) : List UInt8 :=
  let digits := bytesOf (String.ofList (Nat.toDigits base n))
  List.replicate (precision - digits.length) (byteOf '0') ++ digits

/-- The result of a conversion for a word, and whether it asks for an end of all printing. -/
def Conversion.apply (c : Conversion) (word : List UInt8) : List UInt8 × Bool :=
  let shown := fun (text : List UInt8) => text.take (c.precision.getD text.length)
  let filler := if c.zeros && c.precision.isNone then '0' else ' '
  match c.kind with
  | 's' => (c.pad ' ' (shown word), false)
  | 'c' => (c.pad ' ' (word.take 1), false)
  | 'b' =>
    let (text, stop) := unescape (word.length + 1) word
    (c.pad ' ' (shown text), stop)
  | 'x' => (c.pad filler (digitsOf 16 (numberOf word).toNat (c.precision.getD 0)), false)
  | 'o' => (c.pad filler (digitsOf 8 (numberOf word).toNat (c.precision.getD 0)), false)
  | _ =>
    let n := numberOf word
    let sign : List UInt8 := if n < 0 then [byteOf '-'] else []
    (c.pad filler (sign ++ digitsOf 10 n.natAbs (c.precision.getD 0)), false)

/-- One pass through a format: the text, the words that are left, whether a word was asked for, and
whether printing ends. -/
structure FormatPass where
  text : List UInt8
  words : List (List UInt8)
  consumed : Bool
  stop : Bool
deriving DecidableEq, Repr

/-- Puts text before the text of a pass. -/
def FormatPass.prepend (front : List UInt8) (p : FormatPass) : FormatPass :=
  { p with text := front ++ p.text }

/-- Goes through a format once. -/
def formatOnce : Nat → List UInt8 → List (List UInt8) → FormatPass
  | 0, _, words => ⟨[], words, false, false⟩
  | _ + 1, [], words => ⟨[], words, false, false⟩
  | fuel + 1, b :: rest, words =>
    if b = 92 then
      let (c, rest) := readEscape rest
      (formatOnce fuel rest words).prepend [c]
    else if b = byteOf '%' then
      match rest with
      | 37 :: rest => (formatOnce fuel rest words).prepend [byteOf '%']
      | _ =>
        match readConversion rest with
        | none => ⟨[], words, false, true⟩
        | some (conversion, rest) =>
          let (text, stop) := conversion.apply (words.head?.getD [])
          if stop then ⟨text, words.drop 1, true, true⟩
          else
            { (formatOnce fuel rest (words.drop 1)).prepend text with consumed := true }
    else (formatOnce fuel rest words).prepend [b]

/-- Goes through a format until all words are used. -/
def formatAll : Nat → List UInt8 → List (List UInt8) → List UInt8
  | 0, _, _ => []
  | fuel + 1, format, words =>
    let pass := formatOnce (format.length + 1) format words
    if pass.stop || pass.words.isEmpty || !pass.consumed then pass.text
    else pass.text ++ formatAll fuel format pass.words

/-- Prints words through a format. -/
def printFormat (format : List UInt8) (words : List (List UInt8)) : List UInt8 :=
  formatAll (words.length + 1) format words

end CaretLayout.Emulator
