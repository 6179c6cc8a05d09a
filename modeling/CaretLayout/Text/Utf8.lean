/-!
# UTF-8

Characters as bytes and bytes as characters.  Reading is a transducer that takes one byte at a
time: between characters it stands at `start`, inside one it knows how many continuation bytes are
owed and which values the next one may have.  The bounds on the second byte exclude overlong forms,
surrogates and values above U+10FFFF.

What a run gives is a list of items, a character or `none` for a maximal ill-formed part.  Strict
reading (`decode`) takes a list of characters only, and reports how many bytes are well formed
before the first break; lossy reading (`decodeLossy`) puts U+FFFD in the place of each break.
-/

namespace CaretLayout.Text.Utf8

/-- The bytes of a text. -/
def encode (text : List Char) : List UInt8 :=
  text.flatMap String.utf8EncodeChar

/-- The number of bytes of a text. -/
def byteLength (text : List Char) : Nat :=
  text.foldr (fun c n => c.utf8Size + n) 0

/-- Where reading stands between two bytes. -/
inductive State where
  /-- Between characters. -/
  | start
  /-- Inside a character: `owed + 1` continuation bytes are missing, the bits read so far are
  `bits`, and the next byte must lie between `low` and `high`. -/
  | inside (owed bits low high : Nat)
deriving DecidableEq, Repr

/-- The state after a byte that opens a character, and the item it completes. -/
def begin (b : Nat) : State × List (Option Char) :=
  if b < 0x80 then (.start, [some (Char.ofNat b)])
  else if b < 0xC2 then (.start, [none])
  else if b < 0xE0 then (.inside 0 (b - 0xC0) 0x80 0xBF, [])
  else if b = 0xE0 then (.inside 1 0 0xA0 0xBF, [])
  else if b = 0xED then (.inside 1 (b - 0xE0) 0x80 0x9F, [])
  else if b < 0xF0 then (.inside 1 (b - 0xE0) 0x80 0xBF, [])
  else if b = 0xF0 then (.inside 2 0 0x90 0xBF, [])
  else if b < 0xF4 then (.inside 2 (b - 0xF0) 0x80 0xBF, [])
  else if b = 0xF4 then (.inside 2 (b - 0xF0) 0x80 0x8F, [])
  else (.start, [none])

/-- One byte: the state after it and the items it completes.  A byte that cannot continue a
character breaks it off and is read again as an opening byte. -/
def step : State → Nat → State × List (Option Char)
  | .start, b => begin b
  | .inside owed bits low high, b =>
    if low ≤ b ∧ b ≤ high then
      match owed with
      | 0 => (.start, [some (Char.ofNat (bits * 64 + (b - 0x80)))])
      | owed + 1 => (.inside owed (bits * 64 + (b - 0x80)) 0x80 0xBF, [])
    else
      let (next, items) := begin b
      (next, none :: items)

/-- The items of a byte sequence read from a state. -/
def itemsFrom : State → List UInt8 → List (Option Char)
  | .start, [] => []
  | .inside .., [] => [none]
  | state, b :: rest =>
    let (next, items) := step state b.toNat
    items ++ itemsFrom next rest

/-- The characters and ill-formed parts of a byte sequence, in order. -/
def items (bytes : List UInt8) : List (Option Char) :=
  itemsFrom .start bytes

/-- The characters before the first ill-formed part, and whether there is such a part. -/
def untilBreak : List (Option Char) → List Char × Bool
  | [] => ([], false)
  | none :: _ => ([], true)
  | some c :: rest =>
    let (text, broken) := untilBreak rest
    (c :: text, broken)

/-- Strict reading: the text, or the number of bytes before the first ill-formed part. -/
def decode (bytes : List UInt8) : Except Nat (List Char) :=
  match untilBreak (items bytes) with
  | (text, false) => .ok text
  | (text, true) => .error (byteLength text)

/-- The character that stands for an ill-formed part. -/
def replacement : Char := Char.ofNat 0xFFFD

/-- Lossy reading: U+FFFD for each ill-formed part. -/
def decodeLossy (bytes : List UInt8) : List Char :=
  (items bytes).map (·.getD replacement)

end CaretLayout.Text.Utf8
