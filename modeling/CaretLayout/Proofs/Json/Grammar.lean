import CaretLayout.Json.Reader

/-!
# The grammar of JSON

Which texts write which values.  The rules are those of RFC 8259 for what stands between tokens, for
strings and for containers; a number is written by any numeral that has a value.  No rule speaks of
reading: the grammar is what the reader and the printer are held to.

White space around a value belongs to what is around it.  `Padded` is a value with white space on both
sides, and `depth` counts the containers inside one another.
-/

namespace CaretLayout.Json

namespace Grammar

/-- White space that may stand between tokens. -/
def Blank (text : List Char) : Prop :=
  ∀ c ∈ text, isBlank c = true

/-! ### Strings -/

/-- The characters with an escape of one letter, each before its letter. -/
def shortEscapes : List (Char × Char) :=
  [('"', '"'), ('\\', '\\'), ('/', '/'), ('\x08', 'b'), ('\x0c', 'f'), ('\n', 'n'), ('\r', 'r'),
    ('\t', 't')]

/-- Four hexadecimal digits, after the number that they write. -/
inductive Hex4 : Nat → List Char → Prop
  | mk {a b c d : Char} {i j k l : Nat} : hexValue a = some i → hexValue b = some j →
      hexValue c = some k → hexValue d = some l → Hex4 (i * 4096 + j * 256 + k * 16 + l) [a, b, c, d]

/-- What stands behind the backslash of an escape, after the character that it writes. -/
inductive Escape : Char → List Char → Prop
  | short {c e : Char} : (c, e) ∈ shortEscapes → Escape c [e]
  /-- A code point that is no surrogate. -/
  | unit {n : Nat} {ds : List Char} : Hex4 n ds → n < 0xD800 ∨ 0xDFFF < n →
      Escape (Char.ofNat n) ('u' :: ds)
  /-- The two halves of a surrogate pair. -/
  | pair {high low : Nat} {ds ds' : List Char} : Hex4 high ds → Hex4 low ds' →
      0xD800 ≤ high ∧ high ≤ 0xDBFF → 0xDC00 ≤ low ∧ low ≤ 0xDFFF →
      Escape (Char.ofNat ((high - 0xD800) * 1024 + (low - 0xDC00) + 0x10000))
        ('u' :: (ds ++ '\\' :: 'u' :: ds'))

/-- Characters as they stand between quotes. -/
inductive Chars : List Char → List Char → Prop
  | nil : Chars [] []
  | plain {c : Char} {cs t : List Char} : c ≠ '"' → c ≠ '\\' → 0x20 ≤ c.toNat → Chars cs t →
      Chars (c :: cs) (c :: t)
  | escape {c : Char} {cs e t : List Char} : Escape c e → Chars cs t →
      Chars (c :: cs) ('\\' :: (e ++ t))

/-- A string with its quotes. -/
inductive Quoted : String → List Char → Prop
  | mk {s : String} {t : List Char} : Chars s.toList t → Quoted s ('"' :: (t ++ ['"']))

/-! ### Numbers -/

/-- At least one digit. -/
def Digits (ds : List Char) : Prop :=
  ds ≠ [] ∧ ∀ c ∈ ds, c.isDigit = true

/-- The digits before the point: a zero alone, or digits that do not start with one. -/
def WholeDigits (ds : List Char) : Prop :=
  Digits ds ∧ (ds.head? = some '0' → ds = ['0'])

/-- The point and the digits after it, or nothing. -/
inductive Decimals : Option (List Char) → List Char → Prop
  | none : Decimals none []
  | some {ds : List Char} : Digits ds → Decimals (some ds) ('.' :: ds)

/-- The sign of an exponent, which may be left out when it is positive. -/
inductive Sign : Bool → List Char → Prop
  | none : Sign false []
  | plus : Sign false ['+']
  | minus : Sign true ['-']

/-- The exponent, or nothing. -/
inductive Power : Option (Bool × List Char) → List Char → Prop
  | none : Power none []
  | some {e : Char} {negative : Bool} {sign ds : List Char} : e = 'e' ∨ e = 'E' →
      Sign negative sign → Digits ds → Power (some (negative, ds)) (e :: (sign ++ ds))

/-- A numeral behind its sign. -/
inductive Unsigned : Numeral → List Char → Prop
  | mk {n : Numeral} {d p : List Char} : WholeDigits n.whole → Decimals n.decimals d →
      Power n.power p → Unsigned n (n.whole ++ (d ++ p))

/-- A numeral. -/
inductive Number : Numeral → List Char → Prop
  | positive {n : Numeral} {t : List Char} : n.negative = false → Unsigned n t → Number n t
  | negative {n : Numeral} {t : List Char} : n.negative = true → Unsigned n t → Number n ('-' :: t)

/-! ### Values -/

mutual

/-- A value. -/
inductive Value : Json → List Char → Prop
  | nullWord : Value .null ['n', 'u', 'l', 'l']
  | trueWord : Value (.bool true) ['t', 'r', 'u', 'e']
  | falseWord : Value (.bool false) ['f', 'a', 'l', 's', 'e']
  | number {n : Numeral} {v : Json} {t : List Char} : Number n t → n.value = .ok v → Value v t
  | string {s : String} {t : List Char} : Quoted s t → Value (.string s) t
  | emptyArray {b : List Char} : Blank b → Value (.array []) ('[' :: (b ++ [']']))
  | array {items : List Json} {b t : List Char} : Blank b → Items items t →
      Value (.array items) ('[' :: (b ++ (t ++ [']'])))
  | emptyObject {b : List Char} : Blank b → Value (.object []) ('{' :: (b ++ ['}']))
  | object {members : List (String × Json)} {b t : List Char} : Blank b → Members members t →
      Value (.object members) ('{' :: (b ++ (t ++ ['}'])))

/-- The items of an array that is not empty, with white space behind each. -/
inductive Items : List Json → List Char → Prop
  | last {v : Json} {t b : List Char} : Value v t → Blank b → Items [v] (t ++ b)
  | cons {v : Json} {vs : List Json} {t b b' t' : List Char} : Value v t → Blank b → Blank b' →
      Items vs t' → Items (v :: vs) (t ++ (b ++ ',' :: (b' ++ t')))

/-- A member of an object. -/
inductive Member : String → Json → List Char → Prop
  | mk {k : String} {v : Json} {q b b' t : List Char} : Quoted k q → Blank b → Blank b' →
      Value v t → Member k v (q ++ (b ++ ':' :: (b' ++ t)))

/-- The members of an object that is not empty, with white space behind each. -/
inductive Members : List (String × Json) → List Char → Prop
  | last {k : String} {v : Json} {t b : List Char} : Member k v t → Blank b →
      Members [(k, v)] (t ++ b)
  | cons {k : String} {v : Json} {ms : List (String × Json)} {t b b' t' : List Char} :
      Member k v t → Blank b → Blank b' → Members ms t' →
      Members ((k, v) :: ms) (t ++ (b ++ ',' :: (b' ++ t')))

end

/-- A value with white space on both sides. -/
def Padded (v : Json) (text : List Char) : Prop :=
  ∃ b t b', Blank b ∧ Value v t ∧ Blank b' ∧ text = b ++ (t ++ b')

end Grammar

/-! ### Depth -/

mutual

/-- How many containers stand inside one another in a value, itself included. -/
def depth : Json → Nat
  | array items => itemsDepth items + 1
  | object members => membersDepth members + 1
  | _ => 0

/-- The greatest depth of an item. -/
def itemsDepth : List Json → Nat
  | [] => 0
  | v :: rest => max (depth v) (itemsDepth rest)

/-- The greatest depth of a member. -/
def membersDepth : List (String × Json) → Nat
  | [] => 0
  | (_, v) :: rest => max (depth v) (membersDepth rest)

end

end CaretLayout.Json
