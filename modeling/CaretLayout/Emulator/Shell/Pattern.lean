/-!
# Patterns

A pattern is a sequence of bytes, each quoted or not.  A quoted byte stands for itself.  Unquoted, a
star stands for any bytes, a question mark for any one byte, and brackets for one of the bytes
between them.
-/

namespace CaretLayout.Emulator.Shell

/-- A byte of an expanded word, and whether it is quoted. -/
structure WordByte where
  byte : UInt8
  quoted : Bool
deriving DecidableEq, Repr

/-- An element of a pattern. -/
inductive PatternItem where
  | byte (b : UInt8)
  | anyOne
  | anyMany
  /-- One of the bytes within the ranges, or one of the others. -/
  | oneOf (others : Bool) (ranges : List (UInt8 × UInt8))
deriving DecidableEq, Repr

/-- The ranges between brackets, up to the closing one. -/
def readRanges : Nat → List WordByte → List (UInt8 × UInt8) →
    Option (List (UInt8 × UInt8) × List WordByte)
  | 0, _, _ => none
  | fuel + 1, text, found =>
    match text with
    | [] => none
    | ⟨93, false⟩ :: rest =>
      if found.isEmpty then readRanges fuel rest [(93, 93)] else some (found, rest)
    | ⟨low, _⟩ :: ⟨45, false⟩ :: ⟨high, quoted⟩ :: rest =>
      if high = 93 && !quoted then
        readRanges fuel (⟨45, true⟩ :: ⟨high, quoted⟩ :: rest) (found ++ [(low, low)])
      else readRanges fuel rest (found ++ [(low, high)])
    | ⟨b, _⟩ :: rest => readRanges fuel rest (found ++ [(b, b)])

/-- The elements of a pattern. -/
def readPattern : Nat → List WordByte → List PatternItem
  | 0, _ => []
  | _ + 1, [] => []
  | fuel + 1, ⟨b, quoted⟩ :: rest =>
    if quoted then .byte b :: readPattern fuel rest
    else if b = 42 then .anyMany :: readPattern fuel rest
    else if b = 63 then .anyOne :: readPattern fuel rest
    else if b = 91 then
      let (others, inside) : Bool × List WordByte := match rest with
        | ⟨33, false⟩ :: rest => (true, rest)
        | _ => (false, rest)
      match readRanges (inside.length + 1) inside [] with
      | some (ranges, rest) => .oneOf others ranges :: readPattern fuel rest
      | none => .byte b :: readPattern fuel rest
    else .byte b :: readPattern fuel rest

/-- Whether a byte is one that an element stands for. -/
def PatternItem.accepts (p : PatternItem) (b : UInt8) : Bool :=
  match p with
  | .byte c => b == c
  | .anyOne => true
  | .anyMany => true
  | .oneOf others ranges => (ranges.any fun r => decide (r.1 ≤ b) && decide (b ≤ r.2)) != others

/-- Whether the elements of a pattern stand for a text. -/
def matchesItems : List PatternItem → List UInt8 → Bool
  | [], text => text.isEmpty
  | .anyMany :: items, [] => matchesItems items []
  | .anyMany :: items, b :: rest =>
    matchesItems items (b :: rest) || matchesItems (.anyMany :: items) rest
  | _ :: _, [] => false
  | item :: items, b :: rest => item.accepts b && matchesItems items rest
termination_by items text => items.length + text.length

/-- Whether a pattern stands for a text. -/
def matchesPattern (pattern : List WordByte) (text : List UInt8) : Bool :=
  matchesItems (readPattern (pattern.length + 1) pattern) text

end CaretLayout.Emulator.Shell
