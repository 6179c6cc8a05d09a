/-!
# Binary floating point numbers

A finite binary64 number as a sign and an exact magnitude `mantissa * 2 ^ exponent`.  The arithmetic
is that of natural numbers: an operation forms the exact quotient and rounds it once, to the nearest
number and in a tie to the one with an even mantissa.  No machine arithmetic is involved.

Magnitudes are kept in normal form: the exponent is at least `-1074`, the mantissa is below `2 ^ 53`,
and it is at least `2 ^ 52` unless the exponent is the least one.
-/

namespace CaretLayout

/-- A finite binary64 magnitude, `mantissa * 2 ^ exponent`. -/
structure Magnitude where
  mantissa : Nat
  exponent : Int
deriving DecidableEq, Repr

namespace Magnitude

/-- The least exponent. -/
def minExponent : Int := -1074

/-- The greatest exponent. -/
def maxExponent : Int := 971

/-- The magnitude of zero. -/
def zero : Magnitude := ⟨0, minExponent⟩

/-- The integer nearest to a quotient, the even one in a tie. -/
def roundEven (num den : Nat) : Nat :=
  let q := num / den
  let r := num % den
  if 2 * r < den ∨ (2 * r = den ∧ q % 2 = 0) then q else q + 1

/-- The numerator and denominator of `num / den * 2 ^ shift`. -/
def shifted (num den : Nat) (shift : Int) : Nat × Nat :=
  (num * Nat.pow 2 shift.toNat, den * Nat.pow 2 (-shift).toNat)

/-- The magnitude nearest to a quotient, or `none` when it is too large. -/
def ofRatio (num den : Nat) : Option Magnitude :=
  if num = 0 then some zero
  else
    let guess : Int := max ((Nat.log2 num : Int) - (Nat.log2 den : Int) - 53) minExponent
    let (n, d) := shifted num den (-guess)
    let exponent := if n / d < Nat.pow 2 53 then guess else guess + 1
    let (n, d) := shifted num den (-exponent)
    let mantissa := roundEven n d
    let m : Magnitude :=
      if mantissa = Nat.pow 2 53 then ⟨Nat.pow 2 52, exponent + 1⟩ else ⟨mantissa, exponent⟩
    if maxExponent < m.exponent then none else some m

/-- The magnitude nearest to a natural number. -/
def ofNat (n : Nat) : Option Magnitude :=
  ofRatio n 1

/-- The product of two magnitudes, rounded. -/
def mul (a b : Magnitude) : Option Magnitude :=
  let (n, d) := shifted (a.mantissa * b.mantissa) 1 (a.exponent + b.exponent)
  ofRatio n d

/-- The quotient of two magnitudes, rounded. -/
def div (a b : Magnitude) : Option Magnitude :=
  let (n, d) := shifted a.mantissa b.mantissa (a.exponent - b.exponent)
  ofRatio n d

end Magnitude

/-- A finite binary64 number. -/
structure Binary64 where
  negative : Bool
  magnitude : Magnitude
deriving DecidableEq, Repr

/-- Zero with a sign. -/
def Binary64.zero (negative : Bool) : Binary64 :=
  ⟨negative, .zero⟩

end CaretLayout
