import CaretLayout.Decimal.Binary64

/-!
# The fewest digits that read back

The decimal text of a binary number has the fewest digits that still read back as the number.  The
reals that round to `m * 2 ^ q` form an interval around it, whose ends belong to it when `m` is even.
Decimal grids are tried from coarse to fine; on a grid only the two neighbours of the number can
lie in the interval, and the first grid with a hit gives the digits.  Of two hits the nearer one is
taken, and in a tie the even one.
-/

namespace CaretLayout.Decimal

/-- A decimal number `digits * 10 ^ exponent`. -/
structure Scaled where
  digits : Nat
  exponent : Int
deriving DecidableEq, Repr

/-- Compares `a * 10 ^ p` with `b * 2 ^ q`. -/
def compareScaled (a : Nat) (p : Int) (b : Nat) (q : Int) : Ordering :=
  compare (a * Nat.pow 10 p.toNat * Nat.pow 2 (-q).toNat)
    (b * Nat.pow 2 q.toNat * Nat.pow 10 (-p).toNat)

/-- Whether a decimal number rounds to the magnitude.  The ends of the interval are counted in
quarters of the last mantissa bit, because the gap below a power of two is half as wide. -/
def roundsTo (m : Magnitude) (s : Scaled) : Bool :=
  let q := m.exponent - 2
  let low :=
    if m.mantissa = Nat.pow 2 52 ∧ Magnitude.minExponent < m.exponent then 4 * m.mantissa - 1
    else 4 * m.mantissa - 2
  let even := m.mantissa % 2 = 0
  let aboveLow := match compareScaled s.digits s.exponent low q with
    | .gt => true
    | .eq => even
    | .lt => false
  let belowHigh := match compareScaled s.digits s.exponent (4 * m.mantissa + 2) q with
    | .lt => true
    | .eq => even
    | .gt => false
  aboveLow && belowHigh

/-- The neighbours of the magnitude on the grid of `10 ^ p`, the nearer one first. -/
def neighbours (m : Magnitude) (p : Int) : List Scaled :=
  let num := m.mantissa * Nat.pow 2 m.exponent.toNat * Nat.pow 10 (-p).toNat
  let den := Nat.pow 2 (-m.exponent).toNat * Nat.pow 10 p.toNat
  let below := num / den
  if Magnitude.roundEven num den = below then [⟨below, p⟩, ⟨below + 1, p⟩]
  else [⟨below + 1, p⟩, ⟨below, p⟩]

/-- The first hit on the grids of `10 ^ p`, `10 ^ (p - 1)` and so on, `count` of them. -/
def firstHit (m : Magnitude) : Nat → Int → Option Scaled
  | 0, _ => none
  | count + 1, p =>
    match (neighbours m p).find? (roundsTo m) with
    | some s => some s
    | none => firstHit m count (p - 1)

/-- The shortest decimal number that reads back as the magnitude.  Twenty grids below the order of
the magnitude are enough for seventeen digits. -/
def shortest (m : Magnitude) : Scaled :=
  if m.mantissa = 0 then ⟨0, 0⟩
  else
    let order := ((Nat.log2 m.mantissa : Int) + m.exponent) * 30103 / 100000 + 1
    (firstHit m 20 order).getD ⟨m.mantissa, 0⟩

/-- The decimal digits of a natural number. -/
def digitsOf (n : Nat) : List Char :=
  Nat.toDigits 10 n

end CaretLayout.Decimal
