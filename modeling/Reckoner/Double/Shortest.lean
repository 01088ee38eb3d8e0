import Reckoner.Double.Rounding
import Reckoner.Text.Numeral
/-!
# The shortest decimal

Printing a number loses nothing when the text reads back to it, and any decimal inside the interval
of reals that round to the number does. The shortest such decimal is a multiple of the largest power
of ten that has a multiple in the interval; of two, the nearer to the number is taken.
-/

namespace Reckoner.Double

/-- The reals that round to `m * 2 ^ e` units, in quarters of `2 ^ e` units: half a step to either
side, but a quarter step down from the least significand of an exponent, where the steps below are
half as long. -/
def lowerEnd (m e : Nat) : Nat :=
  if m = leastFull ∧ e ≠ 0 then 4 * m - 1 else 4 * m - 2

def upperEnd (m : Nat) : Nat := 4 * m + 2

/-- Whether `numerator / denominator` quarter steps round to `m`: the ends belong to an even one. -/
def roundsTo (m e numerator denominator : Nat) : Bool :=
  let low := lowerEnd m e * denominator
  let high := upperEnd m * denominator
  if m % 2 = 0 then low ≤ numerator && numerator ≤ high
  else low < numerator && numerator < high

/-- The multiple of `10 ^ x` nearest to `m * 2 ^ e` units that rounds to them, as a count of powers.
If any rounds to them, one of the two around the number does. -/
def multipleAt? (m e : Nat) (x : Int) : Option Nat :=
  let numerator := 4 * m * Nat.pow 2 e * Nat.pow 10 (-x).toNat
  let denominator := 4 * unitsPerOne * Nat.pow 10 x.toNat
  let near := roundDiv numerator denominator
  let far := 2 * (numerator / denominator) + 1 - near
  let quarterSteps := fun c =>
    roundsTo m e (c * denominator) (Nat.pow 2 e * Nat.pow 10 (-x).toNat)
  if quarterSteps near then some near
  else if quarterSteps far then some far
  else none

/-- A decimal `digits * 10 ^ exponent`. -/
structure Decimal where
  digits : Nat
  exponent : Int
deriving DecidableEq, Repr

/-- The search for the largest power of ten, downwards from `10 ^ x`. Once the powers run out the
number itself is a decimal, since a unit divides into powers of ten exactly. -/
def searchDown (m e : Nat) : (steps : Nat) → (x : Int) → Decimal
  | 0, _ => ⟨m * Nat.pow 2 e * Nat.pow 5 1074, -1074⟩
  | steps + 1, x =>
    match multipleAt? m e x with
    | some c => ⟨c, x⟩
    | none => searchDown m e steps (x - 1)

/-- The decimal with the fewest digits that reads back to `m * 2 ^ e` units. -/
def shortest (m e : Nat) : Decimal :=
  let start := (Text.ofNat (m * Nat.pow 2 e / unitsPerOne)).length
  searchDown m e (start + 1074) start

end Reckoner.Double
