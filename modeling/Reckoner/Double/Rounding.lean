import Reckoner.Double.Basic
/-!
# Rounding to binary64

Every operation works out its exact result as a quotient of natural numbers and rounds once, to the
nearest number, a tie going to the even significand.
-/

namespace Reckoner.Double

/-- The quotient rounded to the nearest whole number, a half to the even one. -/
def roundDiv (numerator denominator : Nat) : Nat :=
  let quotient := numerator / denominator
  let remainder := numerator % denominator
  if 2 * remainder < denominator then quotient
  else if denominator < 2 * remainder then quotient + 1
  else quotient + quotient % 2

/-- The number with the given significand and exponent. Rounding up can carry into a 54th bit, which
is then the only one set, so halving the significand loses nothing; past the largest exponent the
number is infinite. -/
def ofSignificand (negative : Bool) (significand exponent : Nat) : Double :=
  if h : Canonical significand exponent then finite negative significand exponent h
  else if h : Canonical (significand / 2) (exponent + 1) then
    finite negative (significand / 2) (exponent + 1) h
  else infinity negative

/-- The least exponent at which `n` units fit a significand. -/
def exponentFor (n : Nat) : Nat := n.log2 - 52

/-- The number nearest to `± numerator / denominator` units. -/
def nearest (negative : Bool) (numerator denominator : Nat) : Double :=
  let exponent := exponentFor (numerator / denominator)
  ofSignificand negative (roundDiv numerator (denominator * Nat.pow 2 exponent)) exponent

/-- The number nearest to a natural number. -/
def ofNat (n : Nat) : Double :=
  nearest false (n * unitsPerOne) 1

/-- The number nearest to `± digits * 10 ^ exponent`. -/
def ofDecimal (negative : Bool) (digits : Nat) (exponent : Int) : Double :=
  match exponent with
  | .ofNat e => nearest negative (digits * Nat.pow 10 e * unitsPerOne) 1
  | .negSucc e => nearest negative (digits * unitsPerOne) (Nat.pow 10 (e + 1))

end Reckoner.Double
