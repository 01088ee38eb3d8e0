import Reckoner.Double.Rounding
/-!
# Arithmetic

Sum, difference and product have a value for all operands. Quotient and remainder do not: they are
`none` exactly where a caller has to decide what the answer is, at a zero divisor and at the
remainder of an infinity.
-/

namespace Reckoner.Double

def neg : Double → Double
  | nan => nan
  | infinity s => infinity (!s)
  | finite s m e h => finite (!s) m e h

/-- An exact sum of zero is positive unless both operands are negative. -/
def add : Double → Double → Double
  | nan, _ => nan
  | _, nan => nan
  | infinity s, infinity t => if s = t then infinity s else nan
  | infinity s, finite .. => infinity s
  | finite .., infinity t => infinity t
  | x@(finite ..), y@(finite ..) =>
    let sum := x.signedUnits + y.signedUnits
    if sum = 0 then zero (x.isNegative && y.isNegative)
    else nearest (sum < 0) sum.natAbs 1

def sub (x y : Double) : Double := x.add y.neg

def mul (x y : Double) : Double :=
  let negative := x.isNegative != y.isNegative
  match x, y with
  | nan, _ => nan
  | _, nan => nan
  | infinity _, y => if y.isZero then nan else infinity negative
  | x, infinity _ => if x.isZero then nan else infinity negative
  | x, y => nearest negative (x.units * y.units) unitsPerOne

/-- The quotient, which a zero divisor does not have. -/
def div? (x y : Double) : Option Double :=
  let negative := x.isNegative != y.isNegative
  if y.isZero then none
  else some <| match x, y with
    | nan, _ => nan
    | _, nan => nan
    | infinity _, infinity _ => nan
    | infinity _, finite .. => infinity negative
    | finite .., infinity _ => zero negative
    | x, y => nearest negative (x.units * unitsPerOne) y.units

/-- The remainder of the division that truncates, with the sign of the dividend. Without `nan` among
the operands there is none for a zero divisor or an infinite dividend. It never needs rounding. -/
def rem? (x y : Double) : Option Double :=
  match x, y with
  | nan, _ => some nan
  | _, nan => some nan
  | infinity _, _ => none
  | x, infinity _ => some x
  | x, y => if y.isZero then none else some (nearest x.isNegative (x.units % y.units) 1)

/-- The quotient by a zero: `nan` for a zero or `nan` dividend, else the infinity whose sign is the
product of the signs. -/
def overZero (x y : Double) : Double :=
  if x.isZero || x.isNaN then nan else infinity (x.isNegative != y.isNegative)

end Reckoner.Double
