import Reckoner.Double.Arithmetic
/-!
# Trigonometry

The six functions are computed by the machine, so numbers pass through their bit patterns here and
nowhere else. Like the quotient they are `none` where they have no value: sine, cosine and tangent
at an infinity, the inverse sine and cosine outside `[-1, 1]`.
-/

namespace Reckoner.Double

/-- The bit pattern of a number: sign, eleven bits of exponent, 52 bits of significand. -/
def toBits : Double → Nat
  | nan => 0x7ff8000000000000
  | infinity negative => signBit negative + 0x7ff * leastFull
  | finite negative m e _ =>
    signBit negative + if m < leastFull then m else (e + 1) * leastFull + (m - leastFull)
where
  signBit (negative : Bool) : Nat := if negative then 0x8000000000000000 else 0

/-- The number that a bit pattern stands for. -/
def ofBits (bits : Nat) : Double :=
  let negative := bits / 0x8000000000000000 % 2 == 1
  let field := bits / leastFull % 0x800
  let fraction := bits % leastFull
  if field = 0x7ff then if fraction = 0 then infinity negative else nan
  else if field = 0 then ofSignificand negative fraction 0
  else ofSignificand negative (leastFull + fraction) (field - 1)

def viaMachine (f : Float → Float) (x : Double) : Double :=
  ofBits (f (Float.ofBits x.toBits.toUInt64)).toBits.toNat

def sin? (x : Double) : Option Double :=
  if x.isInfinite then none else some (viaMachine Float.sin x)

def cos? (x : Double) : Option Double :=
  if x.isInfinite then none else some (viaMachine Float.cos x)

def tan? (x : Double) : Option Double :=
  if x.isInfinite then none else some (viaMachine Float.tan x)

def asin? (x : Double) : Option Double :=
  if x.isNaN then some nan
  else if x.inUnitInterval then some (viaMachine Float.asin x) else none

def acos? (x : Double) : Option Double :=
  if x.isNaN then some nan
  else if x.inUnitInterval then some (viaMachine Float.acos x) else none

def atan (x : Double) : Double := viaMachine Float.atan x

/-- The numbers nearest to the circle constant and to the base of the natural logarithm. -/
def pi : Double := ofDecimal false 31415926535897932384626433832795 (-31)

def e : Double := ofDecimal false 27182818284590452353602874713527 (-31)

/-- The size of a degree in radians, and of a radian in degrees, each rounded. -/
def radiansPerDegree : Double := (pi.div? (ofNat 180)).getD nan

def degreesPerRadian : Double := ((ofNat 180).div? pi).getD nan

def toRadians (x : Double) : Double := x.mul radiansPerDegree

def toDegrees (x : Double) : Double := x.mul degreesPerRadian

end Reckoner.Double
