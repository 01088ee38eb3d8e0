/-!
# Binary64 numbers

A number is `nan`, a signed infinity or a signed finite value, and a finite value is kept as the
significand and exponent of its only canonical form. Its magnitude is a whole number of *units* of
`2 ^ -1074`, the least positive value, so exact statements about finite numbers are statements about
natural numbers.
-/

namespace Reckoner

/-- Significands have 53 bits, so they stay below `2 ^ 53`. -/
abbrev Double.significandLimit : Nat := 0x20000000000000

/-- A significand of `2 ^ 52` or more uses all of its bits. -/
abbrev Double.leastFull : Nat := 0x10000000000000

/-- What the fields of a binary64 number can hold: all bits of the significand are used unless the
exponent is the least. -/
def Double.Canonical (significand exponent : Nat) : Prop :=
  significand < significandLimit ∧ exponent ≤ 2045 ∧ (exponent = 0 ∨ leastFull ≤ significand)

instance (significand exponent : Nat) : Decidable (Double.Canonical significand exponent) :=
  inferInstanceAs (Decidable (_ ∧ _ ∧ _))

/-- A binary64 number. `finite negative m e` is `± m * 2 ^ e` units; there is one `nan`. -/
inductive Double where
  | nan
  | infinity (negative : Bool)
  | finite (negative : Bool) (significand exponent : Nat)
      (canonical : Double.Canonical significand exponent)
deriving DecidableEq

namespace Double

/-- How many units, that is how many times `2 ^ -1074`, make one. -/
def unitsPerOne : Nat := Nat.pow 2 1074

/-- The magnitude of a finite number in units; the others count none. -/
def units : Double → Nat
  | finite _ m e _ => m * Nat.pow 2 e
  | _ => 0

/-- The sign bit; `nan` has none. -/
def isNegative : Double → Bool
  | nan => false
  | infinity negative => negative
  | finite negative _ _ _ => negative

def isNaN : Double → Bool
  | nan => true
  | _ => false

def isInfinite : Double → Bool
  | infinity _ => true
  | _ => false

def isFinite : Double → Bool
  | finite .. => true
  | _ => false

/-- Either of the two zeros. -/
def isZero : Double → Bool
  | finite _ m _ _ => m == 0
  | _ => false

/-- A finite number without a fractional part. -/
def isIntegral (x : Double) : Bool :=
  x.isFinite && x.units % unitsPerOne == 0

/-- The value of a finite number in units, with its sign. -/
def signedUnits (x : Double) : Int :=
  if x.isNegative then -(x.units : Int) else x.units

theorem canonical_zero : Canonical 0 0 := by decide

/-- The zero of a sign. -/
def zero (negative : Bool) : Double :=
  finite negative 0 0 canonical_zero

/-- Equality of values: `nan` equals nothing, and the two zeros are equal. -/
def equals : Double → Double → Bool
  | nan, _ => false
  | _, nan => false
  | infinity s, infinity t => s == t
  | infinity _, finite .. => false
  | finite .., infinity _ => false
  | x@(finite ..), y@(finite ..) => x.signedUnits == y.signedUnits

/-- Equality with a whole number. -/
def equalsInt (x : Double) (n : Int) : Bool :=
  x.isFinite && x.signedUnits == n * unitsPerOne

/-- Whether the value lies between -1 and 1. -/
def inUnitInterval (x : Double) : Bool :=
  x.isFinite && x.units ≤ unitsPerOne

end Double

end Reckoner
