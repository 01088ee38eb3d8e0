import Reckoner.Double.Shortest
/-!
# Printing numbers

Three forms. The full form is the shortest decimal that reads back, written out while its exponent
is small and with an exponent otherwise. The fixed form has a chosen number of places, rounded from
the exact value. The whole form is for numbers without a fraction: all their digits and no point.
-/

namespace Reckoner.Double

def signText (negative : Bool) : Text := if negative then ['-'] else []

/-- An exponent with its sign and at least two digits. -/
def exponentText (x : Int) : Text :=
  'e' :: (if x < 0 then '-' else '+') :: Text.ofNatPadded 2 x.natAbs

/-- Digits with the point after the first `x + 1` of them, zeros filling what is missing on either
side. -/
def positionalText (digits : Text) (x : Int) : Text :=
  match x with
  | .ofNat n =>
    let whole := digits.take (n + 1)
    let fraction := digits.drop (n + 1)
    whole ++ List.replicate (n + 1 - whole.length) '0' ++ '.' ::
      if fraction.isEmpty then ['0'] else fraction
  | .negSucc n => '0' :: '.' :: List.replicate n '0' ++ digits

/-- Digits with the point after the first, if more follow, and an exponent. -/
def scientificText (digits : Text) (x : Int) : Text :=
  match digits with
  | [] => exponentText x
  | [d] => d :: exponentText x
  | d :: rest => d :: '.' :: rest ++ exponentText x

/-- A decimal is written out when its leading digit stands for `10 ^ -4` up to `10 ^ 15`. -/
def decimalText (decimal : Decimal) : Text :=
  let digits := Text.ofNat decimal.digits
  let x := decimal.exponent + digits.length - 1
  if -4 ≤ x ∧ x < 16 then positionalText digits x else scientificText digits x

/-- The full form, which reads back to the number. -/
def fullText : Double → Text
  | nan => "nan".toList
  | infinity negative => signText negative ++ "inf".toList
  | finite negative m e _ =>
    signText negative ++ if m = 0 then "0.0".toList else decimalText (shortest m e)

/-- The magnitude with exactly `places` digits after the point, from the digits of the magnitude in
units of the last place. -/
def placesText (places scaled : Nat) : Text :=
  let digits := Text.ofNatPadded (places + 1) scaled
  let whole := digits.take (digits.length - places)
  if places = 0 then whole else whole ++ '.' :: digits.drop (digits.length - places)

/-- More places than this are refused. -/
def maxPlaces : Nat := 2147483647

/-- The form with a fixed number of places: the exact value rounded to them, a half to the even
digit. A negative number keeps its sign even when only zeros are left. -/
def fixedText? (places : Nat) (x : Double) : Option Text :=
  if maxPlaces < places then none
  else some <| match x with
    | nan => "nan".toList
    | infinity negative => signText negative ++ "inf".toList
    | x =>
      let scaled := roundDiv (x.units * Nat.pow 10 places) unitsPerOne
      signText x.isNegative ++ placesText places scaled

/-- A result as it is shown: in full, or with a number of places if one is given. -/
def shown? (places : Option Nat) (x : Double) : Option Text :=
  match places with
  | none => some x.fullText
  | some places => x.fixedText? places

/-- A number without a fraction as a whole number; both zeros are `0`. -/
def wholeText (x : Double) : Text :=
  signText (x.isNegative && x.units != 0) ++ Text.ofNat (x.units / unitsPerOne)

end Reckoner.Double
