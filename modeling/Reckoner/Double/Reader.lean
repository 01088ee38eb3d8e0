import Reckoner.Double.Rounding
import Reckoner.Text.Numeral
/-!
# Reading numbers

Free text that writes a number: a decimal, with an exponent if need be, or one of the words for the
values that have no digits.
-/

namespace Reckoner.Double

/-- The number nearest to `± digits * 10 ^ exponent`, where the exponent may be too large to raise
ten to: beyond these bounds the answer is infinite or zero whatever the digits. -/
def ofScientific (negative : Bool) (digits : Nat) (exponent : Int) : Double :=
  if digits = 0 then zero negative
  else if exponent > 400 then infinity negative
  else if (Text.ofNat digits).length + exponent < -400 then zero negative
  else ofDecimal negative digits exponent

/-- A word for `nan` or an infinity, in either case. -/
def ofWord? (negative : Bool) (word : Text) : Option Double :=
  match (String.ofList word).toLower with
  | "nan" => some nan
  | "inf" => some (infinity negative)
  | "infinity" => some (infinity negative)
  | _ => none

/-- The exponent that may follow the digits: a mark, then a signed whole number. -/
def exponent? : Text → Option Int
  | [] => some 0
  | mark :: rest => do
    guard (mark == 'e' || mark == 'E')
    let (negative, digits) := Text.splitSign rest
    guard (!digits.isEmpty && digits.all Text.isDigit)
    let magnitude : Int := Text.digitsValue digits
    return if negative then -magnitude else magnitude

/-- Digits with at most one point among or beside them, then perhaps an exponent. -/
def ofDigits? (negative : Bool) (body : Text) : Option Double := do
  let whole := body.takeWhile Text.isDigit
  let rest := body.dropWhile Text.isDigit
  let (fraction, rest) := match rest with
    | '.' :: after => (after.takeWhile Text.isDigit, after.dropWhile Text.isDigit)
    | rest => ([], rest)
  guard (!(whole.isEmpty && fraction.isEmpty))
  let exponent ← exponent? rest
  return ofScientific negative (Text.digitsValue (whole ++ fraction)) (exponent - fraction.length)

/-- The number that a text writes. -/
def read? (text : Text) : Option Double := do
  let (negative, body) := Text.splitSign (Text.trim text)
  match ofWord? negative body with
  | some x => return x
  | none => ofDigits? negative (← Text.ungrouped? body)

end Reckoner.Double
