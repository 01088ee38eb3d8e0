import Reckoner.Text.Numeral
/-!
# The number of places in an option

The numeral is read leniently: blanks around it, a plus sign, zeros in front, a fraction of nothing
but zeros and underscores between digits are all taken off, one after another. What is left has to
be a whole number in its plain form.
-/

namespace Reckoner.Terminal

/-- The blanks that may stand around a numeral. The separator controls are not among them. -/
def isMargin (c : Char) : Bool :=
  Text.isBlank c && !(0x1c ≤ c.toNat && c.toNat ≤ 0x1f)

def withoutMargins (text : Text) : Text :=
  ((text.dropWhile isMargin).reverse.dropWhile isMargin).reverse

/-- The text without a plus sign in front, which no minus sign may follow. -/
def withoutPlus? : Text → Option Text
  | '+' :: '-' :: _ => none
  | '+' :: rest => some rest
  | text => some text

/-- The text after zeros in front and underscores among them, the last of which is `last`. It is
kept when no digit follows. -/
def afterZeros? (last : Char) : Text → Option Text
  | [] => some [last]
  | c :: rest =>
    if c = '0' ∨ c = '_' then afterZeros? c rest
    else if c.isDigit ∨ c = '-' then some (c :: rest)
    else if c = '.' then some (last :: c :: rest)
    else none

/-- The text without the zeros in front; it has to start with a digit or a minus sign. -/
def withoutZeros? : Text → Option Text
  | '0' :: rest => afterZeros? '0' rest
  | c :: rest => if c.isDigit ∨ c = '-' then some (c :: rest) else none
  | [] => none

/-- The text without its fraction, if that is made of zeros. -/
def withoutFraction (text : Text) : Text :=
  match text.dropWhile (· != '.') with
  | _ :: fraction =>
    if fraction.all (· == '0') then text.takeWhile (· != '.') else text
  | [] => text

def hasDoubleUnderscore : Text → Bool
  | '_' :: '_' :: _ => true
  | _ :: rest => hasDoubleUnderscore rest
  | [] => false

/-- The text without its underscores, if they all stand alone and inside. -/
def withoutUnderscores (text : Text) : Text :=
  if text.head? == some '_' || text.getLast? == some '_' || hasDoubleUnderscore text then text
  else text.filter (· != '_')

/-- The natural number in its plain form, or with the sign of a negative zero. -/
def plainNat? : Text → Option Nat
  | ['0'] | ['-', '0'] => some 0
  | text =>
    if text.head?.any (fun c => c.isDigit && c != '0') && text.all (·.isDigit)
        && text.length ≤ Text.maxNumeralDigits then
      some (Text.digitsValue text)
    else none

/-- The number of places that an option gives. -/
def places? (value : Text) : Option Nat := do
  let unsigned ← withoutPlus? (withoutMargins value)
  let body ← withoutZeros? unsigned
  plainNat? (withoutUnderscores (withoutFraction body))

end Reckoner.Terminal
