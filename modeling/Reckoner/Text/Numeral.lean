import Reckoner.Text.Digit
/-!
# Numerals

The written form of whole numbers where they come as free text: blanks around them are dropped, a
sign may stand in front, and single underscores may group the digits.
-/

namespace Reckoner.Text

/-- The blanks of Unicode: the separators that space text or end lines, and the ASCII controls that
do so. -/
def isBlank (c : Char) : Bool :=
  let n := c.toNat
  (0x9 ≤ n && n ≤ 0xd) || (0x1c ≤ n && n ≤ 0x20) || n == 0x85 || n == 0xa0 || n == 0x1680
    || (0x2000 ≤ n && n ≤ 0x200a) || n == 0x2028 || n == 0x2029 || n == 0x202f || n == 0x205f
    || n == 0x3000

/-- The text without the blanks at its two ends. -/
def trim (text : Text) : Text :=
  ((text.dropWhile isBlank).reverse.dropWhile isBlank).reverse

/-- The text without its underscores, each of which has to stand between two digits. -/
def ungrouped? (text : Text) : Option Text :=
  go false text
where
  go (afterDigit : Bool) : Text → Option Text
    | [] => some []
    | ['_'] => none
    | '_' :: c :: rest =>
      if afterDigit && isDigit c then (go true rest).map (c :: ·) else none
    | c :: rest => (go (isDigit c) rest).map (c :: ·)

/-- The sign in front of a numeral, and the text after it. -/
def splitSign : Text → Bool × Text
  | '-' :: rest => (true, rest)
  | '+' :: rest => (false, rest)
  | text => (false, text)

/-- A decimal numeral longer than this is refused rather than converted. -/
def maxNumeralDigits : Nat := 4300

/-- Whether the decimal numeral of a whole number is short enough to be converted to. -/
def hasNumeral (n : Int) : Bool := n.natAbs < Nat.pow 10 maxNumeralDigits

/-- The whole number that a text writes. -/
def readInt? (text : Text) : Option Int := do
  let (negative, body) := splitSign (trim text)
  let digits ← ungrouped? body
  guard (!digits.isEmpty && digits.all isDigit && digits.length ≤ maxNumeralDigits)
  let magnitude : Int := digitsValue digits
  return if negative then -magnitude else magnitude

/-- The decimal digits of a natural number. -/
def ofNat (n : Nat) : Text := Nat.toDigits 10 n

/-- A whole number in decimal digits, with its sign if it is negative. -/
def ofInt (n : Int) : Text :=
  (if n < 0 then ['-'] else []) ++ ofNat n.natAbs

/-- The decimal digits of a natural number, with zeros in front up to a width. -/
def ofNatPadded (width n : Nat) : Text :=
  let digits := ofNat n
  List.replicate (width - digits.length) '0' ++ digits

end Reckoner.Text
