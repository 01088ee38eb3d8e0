import Reckoner.Text.Basic
import Reckoner.Text.Printable
/-!
# Quoted text

Messages show pieces of input between quotes, so that blanks, line ends and invisible characters can
be told apart. The quotes are single ones unless that would force an escape that double ones avoid;
a backslash, the quote in use and every character without a visible form are escaped.
-/

namespace Reckoner.Text

/-- The last `width` hexadecimal digits of `n`, in lower case. -/
def hexDigits : (width : Nat) → (n : Nat) → Text
  | 0, _ => []
  | width + 1, n => hexDigits width (n / 16) ++ [Nat.digitChar (n % 16)]

/-- A character by number, in the shortest of the three escapes that can hold it. -/
def numericEscape (c : Char) : Text :=
  if c.toNat < 0x100 then '\\' :: 'x' :: hexDigits 2 c.toNat
  else if c.toNat < 0x10000 then '\\' :: 'u' :: hexDigits 4 c.toNat
  else '\\' :: 'U' :: hexDigits 8 c.toNat

/-- How one character stands between quotes `mark`. -/
def escapeChar (mark c : Char) : Text :=
  if c = '\\' ∨ c = mark then ['\\', c]
  else if c = '\n' then ['\\', 'n']
  else if c = '\r' then ['\\', 'r']
  else if c = '\t' then ['\\', 't']
  else if isPrintable c then [c]
  else numericEscape c

/-- The quote a text is put between. -/
def quoteMark (text : Text) : Char :=
  if '\'' ∈ text ∧ '"' ∉ text then '"' else '\''

def quotedChars (text : Text) : Text :=
  let mark := quoteMark text
  mark :: text.flatMap (escapeChar mark) ++ [mark]

/-- The text between quotes, with everything that could mislead a reader escaped. -/
def quoted (text : Text) : String :=
  String.ofList (quotedChars text)

end Reckoner.Text
