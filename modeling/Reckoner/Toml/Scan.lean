import Reckoner.Double.Reader
import Reckoner.Toml.Value
/-!
# The lexical parts of a configuration file

Blanks, comments, keys, strings, numbers, dates and times. A scanner takes its part off the front of
the text and gives back the rest. Those that end in a question mark answer `none` when the text does
not start with such a part at all, so that another can be tried.
-/

namespace Reckoner.Toml

/-- Why a file is not read. A numeral of excessive length and values inside too many others are told
apart from bad form. -/
inductive Fault where
  | malformed
  | oversized
  | tooDeep
deriving DecidableEq

/-- How far the reading of a file may go. -/
structure Limits where
  /-- The digits that a decimal numeral may have. -/
  digits : Nat
  /-- The calls that may still lie inside each other. -/
  room : Nat

/-! ### Blanks and comments -/

def isSpace (c : Char) : Bool := c == ' ' || c == '\t'

def isSpaceOrNewline (c : Char) : Bool := isSpace c || c == '\n'

def skipSpaces (text : Text) : Text := text.dropWhile isSpace

/-- The controls, which may not stand in a file as themselves; a tab may. -/
def isForbidden (c : Char) : Bool := (c.toNat < 0x20 || c.toNat == 0x7f) && c != '\t'

/-- Drops a comment, which goes up to the end of the line. -/
def skipComment : Text → Except Fault Text
  | '#' :: rest =>
    if (rest.takeWhile (· != '\n')).any isForbidden then throw .malformed
    else pure (rest.dropWhile (· != '\n'))
  | text => pure text

/-- Drops the blanks, line ends and comments that may stand between the items of an array. -/
def skipBetweenItems : (fuel : Nat) → Text → Except Fault Text
  | 0, text => pure text
  | fuel + 1, text => do
    let rest ← skipComment (text.dropWhile isSpaceOrNewline)
    if rest.length < text.length then skipBetweenItems fuel rest else pure rest

/-! ### Strings -/

def hexValue? (c : Char) : Option Nat :=
  if '0' ≤ c ∧ c ≤ '9' then some (c.toNat - '0'.toNat)
  else if 'a' ≤ c ∧ c ≤ 'f' then some (c.toNat - 'a'.toNat + 10)
  else if 'A' ≤ c ∧ c ≤ 'F' then some (c.toNat - 'A'.toNat + 10)
  else none

/-- The number that digits write in a base; a character that is no digit counts nothing. -/
def valueInBase (base : Nat) (digits : Text) : Nat :=
  digits.foldl (fun n c => base * n + (hexValue? c).getD 0) 0

/-- A character given by its number in so many hexadecimal digits. -/
def scanCodePoint (width : Nat) (text : Text) : Except Fault (Text × Text) :=
  let digits := text.take width
  let n := valueInBase 16 digits
  if digits.length = width ∧ digits.all (fun c => (hexValue? c).isSome) ∧ n.isValidChar then
    pure ([Char.ofNat n], text.drop width)
  else throw .malformed

/-- The end of a line that a backslash continues: blanks, the line end, and the blanks and empty
lines after it. -/
def scanContinuation (text : Text) : Except Fault (Text × Text) :=
  match skipSpaces text with
  | [] => pure ([], [])
  | '\n' :: rest => pure ([], rest.dropWhile isSpaceOrNewline)
  | _ => throw .malformed

/-- What follows a backslash, and the characters it stands for. -/
def scanEscape (multiline : Bool) : Text → Except Fault (Text × Text)
  | 'b' :: rest => pure (['\x08'], rest)
  | 't' :: rest => pure (['\t'], rest)
  | 'n' :: rest => pure (['\n'], rest)
  | 'f' :: rest => pure (['\x0c'], rest)
  | 'r' :: rest => pure (['\r'], rest)
  | '"' :: rest => pure (['"'], rest)
  | '\\' :: rest => pure (['\\'], rest)
  | 'u' :: rest => scanCodePoint 4 rest
  | 'U' :: rest => scanCodePoint 8 rest
  | c :: rest =>
    if multiline && isSpaceOrNewline c then scanContinuation (c :: rest) else throw .malformed
  | [] => throw .malformed

/-- The rest of a string with escapes, up to and without its closing quotes. -/
def scanBasic (multiline : Bool) : (fuel : Nat) → Text → Except Fault (Text × Text)
  | 0, _ => throw .malformed
  | _ + 1, [] => throw .malformed
  | fuel + 1, '"' :: rest =>
    if multiline then
      match rest with
      | '"' :: '"' :: after => pure ([], after)
      | _ => do
        let (more, rest) ← scanBasic multiline fuel rest
        return ('"' :: more, rest)
    else pure ([], rest)
  | fuel + 1, '\\' :: rest => do
    let (piece, rest) ← scanEscape multiline rest
    let (more, rest) ← scanBasic multiline fuel rest
    return (piece ++ more, rest)
  | fuel + 1, c :: rest =>
    if isForbidden c && !(multiline && c == '\n') then throw .malformed
    else do
      let (more, rest) ← scanBasic multiline fuel rest
      return (c :: more, rest)

/-- The rest of a one-line string without escapes. -/
def scanLiteral (text : Text) : Except Fault (Text × Text) :=
  let body := text.takeWhile (· != '\'')
  match text.dropWhile (· != '\'') with
  | _ :: rest => if body.any isForbidden then throw .malformed else pure (body, rest)
  | [] => throw .malformed

/-- The text before three quotes in a row, and the text after them. -/
def splitAtQuotes : Text → Option (Text × Text)
  | '\'' :: '\'' :: '\'' :: rest => some ([], rest)
  | c :: rest => (splitAtQuotes rest).map fun (body, rest) => (c :: body, rest)
  | [] => none

/-- The rest of a string of several lines without escapes. -/
def scanLiteralLines (text : Text) : Except Fault (Text × Text) :=
  match splitAtQuotes text with
  | some (body, rest) =>
    if body.any (fun c => isForbidden c && c != '\n') then throw .malformed else pure (body, rest)
  | none => throw .malformed

/-- A string of several lines may end in up to two quotes of its own, before the three that close
it. -/
def withOwnQuotes (mark : Char) (body rest : Text) : Text × Text :=
  let own := (rest.take 2).takeWhile (· == mark)
  (body ++ own, rest.drop own.length)

/-- A line end right after the opening quotes is not part of the string. -/
def dropFirstNewline : Text → Text
  | '\n' :: rest => rest
  | text => text

/-- A string of any of the four kinds. -/
def scanString? : Text → Option (Except Fault (Text × Text))
  | '"' :: '"' :: '"' :: rest => some do
    let (body, rest) ← scanBasic true (rest.length + 1) (dropFirstNewline rest)
    return withOwnQuotes '"' body rest
  | '"' :: rest => some (scanBasic false (rest.length + 1) rest)
  | '\'' :: '\'' :: '\'' :: rest => some do
    let (body, rest) ← scanLiteralLines (dropFirstNewline rest)
    return withOwnQuotes '\'' body rest
  | '\'' :: rest => some (scanLiteral rest)
  | _ => none

/-! ### Keys -/

def isBareKeyChar (c : Char) : Bool := c.isAlphanum || c == '-' || c == '_'

def scanKeyPart : Text → Except Fault (Text × Text)
  | '"' :: rest => scanBasic false (rest.length + 1) rest
  | '\'' :: rest => scanLiteral rest
  | text =>
    let key := text.takeWhile isBareKeyChar
    if key.isEmpty then throw .malformed else pure (key, text.dropWhile isBareKeyChar)

/-- A key of several parts with points between them, and the blanks after it. -/
def scanKey : (fuel : Nat) → Text → Except Fault (List Text × Text)
  | 0, _ => throw .malformed
  | fuel + 1, text => do
    let (part, rest) ← scanKeyPart text
    match skipSpaces rest with
    | '.' :: rest =>
      let (parts, rest) ← scanKey fuel (skipSpaces rest)
      return (part :: parts, rest)
    | rest => return ([part], rest)

/-! ### Numbers -/

def isDecimal (c : Char) : Bool := c.isDigit

def isHex (c : Char) : Bool := (hexValue? c).isSome

def isOctal (c : Char) : Bool := '0' ≤ c && c ≤ '7'

def isBinary (c : Char) : Bool := c == '0' || c == '1'

/-- The digits that go on a numeral; an underscore may stand before each. -/
def moreDigits (isDigit : Char → Bool) : Text → Text × Text
  | [] => ([], [])
  | '_' :: c :: rest =>
    if isDigit c then
      let (digits, rest) := moreDigits isDigit rest
      (c :: digits, rest)
    else ([], '_' :: c :: rest)
  | c :: rest =>
    if isDigit c then
      let (digits, rest) := moreDigits isDigit rest
      (c :: digits, rest)
    else ([], c :: rest)

def digits? (isDigit : Char → Bool) : Text → Option (Text × Text)
  | c :: rest =>
    if isDigit c then
      let (digits, rest) := moreDigits isDigit rest
      some (c :: digits, rest)
    else none
  | [] => none

/-- A whole number in another base than ten. -/
def scanRadix? : Text → Option (Nat × Text)
  | '0' :: 'x' :: rest => (digits? isHex rest).map fun (ds, rest) => (valueInBase 16 ds, rest)
  | '0' :: 'b' :: rest => (digits? isBinary rest).map fun (ds, rest) => (valueInBase 2 ds, rest)
  | '0' :: 'o' :: rest => (digits? isOctal rest).map fun (ds, rest) => (valueInBase 8 ds, rest)
  | _ => none

/-- The digits before the point: a lone zero, or digits that do not start with one. -/
def scanWhole? : Text → Option (Text × Text)
  | '0' :: rest => some (['0'], rest)
  | text => digits? isDecimal text

def scanFraction? : Text → Option (Text × Text)
  | '.' :: rest => digits? isDecimal rest
  | _ => none

def scanExponent? : Text → Option (Int × Text)
  | mark :: rest => do
    guard (mark == 'e' || mark == 'E')
    let (negative, unsigned) := Text.splitSign rest
    let (digits, rest) ← digits? isDecimal unsigned
    let magnitude : Int := valueInBase 10 digits
    return (if negative then -magnitude else magnitude, rest)
  | [] => none

/-- The whole number that decimal digits write, if they are not too many. -/
def wholeNumber (maxDigits : Nat) (negative : Bool) (digits : Text) : Except Fault Value :=
  if maxDigits < digits.length then throw .oversized
  else
    let magnitude : Int := valueInBase 10 digits
    pure (.integer (if negative then -magnitude else magnitude))

/-- A number in decimal digits; a point or an exponent makes it a binary64 number. -/
def scanDecimal? (maxDigits : Nat) (text : Text) : Option (Except Fault (Value × Text)) := do
  let (negative, unsigned) := Text.splitSign text
  let (whole, rest) ← scanWhole? unsigned
  let (fraction, rest) := (scanFraction? rest).getD ([], rest)
  match scanExponent? rest with
  | some (exponent, rest) =>
    return pure (float negative whole fraction exponent, rest)
  | none =>
    if !fraction.isEmpty then return pure (float negative whole fraction 0, rest)
    else return do return (← wholeNumber maxDigits negative whole, rest)
where
  float (negative : Bool) (whole fraction : Text) (exponent : Int) : Value :=
    .float (.ofScientific negative (valueInBase 10 (whole ++ fraction))
      (exponent - fraction.length))

def scanNumber? (maxDigits : Nat) (text : Text) : Option (Except Fault (Value × Text)) :=
  match scanRadix? text with
  | some (n, rest) => some (pure (.integer n, rest))
  | none => scanDecimal? maxDigits text

/-- The values that have no digits, with or without a sign. -/
def scanSpecial? (text : Text) : Option (Value × Text) :=
  let (negative, unsigned) := Text.splitSign text
  match unsigned with
  | 'i' :: 'n' :: 'f' :: rest => some (.float (.infinity negative), rest)
  | 'n' :: 'a' :: 'n' :: rest => some (.float .nan, rest)
  | _ => none

/-! ### Dates and times -/

/-- A number of exactly so many digits, within bounds. -/
def scanField? (width least most : Nat) (text : Text) : Option (Nat × Text) :=
  let digits := text.take width
  let n := valueInBase 10 digits
  if digits.length = width ∧ digits.all isDecimal ∧ least ≤ n ∧ n ≤ most then
    some (n, text.drop width)
  else none

def expect? (c : Char) : Text → Option Text
  | d :: rest => if c = d then some rest else none
  | [] => none

def scanDate? (text : Text) : Option (Date × Text) := do
  let (year, rest) ← scanField? 4 0 9999 text
  let (month, rest) ← scanField? 2 1 12 (← expect? '-' rest)
  let (day, rest) ← scanField? 2 1 31 (← expect? '-' rest)
  return (⟨year, month, day⟩, rest)

/-- A fraction of a second in microseconds; further digits are dropped. -/
def scanMicroseconds (text : Text) : Nat × Text :=
  match text with
  | '.' :: after =>
    let digits := after.takeWhile isDecimal
    if digits.isEmpty then (0, text)
    else
      let kept := digits.take 6
      (valueInBase 10 kept * Nat.pow 10 (6 - kept.length), after.dropWhile isDecimal)
  | _ => (0, text)

def scanTime? (text : Text) : Option (Time × Text) := do
  let (hour, rest) ← scanField? 2 0 23 text
  let (minute, rest) ← scanField? 2 0 59 (← expect? ':' rest)
  let (second, rest) ← scanField? 2 0 59 (← expect? ':' rest)
  let (microsecond, rest) := scanMicroseconds rest
  return (⟨hour, minute, second, microsecond⟩, rest)

def scanOffset? (text : Text) : Option (Offset × Text) :=
  match text with
  | 'Z' :: rest | 'z' :: rest => some (0, rest)
  | sign :: rest => do
    guard (sign == '+' || sign == '-')
    let (hours, rest) ← scanField? 2 0 23 rest
    let (minutes, rest) ← scanField? 2 0 59 (← expect? ':' rest)
    let offset : Int := hours * 60 + minutes
    return (if sign == '-' then -offset else offset, rest)
  | [] => none

/-- The time that may follow a date, after a letter or a blank. -/
def scanTimeAfterDate? : Text → Option (Time × Text)
  | 'T' :: rest | 't' :: rest | ' ' :: rest => scanTime? rest
  | _ => none

/-- A date, a time or both. A date that the calendar does not have is an error. -/
def scanMoment? (text : Text) : Option (Except Fault (Value × Text)) :=
  match scanDate? text with
  | some (date, rest) => some <|
    if !date.isValid then throw .malformed
    else match scanTimeAfterDate? rest with
      | none => pure (.date date, rest)
      | some (time, rest) =>
        match scanOffset? rest with
        | some (offset, rest) => pure (.dateTime date time (some offset), rest)
        | none => pure (.dateTime date time none, rest)
  | none => (scanTime? text).map fun (time, rest) => pure (.time time, rest)

end Reckoner.Toml
