import Reckoner.Double.Trigonometry
import Reckoner.Expression.Basic
import Reckoner.Parsing.Parser
import Reckoner.Text.Numeral
/-!
# The rules of the grammar

From the loosest binding to the tightest:

    expression  → term (("+" | "-") term)?
    term        → factor (("*" | "/" | "%") factor)?
    factor      → number | constant | "(" expression ")" | call
    call        → function-name "(" expression ")"
    number      → sign? digits ("." digits)?
    constant    → "pi" | "PI" | "e"

A level applies its operator at most once, and nothing skips blanks. The rules that contain an
expression take the parser of the nested one as an argument, so that what bounds the nesting, and
what a run records about it, is decided elsewhere.
-/

namespace Reckoner.Grammar

variable {m : Type → Type} [Monad m]

/-! ### Numbers and names -/

def numberPattern : String := "[+-]?\\d+(\\.\\d+)?"

/-- The digits after a point at the front of a text, and what follows. A point without a digit after
it belongs to what follows. -/
def scanFraction (text : Text) : Text × Text :=
  match text with
  | '.' :: after =>
    let digits := after.takeWhile Text.isDigit
    if digits.isEmpty then ([], text) else (digits, after.dropWhile Text.isDigit)
  | _ => ([], text)

/-- The longest number at the front of a text, and what follows. -/
def scanNumber (text : Text) : Option (Double × Text) :=
  let (negative, unsigned) := Text.splitSign text
  let whole := unsigned.takeWhile Text.isDigit
  if whole.isEmpty then none
  else
    let (fraction, rest) := scanFraction (unsigned.dropWhile Text.isDigit)
    some (.ofDecimal negative (Text.digitsValue (whole ++ fraction)) (-fraction.length), rest)

def number : Parser m Expr :=
  (Parser.matching numberPattern scanNumber).map .literal

/-- The circle constant and the base of the natural logarithm. -/
def constant : Parser m Expr :=
  .oneOf
    [((Parser.literal "pi".toList).orElse (.literal "PI".toList)).map fun _ => .literal .pi,
     (Parser.literal "e".toList).map fun _ => .literal .e]

def binaryOperator : Parser m Operator :=
  .oneOf (Operator.all.map fun op => (Parser.literal op.symbol.toList).map fun _ => op)

/-- The names are tried in order. None of the six starts another, so the order does not matter; a
name that started another would have to follow it. -/
def functionName : Parser m Trig :=
  .oneOf (Trig.all.map fun f => (Parser.literal f.name.toList).map fun _ => f)

/-! ### Rules around a nested expression -/

def betweenParens (inner : Parser m Expr) : Parser m Expr :=
  (Parser.literal ['(']).andThen fun _ =>
    inner.andThen fun tree => (Parser.literal [')']).map fun _ => tree

/-- An operand, then an allowed operator and another operand if both are there; if not, the first
operand alone, and what follows it stays unread. -/
def singleApplication (operand : Parser m Expr) (allowed : Operator → Bool) (message : String) :
    Parser m Expr :=
  operand.andThen fun first =>
    ((binaryOperator.filter allowed message).andThen fun op =>
      operand.map fun second => .binary op first second).orElse (.succeed first)

def isMultiplicative : Operator → Bool
  | .mul | .div | .mod => true
  | .add | .sub => false

def isAdditive : Operator → Bool
  | .add | .sub => true
  | .mul | .div | .mod => false

section

variable (nested : Parser m Expr)

def call : Parser m Expr :=
  functionName.andThen fun f => (betweenParens nested).map (.call f)

def parenthesized : Parser m Expr := betweenParens nested

def factor : Parser m Expr :=
  ((number.orElse constant).orElse (parenthesized nested)).orElse (call nested)

def term : Parser m Expr :=
  singleApplication (factor nested) isMultiplicative "Expected operator: *, /, or %"

def expression : Parser m Expr :=
  singleApplication (term nested) isAdditive "Expected operator: + or -"

end

/-- The parser of expressions with at most `depth` of them around each other, `bottom` standing for
the ones further in. -/
def expressionWithin (bottom : Parser m Expr) : (depth : Nat) → Parser m Expr
  | 0 => bottom
  | depth + 1 => fun text => expression (expressionWithin bottom depth) text

/-- The failure of an expression that is nested too deeply, which leaves the whole text unread. -/
def nestingFailure (text : Text) : Failure :=
  ⟨"Expression nested too deeply", [], some text⟩

/-- The parser of expressions nested without a limit. An expression inside another starts behind a
parenthesis, so a text cannot hold more of them than it has characters. -/
def unlimitedExpression : Parser m Expr :=
  fun text => expressionWithin (fun unread => pure (.failure (nestingFailure unread)))
    (text.length + 1) text

end Reckoner.Grammar
