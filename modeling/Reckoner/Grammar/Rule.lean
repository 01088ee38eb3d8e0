import Reckoner.Grammar.Parse
import Reckoner.Parsing.Value
/-!
# The rules by name

Each rule of the grammar can be run on its own, and on what it left before, without a limit on the
nesting.
-/

namespace Reckoner.Grammar

inductive Rule where
  | number | constant | binaryOperator | functionName | call | parenthesized | factor | term
  | expression
deriving DecidableEq

namespace Rule

def all : List Rule :=
  [number, constant, binaryOperator, functionName, call, parenthesized, factor, term, expression]

def name : Rule → String
  | number => "NUMBER"
  | constant => "CONSTANT"
  | binaryOperator => "BINARY_OPERATOR"
  | functionName => "FUNCTION_NAME"
  | call => "UNARY_FUNCTION"
  | parenthesized => "PARENTHESIZED"
  | factor => "FACTOR"
  | term => "TERM"
  | expression => "EXPRESSION"

def ofName? (name : String) : Option Rule :=
  all.find? (·.name == name)

variable {m : Type → Type} [Monad m]

/-- The parser of a rule around the parser of nested expressions. -/
def parserAround (nested : Parser m Expr) : Rule → Parser m Value
  | number => Grammar.number.map .tree
  | constant => Grammar.constant.map .tree
  | binaryOperator => Grammar.binaryOperator.map fun op => .text op.symbol.toList
  | functionName => Grammar.functionName.map fun f => .text f.name.toList
  | call => (Grammar.call nested).map .tree
  | parenthesized => (Grammar.parenthesized nested).map .tree
  | factor => (Grammar.factor nested).map .tree
  | term => (Grammar.term nested).map .tree
  | expression => (Grammar.expression nested).map .tree

/-- The parser of a rule. A limit on the nesting stands where the program has an answer for too much
of it: in parsing a source and in evaluating a tree, whose levels rendering and comparing go through
as well. A rule by itself has no such answer and so no limit; what stands here is what it comes to
where there is room enough. -/
def parser (rule : Rule) : Parser m Value :=
  parserAround unlimitedExpression rule

/-- The outcome of a rule on a text, however deep it is nested. -/
def run (rule : Rule) (text : Text) : Outcome Value :=
  (rule.parser : Parser Id Value) text

/-- The rule run on the text, then on what each success leaves, until a failure, the end of the text
or the given number of runs. -/
def chain (rule : Rule) : (runs : Nat) → Text → List (Outcome Value)
  | 0, _ => []
  | runs + 1, text =>
    let outcome := rule.run text
    outcome :: match outcome with
      | .success _ rest => if rest.isEmpty then [] else chain rule runs rest
      | .failure _ => []

end Rule

end Reckoner.Grammar
