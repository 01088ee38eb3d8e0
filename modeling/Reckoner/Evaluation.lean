import Reckoner.Double.Trigonometry
import Reckoner.Expression.Draft
import Reckoner.Expression.Printer
import Reckoner.Grammar.Parse
/-!
# Evaluation

Arithmetic never stops an evaluation: where an operation has no value, the answer is the one
binary64 arithmetic gives, an infinity or `nan`. What does stop it is a tree that means nothing, and
then the first defect met is reported. A node is entered, then its arguments from left to right,
then its name is applied.
-/

namespace Reckoner

/-! ### The operations -/

/-- The value of an operator; `none` would mean that a guard has let through operands on which the
arithmetic has no answer. -/
def Operator.value? (op : Operator) (x y : Double) : Option Double :=
  match op with
  | add => some (x.add y)
  | sub => some (x.sub y)
  | mul => some (x.mul y)
  | div => if y.isZero then some (x.overZero y) else x.div? y
  | mod =>
    if y.isZero || x.isInfinite || x.isNaN || y.isNaN then some .nan else x.rem? y

/-- The value of a function, as above. -/
def Trig.value? (f : Trig) (x : Double) : Option Double :=
  match f with
  | sine => if x.isInfinite then some .nan else x.toRadians.sin?
  | cosine => if x.isInfinite then some .nan else x.toRadians.cos?
  | tangent => if x.isInfinite then some .nan else x.toRadians.tan?
  | arcsine => if x.inUnitInterval then x.asin?.map Double.toDegrees else some .nan
  | arccosine => if x.inUnitInterval then x.acos?.map Double.toDegrees else some .nan
  | arctangent => some x.atan.toDegrees

/-! ### Trees -/

/-- Why a tree has no value. -/
inductive EvalError where
  | unsupported (name : String)
  | missingArgument
  | nestedTooDeeply
  | notAnExpression (kind : Kind)
  | undefinedValue
deriving DecidableEq

def EvalError.message : EvalError → String
  | unsupported name => "Unsupported operator: " ++ name
  | missingArgument => "list index out of range"
  | nestedTooDeeply => "Expression nested too deeply"
  | notAnExpression kind => "Unknown node type: " ++ kind.name
  | undefinedValue => "math domain error"

namespace Evaluation

/-- An operation on the first arguments there are; further ones are ignored. -/
def applyName (name : String) (args : List Double) : Except EvalError Double :=
  match Operator.ofSymbol? name with
  | some op =>
    match args with
    | x :: y :: _ => (op.value? x y).elim (throw .undefinedValue) pure
    | _ => throw .missingArgument
  | none =>
    match Trig.ofName? name with
    | some f =>
      match args with
      | x :: _ => (f.value? x).elim (throw .undefinedValue) pure
      | [] => throw .missingArgument
    | none => throw (.unsupported name)

mutual

/-- The value of a tree with room for `depth` levels. -/
def valueWithin : (depth : Nat) → Expr → Except EvalError Double
  | 0, _ => throw .nestedTooDeeply
  | _ + 1, .literal value => pure value
  | depth + 1, .apply name args => do applyName name (← valuesWithin depth args)

def valuesWithin : (depth : Nat) → List Expr → Except EvalError (List Double)
  | _, [] => pure []
  | depth, arg :: rest => do
    let value ← valueWithin depth arg
    return value :: (← valuesWithin depth rest)

end

/-- The value of an expression. -/
def evaluate (tree : Expr) : Except EvalError Double :=
  valueWithin Expr.maxDepth tree

/-- What the log says of an evaluation that came to an end. -/
def record (tree : Expr) (value : Double) : Record :=
  ⟨"astcalc.core.calc_lang.evaluator", .debug,
    "Evaluated " ++ tree.render ++ " = " ++ String.ofList value.fullText⟩

def records (tree : Expr) : Except EvalError Double → List Record
  | .ok value => [record tree value]
  | .error _ => []

/-- The value of what a draft came to. -/
def evaluateSubject : Subject → Except EvalError Double
  | .expression tree => evaluate tree
  | .foreign value => throw (.notAnExpression value.kind)

/-- What the log says of the evaluation of what a draft came to. -/
def subjectRecords : Subject → List Record
  | .expression tree => records tree (evaluate tree)
  | .foreign _ => []

/-- Why a source has no value. -/
inductive CalcError where
  | unreadable (failure : Failure)
  | senseless (error : EvalError)

/-- Parses a source and evaluates what it says. -/
def calculate (strict : Bool) (source : Text) : Except CalcError Double :=
  match Grammar.parse strict source with
  | .failure failure => throw (.unreadable failure)
  | .success tree _ => (evaluate tree).mapError .senseless

/-- What a calculation logs. -/
def calculationRecords (strict : Bool) (source : Text) : List Record :=
  let reading := Grammar.read strict source
  reading.record source :: match reading.outcome source with
    | .success tree _ => records tree (evaluate tree)
    | .failure _ => []

end Evaluation

end Reckoner
