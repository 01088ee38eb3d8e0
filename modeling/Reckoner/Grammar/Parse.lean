import Reckoner.Expression.Printer
import Reckoner.Grammar.Basic
import Reckoner.Journal
/-!
# Parsing a source

Parsing gives up when expressions nest too deeply. Giving up is not a failure of one of the rules,
which an alternative could recover from, but the end of the whole parse: the rules run in `Option`,
and the parser below the last level is `none`.
-/

namespace Reckoner.Grammar

/-- How many parentheses and calls may be open at once. -/
def maxNesting : Nat := 100

/-- The parser that gives up at the nesting limit. -/
def limitedExpression : Parser Option Expr :=
  expressionWithin (fun _ => none) (maxNesting + 1)

/-- How reading a source went. In strict mode, text left over counts against it. -/
inductive Reading where
  | tooDeep
  | failed (failure : Failure)
  | trailing (tree : Expr) (rest : Text)
  | parsed (tree : Expr) (rest : Text)

/-- The reading of what the parser came to. -/
def Reading.ofOutcome (strict : Bool) : Outcome Expr → Reading
  | .failure failure => failed failure
  | .success tree rest =>
    if strict && !rest.isEmpty then trailing tree rest else parsed tree rest

def read (strict : Bool) (source : Text) : Reading :=
  match limitedExpression source with
  | none => .tooDeep
  | some outcome => .ofOutcome strict outcome

def trailingFailure (rest : Text) : Failure :=
  ⟨"Unexpected trailing input: " ++ Text.quoted rest, ["end of input"], some rest⟩

def Reading.outcome (source : Text) : Reading → Outcome Expr
  | tooDeep => .failure (nestingFailure source)
  | failed failure => .failure failure
  | trailing _ rest => .failure (trailingFailure rest)
  | parsed tree rest => .success tree rest

@[simp] theorem Reading.outcome_ofOutcome_false (source : Text) (outcome : Outcome Expr) :
    (ofOutcome false outcome).outcome source = outcome := by
  cases outcome with
  | success tree rest => rfl
  | failure why => rfl

/-- The strict check only turns down successes. -/
theorem Reading.outcome_ofOutcome_eq_success_iff {strict : Bool} {source : Text}
    {outcome : Outcome Expr} {tree : Expr} {rest : Text} :
    (ofOutcome strict outcome).outcome source = .success tree rest ↔
      outcome = .success tree rest ∧ (strict = true → rest = []) := by
  cases strict with
  | false => simp
  | true =>
    cases outcome with
    | failure why => simp [ofOutcome, Reading.outcome]
    | success found left =>
      cases left with
      | nil =>
        constructor
        · intro heq
          obtain ⟨rfl, rfl⟩ := Outcome.success.inj heq
          exact ⟨rfl, fun _ => rfl⟩
        · exact fun h => h.1
      | cons c left =>
        constructor
        · exact fun heq => nomatch heq
        · rintro ⟨heq, hall⟩
          obtain ⟨rfl, rfl⟩ := Outcome.success.inj heq
          exact nomatch hall rfl

/-- Parses an expression off the front of a source; in strict mode it has to be all of it. -/
def parse (strict : Bool) (source : Text) : Outcome Expr :=
  (read strict source).outcome source

theorem parse_eq_elim (strict : Bool) (source : Text) :
    parse strict source = (limitedExpression source).elim (.failure (nestingFailure source))
      fun outcome => (Reading.ofOutcome strict outcome).outcome source := by
  have hparse : parse strict source = (match limitedExpression source with
      | none => Reading.tooDeep
      | some outcome => .ofOutcome strict outcome).outcome source := rfl
  rw [hparse]
  cases limitedExpression source with
  | none => rfl
  | some outcome => rfl

/-- What the log says of a reading. -/
def Reading.message (source : Text) : Reading → String
  | tooDeep => s!"Parse of {source.length} chars exceeded the recursion limit"
  | failed failure => "Parse of " ++ Text.quoted source ++ " failed: " ++ failure.describe
  | trailing _ rest =>
    "Parse of " ++ Text.quoted source ++ " left trailing input " ++ Text.quoted rest
  | parsed tree rest =>
    "Parsed " ++ Text.quoted source ++ " as " ++ tree.render ++ " (rest=" ++ Text.quoted rest ++ ")"

def Reading.record (source : Text) (reading : Reading) : Record :=
  ⟨"astcalc.core.calc_lang.grammar", .debug, reading.message source⟩

end Reckoner.Grammar
