import Reckoner.Proofs.Grammar.Within
import Reckoner.Proofs.Parsing.Translation
/-!
# The recursion of the grammar

A rule looks for a nested expression only behind a parenthesis, in a text that is shorter than its
own. Two parsers of nested expressions that agree on the shorter texts therefore give the same rule,
and unfolding the rules once for every character of a text is as good as unfolding them for ever:
the parser without a limit is the rule of expressions around itself.
-/

namespace Reckoner.Grammar

open Reckoner.Parser (Gives StaysWithin translated)

/-! ### Rules in another monad -/

section

variable {m n : Type → Type} [Monad m] [Monad n] (t : Translation m n)

@[simp] theorem translated_number : translated t number = number := by
  simp [number]

@[simp] theorem translated_constant : translated t constant = constant := by
  simp [constant]

@[simp] theorem translated_binaryOperator : translated t binaryOperator = binaryOperator := by
  simp [binaryOperator, Function.comp_def]

@[simp] theorem translated_functionName : translated t functionName = functionName := by
  simp [functionName, Function.comp_def]

@[simp] theorem translated_betweenParens (nested : Parser m Expr) :
    translated t (betweenParens nested) = betweenParens (translated t nested) := by
  simp [betweenParens]

@[simp] theorem translated_singleApplication (operand : Parser m Expr) (allowed : Operator → Bool)
    (message : String) :
    translated t (singleApplication operand allowed message) =
      singleApplication (translated t operand) allowed message := by
  simp [singleApplication]

@[simp] theorem translated_call (nested : Parser m Expr) :
    translated t (call nested) = call (translated t nested) := by
  simp [call]

@[simp] theorem translated_factor (nested : Parser m Expr) :
    translated t (factor nested) = factor (translated t nested) := by
  simp [factor, parenthesized]

@[simp] theorem translated_expression (nested : Parser m Expr) :
    translated t (expression nested) = expression (translated t nested) := by
  simp [expression, term]

theorem translated_expressionWithin (bottom : Parser m Expr) (depth : Nat) :
    translated t (expressionWithin bottom depth) =
      expressionWithin (translated t bottom) depth := by
  induction depth with
  | zero => rfl
  | succ depth ih =>
    rw [expressionWithin, expressionWithin, ← ih]
    exact translated_expression t _

@[simp] theorem translated_unlimitedExpression :
    translated t unlimitedExpression = unlimitedExpression := by
  have hbottom : translated t (outOfText : Parser m Expr) = outOfText := by
    funext unread
    exact t.apply_pure _
  funext text
  have hwithin := translated_expressionWithin t outOfText (text.length + 1)
  rw [hbottom] at hwithin
  exact congrFun hwithin text

/-- The rules by name have no effects of their own. -/
theorem translated_rule (rule : Rule) : translated t rule.parser = rule.parser := by
  cases rule <;> simp [Rule.parser, Rule.parserAround, term, parenthesized]

end

/-! ### Nested expressions are shorter -/

section

variable {m : Type → Type} [Monad m] [LawfulMonad m] [MonadAttach m] [LawfulMonadAttach m]
  {handMade : Bool} {nested other : Parser m Expr} {text : Text}

theorem betweenParens_congr (h : ∀ inner, inner.length < text.length → nested inner = other inner) :
    betweenParens nested text = betweenParens other text := by
  refine Parser.andThen_congr rfl fun value rest hopen => ?_
  obtain rfl : text = '(' :: rest := Parser.gives_literal_success hopen
  exact Parser.andThen_congr (h rest (by simp)) fun _ _ _ => rfl

theorem call_congr (h : ∀ inner, inner.length < text.length → nested inner = other inner) :
    call nested text = call other text := by
  refine Parser.andThen_congr rfl fun f rest hname => ?_
  have hstays : (functionName : Parser m Trig).StaysWithin false := functionName_staysWithin
  have hrest : rest <:+ text := hstays text _ hname
  have hparens : betweenParens nested rest = betweenParens other rest :=
    betweenParens_congr fun inner hinner => h inner (Nat.lt_of_lt_of_le hinner hrest.length_le)
  rw [Parser.map, Parser.map, hparens]

theorem factor_congr (h : ∀ inner, inner.length < text.length → nested inner = other inner) :
    factor nested text = factor other text := by
  simp only [factor, Parser.orElse, parenthesized, betweenParens_congr h, call_congr h]

theorem singleApplication_congr {operand operand' : Parser m Expr} {allowed : Operator → Bool}
    {message : String} (hstays : operand.StaysWithin handMade)
    (h : ∀ part, part.length ≤ text.length → operand part = operand' part) :
    singleApplication operand allowed message text =
      singleApplication operand' allowed message text := by
  refine Parser.andThen_congr (h text (Nat.le_refl _)) fun first rest hfirst => ?_
  have hrest : rest <:+ text := hstays text _ hfirst
  have hsecond : ((binaryOperator.filter allowed message).andThen fun op =>
      operand.map fun second => Expr.binary op first second) rest =
      ((binaryOperator.filter allowed message).andThen fun op =>
        operand'.map fun second => Expr.binary op first second) rest := by
    refine Parser.andThen_congr rfl fun op part hop => ?_
    have hoperator : (binaryOperator : Parser m Operator).StaysWithin false :=
      binaryOperator_staysWithin
    have hpart : part <:+ rest := hoperator.filter _ _ rest _ hop
    rw [Parser.map, Parser.map, h part (hpart.trans hrest).length_le]
  rw [Parser.orElse, Parser.orElse, hsecond]

theorem term_congr (hstays : nested.StaysWithin handMade)
    (h : ∀ inner, inner.length < text.length → nested inner = other inner) :
    term nested text = term other text :=
  singleApplication_congr (factor_staysWithin hstays) fun _ hpart =>
    factor_congr fun inner hinner => h inner (Nat.lt_of_lt_of_le hinner hpart)

theorem expression_congr (hstays : nested.StaysWithin handMade)
    (h : ∀ inner, inner.length < text.length → nested inner = other inner) :
    expression nested text = expression other text :=
  singleApplication_congr (term_staysWithin hstays) fun _ hpart =>
    term_congr hstays fun inner hinner => h inner (Nat.lt_of_lt_of_le hinner hpart)

end

/-! ### Unfolding often enough -/

section

variable {m : Type → Type} [MonadAttach m] {step : Parser m Expr → Parser m Expr}
  {bottom : Parser m Expr}

/-- The step taken `depth` times around the bottom. -/
def unfolded (step : Parser m Expr → Parser m Expr) (bottom : Parser m Expr) :
    (depth : Nat) → Parser m Expr
  | 0 => bottom
  | depth + 1 => step (unfolded step bottom depth)

/-- A step that asks the parser it is around only about shorter texts. -/
structure Descending (step : Parser m Expr → Parser m Expr) : Prop where
  staysWithin : ∀ {nested}, nested.StaysWithin false → (step nested).StaysWithin false
  congr : ∀ {nested other text}, nested.StaysWithin false →
    (∀ inner : Text, inner.length < text.length → nested inner = other inner) →
      step nested text = step other text

theorem Descending.unfolded_staysWithin (hstep : Descending step)
    (hbottom : bottom.StaysWithin false) (depth : Nat) :
    (unfolded step bottom depth).StaysWithin false := by
  induction depth with
  | zero => exact hbottom
  | succ depth ih => exact hstep.staysWithin ih

theorem Descending.unfolded_eq (hstep : Descending step) (hbottom : bottom.StaysWithin false)
    {depth depth' : Nat} {text : Text} (hdepth : text.length < depth)
    (hdepth' : text.length < depth') :
    unfolded step bottom depth text = unfolded step bottom depth' text := by
  induction depth generalizing depth' text with
  | zero => exact absurd hdepth (Nat.not_lt_zero _)
  | succ depth ih =>
    cases depth' with
    | zero => exact absurd hdepth' (Nat.not_lt_zero _)
    | succ depth' =>
      -- What is inside is shorter, so the depths that are left are enough for it.
      refine hstep.congr (hstep.unfolded_staysWithin hbottom depth) fun inner hinner => ?_
      exact ih (by omega) (by omega)

/-- The step unfolded once more than the text has characters. -/
def unfoldedAlong (step : Parser m Expr → Parser m Expr) (bottom : Parser m Expr) : Parser m Expr :=
  fun text => unfolded step bottom (text.length + 1) text

theorem Descending.unfoldedAlong_staysWithin (hstep : Descending step)
    (hbottom : bottom.StaysWithin false) : (unfoldedAlong step bottom).StaysWithin false :=
  fun text => hstep.unfolded_staysWithin hbottom (text.length + 1) text

/-- Unfolded along the text, a descending step is around itself. -/
theorem Descending.unfoldedAlong_eq (hstep : Descending step) (hbottom : bottom.StaysWithin false) :
    unfoldedAlong step bottom = step (unfoldedAlong step bottom) := by
  funext text
  refine hstep.congr (hstep.unfolded_staysWithin hbottom text.length) fun inner hinner => ?_
  exact hstep.unfolded_eq hbottom hinner (Nat.lt_succ_self _)

end

section

variable {m : Type → Type} [Monad m]

theorem expressionWithin_eq_unfolded (bottom : Parser m Expr) (depth : Nat) :
    expressionWithin bottom depth = unfolded expression bottom depth := by
  induction depth with
  | zero => rfl
  | succ depth ih =>
    rw [unfolded, ← ih]
    rfl

theorem unlimitedExpression_eq_unfoldedAlong :
    (unlimitedExpression : Parser m Expr) = unfoldedAlong expression outOfText := by
  funext text
  exact congrFun (expressionWithin_eq_unfolded outOfText _) text

variable [LawfulMonad m] [MonadAttach m] [LawfulMonadAttach m]

theorem expression_descending : Descending (expression : Parser m Expr → Parser m Expr) where
  staysWithin := expression_staysWithin
  congr := expression_congr

/-- The parser without a limit is the rule of expressions around itself. -/
theorem unlimitedExpression_eq :
    (unlimitedExpression : Parser m Expr) = expression unlimitedExpression := by
  rw [unlimitedExpression_eq_unfoldedAlong]
  exact expression_descending.unfoldedAlong_eq outOfText_staysWithin

end

/-- What the parser without a limit comes to. -/
def unlimited (source : Text) : Outcome Expr := Id.run (unlimitedExpression source)

end Reckoner.Grammar
