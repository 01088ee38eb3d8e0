import Reckoner.Grammar.Rule
import Reckoner.Proofs.Parsing.Within
/-!
# The rules of the grammar stay within their text

The rules are put together from combinators that do, so all there is to see to is the scanner of
numbers and the recursion, where the parser of nested expressions is known to stay within its text
one level further in.
-/

namespace Reckoner.Grammar

open Reckoner.Parser (StaysWithin)

theorem scanFraction_suffix (text : Text) : (scanFraction text).2 <:+ text := by
  unfold scanFraction
  split
  · next after =>
    by_cases hdigits : (after.takeWhile Text.isDigit).isEmpty
    · simp only [hdigits, if_true]
      exact List.suffix_rfl
    · simp only [hdigits]
      exact (List.dropWhile_suffix _).trans (List.suffix_cons _ _)
  · exact List.suffix_rfl

theorem splitSign_suffix (text : Text) : (Text.splitSign text).2 <:+ text := by
  unfold Text.splitSign
  split
  · exact List.suffix_cons _ _
  · exact List.suffix_cons _ _
  · exact List.suffix_rfl

theorem scanNumber_suffix {text rest : Text} {x : Double} (h : scanNumber text = some (x, rest)) :
    rest <:+ text := by
  simp only [scanNumber, Option.ite_none_left_eq_some, Option.some.injEq, Prod.mk.injEq] at h
  obtain ⟨-, -, rfl⟩ := h
  exact (scanFraction_suffix _).trans ((List.dropWhile_suffix _).trans (splitSign_suffix text))

/-- The parser of last resort, which the parser without a limit never comes to. -/
def outOfText {m : Type → Type} [Monad m] : Parser m Expr :=
  fun unread => pure (.failure (nestingFailure unread))

section

variable {m : Type → Type} [Monad m] [MonadAttach m] [LawfulMonad m] [LawfulMonadAttach m]
  {handMade : Bool} {nested : Parser m Expr}

theorem number_staysWithin : (number : Parser m Expr).StaysWithin handMade :=
  (StaysWithin.matching numberPattern fun _ _ _ => scanNumber_suffix).map _

theorem constant_staysWithin : (constant : Parser m Expr).StaysWithin handMade := by
  refine .oneOf fun p hp => ?_
  simp only [List.mem_cons, List.not_mem_nil, or_false] at hp
  rcases hp with rfl | rfl
  · exact ((StaysWithin.literal _).orElse (.literal _)).map _
  · exact (StaysWithin.literal _).map _

theorem binaryOperator_staysWithin :
    (binaryOperator : Parser m Operator).StaysWithin handMade := by
  refine .oneOf fun p hp => ?_
  obtain ⟨op, -, rfl⟩ := List.mem_map.mp hp
  exact (StaysWithin.literal _).map _

theorem functionName_staysWithin : (functionName : Parser m Trig).StaysWithin handMade := by
  refine .oneOf fun p hp => ?_
  obtain ⟨f, -, rfl⟩ := List.mem_map.mp hp
  exact (StaysWithin.literal _).map _

theorem betweenParens_staysWithin (h : nested.StaysWithin handMade) :
    (betweenParens nested).StaysWithin handMade :=
  (StaysWithin.literal _).andThen fun _ => h.andThen fun _ => (StaysWithin.literal _).map _

theorem singleApplication_staysWithin {operand : Parser m Expr} {allowed : Operator → Bool}
    {message : String} (h : operand.StaysWithin handMade) :
    (singleApplication operand allowed message).StaysWithin handMade :=
  h.andThen fun first =>
    (((binaryOperator_staysWithin.filter _ _).andThen fun _ => h.map _).orElse (.succeed first))

theorem call_staysWithin (h : nested.StaysWithin handMade) : (call nested).StaysWithin handMade :=
  functionName_staysWithin.andThen fun _ => (betweenParens_staysWithin h).map _

theorem factor_staysWithin (h : nested.StaysWithin handMade) :
    (factor nested).StaysWithin handMade :=
  ((number_staysWithin.orElse constant_staysWithin).orElse (betweenParens_staysWithin h)).orElse
    (call_staysWithin h)

theorem term_staysWithin (h : nested.StaysWithin handMade) : (term nested).StaysWithin handMade :=
  singleApplication_staysWithin (factor_staysWithin h)

theorem expression_staysWithin (h : nested.StaysWithin handMade) :
    (expression nested).StaysWithin handMade :=
  singleApplication_staysWithin (term_staysWithin h)

theorem expressionWithin_staysWithin {bottom : Parser m Expr} (h : bottom.StaysWithin handMade)
    (depth : Nat) : (expressionWithin bottom depth).StaysWithin handMade := by
  induction depth with
  | zero => exact h
  | succ depth ih => exact expression_staysWithin ih

theorem outOfText_staysWithin : (outOfText : Parser m Expr).StaysWithin handMade := by
  intro text outcome hgives
  rw [Parser.eq_of_gives_pure rfl hgives]
  exact .of_remaining

theorem unlimitedExpression_staysWithin :
    (unlimitedExpression : Parser m Expr).StaysWithin handMade :=
  fun text => expressionWithin_staysWithin outOfText_staysWithin _ text

theorem Rule.parser_staysWithin (rule : Rule) :
    (rule.parser : Parser m Value).StaysWithin handMade := by
  have hnested : (unlimitedExpression : Parser m Expr).StaysWithin handMade :=
    unlimitedExpression_staysWithin
  cases rule with
  | number => exact number_staysWithin.map _
  | constant => exact constant_staysWithin.map _
  | binaryOperator => exact binaryOperator_staysWithin.map _
  | functionName => exact functionName_staysWithin.map _
  | call => exact (call_staysWithin hnested).map _
  | parenthesized => exact (betweenParens_staysWithin hnested).map _
  | factor => exact (factor_staysWithin hnested).map _
  | term => exact (term_staysWithin hnested).map _
  | expression => exact (expression_staysWithin hnested).map _

end

end Reckoner.Grammar
