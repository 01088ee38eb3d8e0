import Reckoner.Grammar.Parse
import Reckoner.Proofs.Grammar.Recursion
import Reckoner.Proofs.Grammar.Returns
/-!
# The nesting limit

What the limit cuts off is read from a record of the parser without a limit: where it looked for
nested expressions, and what it looked for inside those. The record keeps everything that was tried,
also in alternatives that failed and were recovered from, so its height is the number of openings
that were inside one another at some moment of the run. Runs that give up at a limit are a
translation of recorded ones, to nothing if the record is too high and to the outcome otherwise, and
a translation can be moved through all the rules at once.
-/

namespace Reckoner.Grammar

open Reckoner.Parser (Gives StaysWithin translated)

/-! ### Records -/

/-- A nested expression was looked for at the front of a text, behind an opening, and in it further
ones. -/
inductive Visit where
  | visit (text : Text) (inside : List Visit)

namespace Visit

mutual

/-- How many visits are inside one another, this one included. -/
def height : Visit → Nat
  | visit _ inside => heights inside + 1

def heights : List Visit → Nat
  | [] => 0
  | v :: rest => max v.height (heights rest)

end

theorem heights_append (before after : List Visit) :
    heights (before ++ after) = max (heights before) (heights after) := by
  induction before with
  | nil => simp [heights]
  | cons v rest ih => rw [List.cons_append, heights, ih, heights, Nat.max_assoc]

end Visit

/-- A value with the visits that were made for it, in their order. -/
structure Recorded (α : Type) where
  value : α
  visits : List Visit

namespace Recorded

instance : Monad Recorded where
  pure value := ⟨value, []⟩
  bind x f := ⟨(f x.value).value, x.visits ++ (f x.value).visits⟩

instance : LawfulMonad Recorded :=
  LawfulMonad.mk' Recorded (fun x => by simp [Functor.map]) (fun _ _ => rfl)
    (fun x f g => by simp [bind])

instance : MonadAttach Recorded where
  CanReturn x value := x.value = value
  attach x := ⟨⟨x.value, rfl⟩, x.visits⟩

instance : LawfulMonadAttach Recorded where
  map_attach := by simp [Functor.map, MonadAttach.attach]
  canReturn_map_imp {_ P x a} h := by
    rw [← (h : x.value.val = a)]
    exact x.value.property

def toId : Translation Recorded Id where
  apply x := x.value
  apply_pure _ := rfl
  apply_bind _ _ := rfl

/-- The value, unless more than `limit` visits are inside one another. -/
def toOption (limit : Nat) : Translation Recorded Option where
  apply x := if Visit.heights x.visits ≤ limit then some x.value else none
  apply_pure _ := by simp [pure, Visit.heights]
  apply_bind x f := by
    have hboth : Visit.heights (x >>= f).visits ≤ limit ↔
        Visit.heights x.visits ≤ limit ∧ Visit.heights (f x.value).visits ≤ limit := by
      rw [← Nat.max_le, ← Visit.heights_append]
      rfl
    by_cases hfirst : Visit.heights x.visits ≤ limit
    · simp only [hboth, hfirst, true_and, if_true]
      rfl
    · simp only [hboth, hfirst, false_and, if_false]
      rfl

end Recorded

/-- The parser of nested expressions, with what it visits recorded inside the visit to it. -/
def visiting (nested : Parser Recorded Expr) : Parser Recorded Expr :=
  fun text => ⟨(nested text).value, [.visit text (nested text).visits]⟩

/-- The parser without a limit, recorded. -/
def recordedExpression : Parser Recorded Expr :=
  unfoldedAlong (fun nested => expression (visiting nested)) outOfText

/-- The most openings, of a parenthesis or a call, that the parser without a limit is inside of at
once while it reads the source. -/
def openAtOnce (source : Text) : Nat :=
  Visit.heights (recordedExpression source).visits

/-! ### The record is one of the parser without a limit -/

theorem visiting_staysWithin {nested : Parser Recorded Expr} {handMade : Bool}
    (h : nested.StaysWithin handMade) : (visiting nested).StaysWithin handMade :=
  h

theorem visiting_descending : Descending fun nested => expression (visiting nested) where
  staysWithin h := expression_staysWithin (visiting_staysWithin h)
  congr hstays h :=
    expression_congr (visiting_staysWithin hstays) fun inner hinner => by
      rw [visiting, visiting, h inner hinner]

theorem recordedExpression_eq :
    recordedExpression = expression (visiting recordedExpression) :=
  visiting_descending.unfoldedAlong_eq outOfText_staysWithin

theorem translated_toId_unfolded (depth : Nat) :
    translated Recorded.toId
        (unfolded (fun nested => expression (visiting nested)) outOfText depth) =
      unfolded expression outOfText depth := by
  induction depth with
  | zero => rfl
  | succ depth ih =>
    rw [unfolded, translated_expression, unfolded, ← ih]
    rfl

theorem value_recordedExpression (source : Text) :
    (recordedExpression source).value = unlimited source := by
  rw [unlimited, unlimitedExpression_eq_unfoldedAlong]
  exact congrFun (translated_toId_unfolded (source.length + 1)) source

/-! ### Giving up is a translation of the record -/

theorem translated_toOption_zero_visiting (nested : Parser Recorded Expr) :
    translated (Recorded.toOption 0) (visiting nested) = fun _ => none := by
  funext text
  simp [translated, Recorded.toOption, visiting, Visit.heights, Visit.height]

theorem translated_toOption_succ_visiting (limit : Nat) (nested : Parser Recorded Expr) :
    translated (Recorded.toOption (limit + 1)) (visiting nested) =
      translated (Recorded.toOption limit) nested := by
  funext text
  simp [translated, Recorded.toOption, visiting, Visit.heights, Visit.height]

theorem expressionWithin_none_succ (depth : Nat) :
    expressionWithin (fun _ => none) (depth + 1) =
      translated (Recorded.toOption depth) recordedExpression := by
  induction depth with
  -- Without room, giving up is what any visit is translated to.
  | zero =>
    rw [recordedExpression_eq, translated_expression, translated_toOption_zero_visiting]
    rfl
  | succ depth ih =>
    rw [recordedExpression_eq, translated_expression, translated_toOption_succ_visiting, ← ih]
    rfl

theorem expressionWithin_none_eq (limit : Nat) (source : Text) :
    expressionWithin (fun _ => none) (limit + 1) source =
      if openAtOnce source ≤ limit then some (unlimited source) else none := by
  rw [expressionWithin_none_succ, ← value_recordedExpression]
  rfl

theorem lt_openAtOnce_iff {limit : Nat} {source : Text} :
    limit < openAtOnce source ↔
      (expressionWithin (fun _ => none) (limit + 1) source).isNone = true := by
  rw [expressionWithin_none_eq]
  by_cases h : openAtOnce source ≤ limit
  · simp [h]
  · simp [h, Nat.lt_of_not_le h]

/-! ### Parsing with the limit -/

theorem parse_eq (strict : Bool) (source : Text) :
    parse strict source =
      if openAtOnce source ≤ maxNesting then
        (Reading.ofOutcome strict (unlimited source)).outcome source
      else .failure (nestingFailure source) := by
  rw [parse_eq_elim, limitedExpression, expressionWithin_none_eq]
  by_cases h : openAtOnce source ≤ maxNesting
  · rw [if_pos h, if_pos h, Option.elim_some]
  · rw [if_neg h, if_neg h, Option.elim_none]

theorem message_of_expressionWithin_none (depth : Nat) :
    ∀ text failure, (expressionWithin (fun _ => none) depth : Parser Option Expr).Gives text
      (.failure failure) → failure.message ≠ "Expression nested too deeply" := by
  induction depth with
  | zero => exact fun _ _ h => nomatch h
  | succ depth ih => exact fun _ _ h => message_of_expression ih h

/-- No other failure is mistaken for the one of nesting. -/
theorem outcome_ne_nestingFailure {strict : Bool} {source : Text}
    (h : openAtOnce source ≤ maxNesting) :
    (Reading.ofOutcome strict (unlimited source)).outcome source ≠
      .failure (nestingFailure source) := by
  intro heq
  cases hunlimited : unlimited source with
  | failure failure =>
    rw [hunlimited] at heq
    obtain rfl : failure = nestingFailure source := Outcome.failure.inj heq
    refine message_of_expressionWithin_none (maxNesting + 1) source (nestingFailure source) ?_ rfl
    exact (expressionWithin_none_eq maxNesting source).trans (by rw [if_pos h, hunlimited])
  | success tree rest =>
    rw [hunlimited] at heq
    cases strict with
    | false => cases heq
    | true =>
      cases rest with
      | nil => cases heq
      | cons c rest =>
        have hexpected : ["end of input"] = [] :=
          congrArg Failure.expected (Outcome.failure.inj heq)
        cases hexpected

/-- The nesting limit is all or nothing. The parser without a limit is the rule of expressions
around itself, and the record is one of its run. With the limit, parsing gives either exactly what
it comes to or the failure of the whole source, the latter whenever 300 openings or more were inside
one another at some moment of the run, and never when there were at most 30. -/
theorem nesting_limit_all_or_nothing :
    ((unlimitedExpression : Parser Id Expr) = expression unlimitedExpression ∧
      recordedExpression = expression (visiting recordedExpression) ∧
      ∀ text, (recordedExpression text).value = unlimited text) ∧
    ∀ (strict : Bool) (source : Text),
      (parse strict source = (Reading.ofOutcome strict (unlimited source)).outcome source ∨
        parse strict source = .failure (nestingFailure source)) ∧
      (300 ≤ openAtOnce source → parse strict source = .failure (nestingFailure source)) ∧
      (openAtOnce source ≤ 30 → parse strict source ≠ .failure (nestingFailure source)) := by
  refine ⟨⟨unlimitedExpression_eq, recordedExpression_eq, value_recordedExpression⟩, ?_⟩
  intro strict source
  rw [parse_eq]
  refine ⟨?_, fun hdeep => ?_, fun hshallow => ?_⟩
  · by_cases h : openAtOnce source ≤ maxNesting
    · exact .inl (if_pos h)
    · exact .inr (if_neg h)
  · have h : ¬ openAtOnce source ≤ maxNesting := by
      rw [maxNesting]
      omega
    exact if_neg h
  · have h : openAtOnce source ≤ maxNesting := Nat.le_trans hshallow (by decide)
    rw [if_pos h]
    exact outcome_ne_nestingFailure h

/-- Three hundred openings behind an operator, where a fallback would have left one number. -/
theorem nesting_limit_all_or_nothing_behind_operator :
    (300 ≤ openAtOnce ('e' :: '+' :: List.replicate 300 '(') ∧
      parse false ('e' :: '+' :: List.replicate 300 '(') =
        .failure (nestingFailure ('e' :: '+' :: List.replicate 300 '('))) ∧
    (openAtOnce ['(', 'e', ')', '('] ≤ 30 ∧
      parse true ['(', 'e', ')', '('] ≠ .failure (nestingFailure ['(', 'e', ')', '('])) := by
  have hdeep : 300 ≤ openAtOnce ('e' :: '+' :: List.replicate 300 '(') :=
    lt_openAtOnce_iff.mpr (by decide +kernel)
  have hshallow : openAtOnce ['(', 'e', ')', '('] ≤ 30 :=
    Nat.le_of_not_lt fun h => absurd (lt_openAtOnce_iff.mp h) (by decide +kernel)
  exact ⟨⟨hdeep, (nesting_limit_all_or_nothing.2 false _).2.1 hdeep⟩, hshallow,
    (nesting_limit_all_or_nothing.2 true _).2.2 hshallow⟩

end Reckoner.Grammar
