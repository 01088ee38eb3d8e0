import Reckoner.Parsing.Parser
/-!
# The same parser in another monad

A translation from one monad to another that respects sequencing can be applied to a parser as a
whole or to its operands, which comes to the same: the combinators only sequence. That is how runs
with a limit, runs that are recorded and plain runs of the same rules are compared.
-/

namespace Reckoner

/-- A translation of runs that respects sequencing. -/
structure Translation (m n : Type → Type) [Monad m] [Monad n] where
  apply : {α : Type} → m α → n α
  apply_pure : ∀ {α : Type} (a : α), apply (pure a) = pure a
  apply_bind : ∀ {α β : Type} (x : m α) (f : α → m β),
    apply (x >>= f) = apply x >>= fun a => apply (f a)

namespace Parser

variable {m n : Type → Type} [Monad m] [Monad n] {α β : Type}

/-- The parser whose runs are the translated ones. -/
def translated (t : Translation m n) (p : Parser m α) : Parser n α :=
  fun text => t.apply (p text)

variable (t : Translation m n)

@[simp] theorem translated_succeed (value : α) :
    translated t (succeed value) = succeed value := by
  funext text
  exact t.apply_pure _

@[simp] theorem translated_literal (wanted : Text) :
    translated t (literal wanted) = literal wanted := by
  funext text
  exact t.apply_pure _

@[simp] theorem translated_matching (description : String) (scan : Text → Option (α × Text)) :
    translated t (matching description scan) = matching description scan := by
  funext text
  exact t.apply_pure _

@[simp] theorem translated_andThen (p : Parser m α) (next : α → Parser m β) :
    translated t (p.andThen next) = (translated t p).andThen fun value =>
      translated t (next value) := by
  funext text
  refine (t.apply_bind _ _).trans (congrArg _ (funext fun first => ?_))
  cases first with
  | success value rest => rfl
  | failure failure => exact t.apply_pure _

@[simp] theorem translated_orElse (p q : Parser m α) :
    translated t (p.orElse q) = (translated t p).orElse (translated t q) := by
  funext text
  refine (t.apply_bind _ _).trans (congrArg _ (funext fun first => ?_))
  cases first with
  | success value rest => exact t.apply_pure _
  | failure failure => rfl

@[simp] theorem translated_map (f : α → β) (p : Parser m α) :
    translated t (p.map f) = (translated t p).map f := by
  funext text
  exact (t.apply_bind _ _).trans (congrArg _ (funext fun first => t.apply_pure _))

@[simp] theorem translated_filter (accepts : α → Bool) (message : String) (p : Parser m α) :
    translated t (p.filter accepts message) = (translated t p).filter accepts message := by
  funext text
  refine (t.apply_bind _ _).trans (congrArg _ (funext fun first => ?_))
  cases first with
  | success value rest =>
    by_cases haccepts : accepts value
    · simp only [haccepts, if_true]
      exact t.apply_pure _
    · simp only [haccepts]
      exact t.apply_pure _
  | failure failure => exact t.apply_pure _

theorem apply_attempt (text : Text) (failures : List Failure) (alternatives : List (Parser m α)) :
    t.apply (oneOf.attempt text failures alternatives) =
      oneOf.attempt text failures (alternatives.map (translated t)) := by
  induction alternatives generalizing failures with
  | nil => exact t.apply_pure _
  | cons p alternatives ih =>
    refine (t.apply_bind _ _).trans (congrArg _ (funext fun first => ?_))
    cases first with
    | success value rest => exact t.apply_pure _
    | failure failure => exact ih (failures ++ [failure])

@[simp] theorem translated_oneOf (alternatives : List (Parser m α)) :
    translated t (oneOf alternatives) = oneOf (alternatives.map (translated t)) := by
  funext text
  exact apply_attempt t text [] alternatives

end Parser

end Reckoner
