import Reckoner.Parsing.Outcome
/-!
# Parsers and their combinators

A parser reads a value off the front of a text. Running one may have effects, those of a monad `m`:
leaving a trace, giving up altogether, or none at all. The combinators only ever run their operands,
in the order given, and pass failures on untouched, so they obey the same laws in every monad.
-/

namespace Reckoner

/-- A parser of `α` whose runs have the effects of `m`. -/
def Parser (m : Type → Type) (α : Type) := Text → m (Outcome α)

namespace Parser

variable {m : Type → Type} [Monad m] {α β : Type}

/-- Consumes nothing. -/
def succeed (value : α) : Parser m α :=
  fun text => pure (.success value text)

/-- Fails on every text. -/
def fail (failure : Failure) : Parser m α :=
  fun _ => pure (.failure failure)

/-- Runs a parser, then on the text it left the one that its value chooses. -/
def andThen (p : Parser m α) (next : α → Parser m β) : Parser m β :=
  fun text => do
    match ← p text with
    | .success value rest => next value rest
    | .failure failure => pure (.failure failure)

/-- Runs a parser and, if it fails, another on the same text. -/
def orElse (p q : Parser m α) : Parser m α :=
  fun text => do
    match ← p text with
    | .success value rest => pure (.success value rest)
    | .failure _ => q text

/-- Changes the value of a success. -/
def map (f : α → β) (p : Parser m α) : Parser m β :=
  fun text => do return (← p text).map f

/-- Turns down a success with an unwanted value. The failure points at the text as it was before,
since nothing of it counts as read. -/
def filter (accepts : α → Bool) (message : String) (p : Parser m α) : Parser m α :=
  fun text => do
    match ← p text with
    | .success value rest =>
      if accepts value then pure (.success value rest)
      else pure (.failure ⟨message, [], some text⟩)
    | .failure failure => pure (.failure failure)

/-- The first success among the alternatives; the later ones are not run. -/
def oneOf (alternatives : List (Parser m α)) : Parser m α :=
  fun text => attempt text [] alternatives
where
  /-- The alternatives left to try, after the given failures. -/
  attempt (text : Text) (failures : List Failure) : List (Parser m α) → m (Outcome α)
    | [] => pure (.failure (Failure.merge text failures))
    | p :: rest => do
      match ← p text with
      | .success value left => pure (.success value left)
      | .failure failure => attempt text (failures ++ [failure]) rest

/-- Matches exactly the given text. -/
def literal (wanted : Text) : Parser m Text :=
  fun text =>
    pure <| match stripped? wanted text with
      | some rest => .success wanted rest
      | none =>
        .failure ⟨"Expected literal: " ++ String.ofList wanted, [Text.quoted wanted], some text⟩
where
  /-- What follows the first text at the front of the second. -/
  stripped? : Text → Text → Option Text
    | [], text => some text
    | _ :: _, [] => none
    | c :: wanted, d :: text => if c = d then stripped? wanted text else none

/-- Matches what a scanner finds at the front of the text; `description` names it in failures. -/
def matching (description : String) (scan : Text → Option (α × Text)) : Parser m α :=
  fun text =>
    pure <| match scan text with
      | some (value, rest) => .success value rest
      | none =>
        .failure ⟨"No match for regex: " ++ description, ["/" ++ description ++ "/"], some text⟩

end Parser

end Reckoner
