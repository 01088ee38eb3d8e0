import Reckoner.Text.Quoted
/-!
# What one parsing step gives

A step either succeeds, with a value and the part of its text it left, or fails, with a message, the
alternatives it would have taken and the text it was looking at. The shorter that text, the further
the step got.
-/

namespace Reckoner

/-- Why a step failed. `remaining` is the text it was looking at, where that is known. -/
structure Failure where
  message : String
  expected : List String := []
  remaining : Option Text := none
deriving DecidableEq

/-- What a step on some text gives. -/
inductive Outcome (α : Type) where
  | success (value : α) (rest : Text)
  | failure (failure : Failure)
deriving DecidableEq

namespace Failure

/-- How many characters of the remaining text a description shows. -/
def snippetLength : Nat := 20

/-- The start of the remaining text, quoted, with dots where it was cut. -/
def snippet (remaining : Text) : String :=
  let cut := if snippetLength < remaining.length then "...".toList else []
  Text.quoted (remaining.take snippetLength ++ cut)

/-- Where the failing step stood. -/
def position (remaining : Text) : String :=
  if remaining.isEmpty then "at end of input" else "at " ++ snippet remaining

/-- The message with the alternatives and the position, as far as they are known. -/
def describe (failure : Failure) : String :=
  let alternatives :=
    if failure.expected.isEmpty then []
    else ["expected one of: " ++ ", ".intercalate failure.expected]
  "; ".intercalate (failure.message :: alternatives ++ failure.remaining.toList.map position)

/-- The shortest of some texts, the first of equals. -/
def shortest? : List Text → Option Text
  | [] => none
  | text :: rest =>
    match shortest? rest with
    | some other => if other.length < text.length then some other else some text
    | none => some text

/-- One failure for a choice all of whose alternatives failed on `text`: everything that was
expected, once each, at the furthest point any of them reached. -/
def merge (text : Text) (failures : List Failure) : Failure where
  message := "No parser matched in oneOf."
  expected := (failures.flatMap (·.expected)).eraseDups
  remaining := (shortest? (failures.filterMap (·.remaining))).getD text

end Failure

namespace Outcome

variable {α β : Type}

def map (f : α → β) : Outcome α → Outcome β
  | success value rest => success (f value) rest
  | failure why => failure why

end Outcome

end Reckoner
