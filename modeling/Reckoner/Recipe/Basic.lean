import Reckoner.Grammar.Rule
import Reckoner.Parsing.Pattern
/-!
# Recipes

A recipe describes a parser put together from the combinators. Recipes may refer to each other by
name, also in circles, which is how recursive grammars are written.
-/

namespace Reckoner

/-- The functions that a recipe can apply to a value. -/
inductive Transform where
  | length | toInteger | toNumber | upper | twice | evaluate | box | const | negate
deriving DecidableEq

/-- The tests that a recipe can put to a value. -/
inductive Test where
  | always | never | isEmpty | isShort | isPlus | hasEvenLength | isLiteral
deriving DecidableEq

inductive Recipe where
  | literal (wanted : Text)
  | pattern (source : String) (pattern : Pattern)
  | succeed (value : Value)
  | oneOf (alternatives : List Recipe)
  | orElse (first second : Recipe)
  /-- Both in turn, for the value of the second. -/
  | next (first second : Recipe)
  /-- Both in turn, for both values. -/
  | pair (first second : Recipe)
  /-- The text that the first gave, once more. -/
  | same (first : Recipe)
  /-- The branch whose key the first gave, or the last one. -/
  | switch (first : Recipe) (keys : List Text) (branches : List Recipe) (otherwise : Recipe)
  | map (first : Recipe) (f : Transform)
  | filter (first : Recipe) (test : Test) (message : String)
  | fail (failure : Failure)
  | rule (rule : Grammar.Rule)
  | ref (name : String)
  /-- Leaves a mark in the trace whenever it is run. -/
  | spy (id : String) (first : Recipe)

/-- The recipes that can be referred to. -/
abbrev Recipes := List (String × Recipe)

end Reckoner
