import Reckoner.Double.Printer
import Reckoner.Expression.Basic
/-!
# Printing expressions

An operator with its two arguments is written between them, in parentheses; every other application
is the name followed by its arguments. A number without a fraction is written without a point.
-/

namespace Reckoner

def Double.literalText (x : Double) : Text :=
  if x.isIntegral then x.wholeText else x.fullText

namespace Expr

/-- An application whose arguments are written out already. -/
def applicationText (name : String) (args : List Text) : Text :=
  match Operator.ofSymbol? name, args with
  | some _, [left, right] =>
    '(' :: left ++ ' ' :: name.toList ++ ' ' :: right ++ [')']
  | _, args => name.toList ++ '(' :: List.intercalate ", ".toList args ++ [')']

mutual

def text : Expr → Text
  | literal x => x.literalText
  | apply name args => applicationText name (argTexts args)

def argTexts : List Expr → List Text
  | [] => []
  | arg :: rest => arg.text :: argTexts rest

end

/-- The expression as a line of output shows it. -/
def render (tree : Expr) : String := String.ofList tree.text

/-- The line of output, for a tree that is not too deep to be shown. -/
def render? (tree : Expr) : Option String :=
  if tree.depth ≤ maxDepth then some tree.render else none

end Expr

end Reckoner
