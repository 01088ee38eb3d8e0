import Reckoner.Expression.Basic
import Reckoner.Text.Basic
/-!
# Values of parsers

The parsers that are put together from a description share one type of values.
-/

namespace Reckoner

/-- What a described parser can return. -/
inductive Value where
  | text (text : Text)
  | integer (n : Int)
  | nothing
  | number (x : Double)
  | tree (tree : Expr)
  | list (items : List Value)

end Reckoner
