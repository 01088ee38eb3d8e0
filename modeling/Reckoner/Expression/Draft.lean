import Reckoner.Expression.Foreign
import Reckoner.Expression.Printer
/-!
# Drafts of expressions

What a caller hands over as an expression need not be one: a value of another kind may stand where
an expression should. Inside an expression that is refused when it is built; a draft that is itself
such a value is only found out when it is used.
-/

namespace Reckoner

/-- What a draft comes to. -/
inductive Subject where
  | expression (tree : Expr)
  | foreign (value : Foreign)

namespace Subject

def expression? : Subject → Option Expr
  | expression tree => some tree
  | foreign _ => none

/-- The text of what a draft came to; `none` if there is too much of it. -/
def render? : Subject → Option String
  | expression tree => tree.render?
  | foreign value => some value.render

/-- Equality; `none` if the comparison goes too deep. An expression is never equal to anything
else. -/
def equals? : Subject → Subject → Option Bool
  | expression a, expression b => a.equals? b
  | foreign a, foreign b => some (a.equals b)
  | _, _ => some false

end Subject

/-- An expression as described by a caller. `wrap name n inner extra` applies `name` to `inner` and
the extra arguments, then again to the result, `n` times in all. -/
inductive Draft where
  | literal (value : Double)
  | apply (name : String) (args : List Draft)
  | wrap (name : String) (count : Nat) (inner : Draft) (extra : List Draft)
  | foreign (value : Foreign)

namespace Draft

/-- A name applied `count` times around an expression. -/
def wrapped (name : String) (extra : List Expr) : (count : Nat) → Expr → Expr
  | 0, inner => inner
  | count + 1, inner => wrapped name extra count (.apply name (inner :: extra))

mutual

/-- What the draft comes to; `none` if an argument in it is not an expression. -/
def build? : Draft → Option Subject
  | literal value => some (.expression (.literal value))
  | apply name args => do return .expression (.apply name (← buildArgs? args))
  | wrap _ 0 inner _ => inner.build?
  | wrap name count inner extra => do
    let tree ← (← inner.build?).expression?
    return .expression (wrapped name (← buildArgs? extra) count tree)
  | foreign value => some (.foreign value)

def buildArgs? : List Draft → Option (List Expr)
  | [] => some []
  | draft :: rest => do
    let tree ← (← draft.build?).expression?
    return tree :: (← buildArgs? rest)

end

end Draft

end Reckoner
