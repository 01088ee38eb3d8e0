import Reckoner.Double.Basic
/-!
# Expressions

An expression is a number or a name applied to expressions. The operators are names as well, their
symbols. A tree may hold any names with any number of arguments; the grammar only builds those with
the arity the name has, and only evaluation tells the others apart.
-/

namespace Reckoner

/-- The binary operators. -/
inductive Operator where
  | add | sub | mul | div | mod
deriving DecidableEq

namespace Operator

def all : List Operator := [add, sub, mul, div, mod]

def symbol : Operator → String
  | add => "+"
  | sub => "-"
  | mul => "*"
  | div => "/"
  | mod => "%"

def ofSymbol? (name : String) : Option Operator :=
  all.find? (·.symbol == name)

end Operator

/-- The functions of one argument; angles are in degrees. -/
inductive Trig where
  | sine | cosine | tangent | arcsine | arccosine | arctangent
deriving DecidableEq

namespace Trig

def all : List Trig := [sine, cosine, tangent, arcsine, arccosine, arctangent]

def name : Trig → String
  | sine => "sen"
  | cosine => "cos"
  | tangent => "tang"
  | arcsine => "arcsen"
  | arccosine => "arccos"
  | arctangent => "arctang"

def ofName? (name : String) : Option Trig :=
  all.find? (·.name == name)

end Trig

/-- How many arguments a name takes, if the language has it. -/
def arity? (name : String) : Option Nat :=
  if (Operator.ofSymbol? name).isSome then some 2
  else if (Trig.ofName? name).isSome then some 1
  else none

/-- Names in the order of their code points. -/
def sortedNames (names : List String) : List String :=
  names.mergeSort (fun a b => decide (a ≤ b))

inductive Expr where
  | literal (value : Double)
  | apply (name : String) (args : List Expr)

namespace Expr

def binary (op : Operator) (left right : Expr) : Expr := apply op.symbol [left, right]

def call (f : Trig) (arg : Expr) : Expr := apply f.name [arg]

/-! ### Equality

Trees are equal when names and arguments are, numbers being compared as numbers. -/

mutual

def equals : Expr → Expr → Bool
  | literal x, literal y => x.equals y
  | apply f xs, apply g ys => f == g && equalArgs xs ys
  | _, _ => false

def equalArgs : List Expr → List Expr → Bool
  | [], [] => true
  | x :: xs, y :: ys => x.equals y && equalArgs xs ys
  | _, _ => false

end

mutual

/-- Equality with room for `depth` levels, decided at the first difference; `none` if the comparison
has to go deeper. -/
def equalsWithin? : (depth : Nat) → Expr → Expr → Option Bool
  | 0, _, _ => none
  | _ + 1, literal x, literal y => some (x.equals y)
  | depth + 1, apply f xs, apply g ys =>
    if f == g && xs.length == ys.length then equalArgsWithin? depth xs ys else some false
  | _ + 1, _, _ => some false

def equalArgsWithin? : (depth : Nat) → List Expr → List Expr → Option Bool
  | depth, x :: xs, y :: ys => do
    if ← x.equalsWithin? depth y then equalArgsWithin? depth xs ys else some false
  | _, _, _ => some true

end

/-! ### Depth -/

mutual

/-- How many levels a tree has. -/
def depth : Expr → Nat
  | literal _ => 1
  | apply _ args => argsDepth args + 1

def argsDepth : List Expr → Nat
  | [] => 0
  | arg :: rest => max arg.depth (argsDepth rest)

end

/-- How many levels a tree may have for what goes through it level by level. -/
def maxDepth : Nat := 500

/-- Equality of trees; `none` if the comparison goes too deep. -/
def equals? (a b : Expr) : Option Bool := equalsWithin? maxDepth a b

/-! ### Room for every level is enough -/

theorem length_eq_of_equalArgs :
    ∀ {xs ys : List Expr}, equalArgs xs ys = true → xs.length = ys.length
  | [], [], _ => rfl
  | x :: xs, y :: ys, h => by
    rw [equalArgs, Bool.and_eq_true] at h
    rw [List.length_cons, List.length_cons, length_eq_of_equalArgs h.2]
  | [], _ :: _, h => by simp [equalArgs] at h
  | _ :: _, [], h => by simp [equalArgs] at h

mutual

theorem equalsWithin?_eq_some : ∀ {depth : Nat} {a b : Expr}, a.depth ≤ depth →
    equalsWithin? depth a b = some (a.equals b)
  | 0, literal _, _, h | 0, apply _ _, _, h => by simp [Expr.depth] at h
  | _ + 1, literal _, literal _, _ => by rw [equalsWithin?, equals]
  | depth + 1, apply f xs, apply g ys, h => by
    have hargs : argsDepth xs ≤ depth := by
      rw [Expr.depth] at h
      exact Nat.le_of_succ_le_succ h
    rw [equalsWithin?, equals]
    split
    · next hboth =>
      rw [Bool.and_eq_true, beq_iff_eq, beq_iff_eq] at hboth
      rw [equalArgsWithin?_eq_some hargs hboth.2, hboth.1, beq_self_eq_true, Bool.true_and]
    · next hnot =>
      refine congrArg some (Bool.eq_false_iff.mpr fun hequal => hnot ?_).symm
      rw [Bool.and_eq_true] at hequal ⊢
      exact ⟨hequal.1, beq_iff_eq.mpr (length_eq_of_equalArgs hequal.2)⟩
  | _ + 1, literal _, apply _ _, _ => by simp [equalsWithin?, equals]
  | _ + 1, apply _ _, literal _, _ => by simp [equalsWithin?, equals]

theorem equalArgsWithin?_eq_some : ∀ {depth : Nat} {xs ys : List Expr}, argsDepth xs ≤ depth →
    xs.length = ys.length → equalArgsWithin? depth xs ys = some (equalArgs xs ys)
  | _, [], [], _, _ => by simp [equalArgsWithin?, equalArgs]
  | depth, x :: xs, y :: ys, h, hlength => by
    rw [argsDepth, Nat.max_le] at h
    rw [equalArgsWithin?, equalArgs, equalsWithin?_eq_some h.1]
    cases x.equals y with
    | true => exact equalArgsWithin?_eq_some h.2 (Nat.succ.inj hlength)
    | false => rfl

end

theorem equals?_eq_some {a b : Expr} (h : a.depth ≤ maxDepth) :
    a.equals? b = some (a.equals b) :=
  equalsWithin?_eq_some h

end Expr

end Reckoner
