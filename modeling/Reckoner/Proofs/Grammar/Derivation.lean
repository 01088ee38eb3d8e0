import Reckoner.Grammar.Basic
/-!
# The grammar as a relation

`Derives` is the grammar itself: which words each nonterminal has, and what tree a word stands for.
It says nothing about how a word is found at the front of a text, in which order alternatives are
tried or what is given up for what. A text starts with a word of a nonterminal and goes on with a
rest when `Starts` holds, and the lemmas here read that relation off the productions one character
at a time, the way a parser meets it.
-/

namespace Reckoner.Grammar

inductive Nonterminal where
  | expression | term | factor | call | number | constant
deriving DecidableEq

/-- What may stand in front of a number, and whether it makes it negative. -/
inductive Sign : Text → Bool → Prop where
  | none : Sign [] false
  | plus : Sign ['+'] false
  | minus : Sign ['-'] true

/-- One digit or more, of any script. -/
def IsDigits (w : Text) : Prop := w ≠ [] ∧ ∀ c ∈ w, Text.isDigit c = true

/-- What may follow the whole part of a number, and the digits of the fraction in it. -/
inductive Fraction : Text → Text → Prop where
  | none : Fraction [] []
  | point {digits : Text} (hdigits : IsDigits digits) : Fraction ('.' :: digits) digits

/-- The words of the nonterminals with their trees. -/
inductive Derives : Nonterminal → Text → Expr → Prop where
  | term {w : Text} {tree : Expr} (h : Derives .term w tree) : Derives .expression w tree
  | additive {op : Operator} {v w : Text} {left right : Expr} (hop : op = .add ∨ op = .sub)
      (hleft : Derives .term v left) (hright : Derives .term w right) :
      Derives .expression (v ++ op.symbol.toList ++ w) (.apply op.symbol [left, right])
  | factor {w : Text} {tree : Expr} (h : Derives .factor w tree) : Derives .term w tree
  | multiplicative {op : Operator} {v w : Text} {left right : Expr}
      (hop : op = .mul ∨ op = .div ∨ op = .mod)
      (hleft : Derives .factor v left) (hright : Derives .factor w right) :
      Derives .term (v ++ op.symbol.toList ++ w) (.apply op.symbol [left, right])
  | number {w : Text} {tree : Expr} (h : Derives .number w tree) : Derives .factor w tree
  | constant {w : Text} {tree : Expr} (h : Derives .constant w tree) : Derives .factor w tree
  | parens {w : Text} {tree : Expr} (h : Derives .expression w tree) :
      Derives .factor (['('] ++ w ++ [')']) tree
  | call {w : Text} {tree : Expr} (h : Derives .call w tree) : Derives .factor w tree
  | application {f : Trig} {w : Text} {arg : Expr} (h : Derives .expression w arg) :
      Derives .call (f.name.toList ++ ['('] ++ w ++ [')']) (.apply f.name [arg])
  | numeral {sign whole point fraction : Text} {negative : Bool} (hsign : Sign sign negative)
      (hwhole : IsDigits whole) (hpoint : Fraction point fraction) :
      Derives .number (sign ++ whole ++ point)
        (.literal (.ofDecimal negative (Text.digitsValue (whole ++ fraction)) (-fraction.length)))
  | smallPi : Derives .constant "pi".toList (.literal .pi)
  | bigPi : Derives .constant "PI".toList (.literal .pi)
  | e : Derives .constant "e".toList (.literal .e)

/-- The text starts with a word of the nonterminal for the tree, and goes on with the rest. -/
def Starts (n : Nonterminal) (text : Text) (tree : Expr) (rest : Text) : Prop :=
  ∃ w, text = w ++ rest ∧ Derives n w tree

/-- The text starts with a word for the tree and goes on with the rest, and it starts with no longer
word of the nonterminal. -/
def StartsAtLongest (n : Nonterminal) (text : Text) (tree : Expr) (rest : Text) : Prop :=
  ∃ w, text = w ++ rest ∧ Derives n w tree ∧
    ∀ w' rest', text = w' ++ rest' → w.length < w'.length → ∀ tree', ¬ Derives n w' tree'

/-! ### Productions at the front of a text -/

/-- At the front of a text: an operand, or two with an allowed operator between them. -/
def Applied (Operand : Text → Expr → Text → Prop) (allowed : Operator → Bool) (text : Text)
    (tree : Expr) (rest : Text) : Prop :=
  Operand text tree rest ∨ ∃ op left right later, allowed op = true ∧
    Operand text left (op.symbol.toList ++ later) ∧ Operand later right rest ∧
      tree = .binary op left right

theorem starts_expression_iff {text : Text} {tree : Expr} {rest : Text} :
    Starts .expression text tree rest ↔ Applied (Starts .term) isAdditive text tree rest := by
  constructor
  · rintro ⟨w, rfl, h⟩
    cases h with
    | term h => exact .inl ⟨w, rfl, h⟩
    | @additive op v w left right hop hleft hright =>
      refine .inr ⟨op, left, right, w ++ rest, ?_, ⟨v, by simp, hleft⟩, ⟨w, rfl, hright⟩, rfl⟩
      rcases hop with rfl | rfl <;> rfl
  · rintro (⟨w, rfl, h⟩ | ⟨op, left, right, later, hop, ⟨v, rfl, hleft⟩, ⟨w, rfl, hright⟩, rfl⟩)
    · exact ⟨w, rfl, .term h⟩
    · refine ⟨v ++ op.symbol.toList ++ w, by simp, .additive ?_ hleft hright⟩
      cases op <;> simp_all [isAdditive]

theorem starts_term_iff {text : Text} {tree : Expr} {rest : Text} :
    Starts .term text tree rest ↔ Applied (Starts .factor) isMultiplicative text tree rest := by
  constructor
  · rintro ⟨w, rfl, h⟩
    cases h with
    | factor h => exact .inl ⟨w, rfl, h⟩
    | @multiplicative op v w left right hop hleft hright =>
      refine .inr ⟨op, left, right, w ++ rest, ?_, ⟨v, by simp, hleft⟩, ⟨w, rfl, hright⟩, rfl⟩
      rcases hop with rfl | rfl | rfl <;> rfl
  · rintro (⟨w, rfl, h⟩ | ⟨op, left, right, later, hop, ⟨v, rfl, hleft⟩, ⟨w, rfl, hright⟩, rfl⟩)
    · exact ⟨w, rfl, .factor h⟩
    · refine ⟨v ++ op.symbol.toList ++ w, by simp, .multiplicative ?_ hleft hright⟩
      cases op <;> simp_all [isMultiplicative]

/-- At the front of a text: an expression between parentheses. -/
def Enclosed (text : Text) (tree : Expr) (rest : Text) : Prop :=
  ∃ inner, text = '(' :: inner ∧ Starts .expression inner tree (')' :: rest)

theorem starts_call_iff {text : Text} {tree : Expr} {rest : Text} :
    Starts .call text tree rest ↔ ∃ f later arg, text = f.name.toList ++ later ∧
      Enclosed later arg rest ∧ tree = .call f arg := by
  constructor
  · rintro ⟨w, rfl, h⟩
    cases h with
    | @application f w arg h =>
      exact ⟨f, '(' :: (w ++ ')' :: rest), arg, by simp, ⟨_, rfl, w, rfl, h⟩, rfl⟩
  · rintro ⟨f, later, arg, rfl, ⟨inner, rfl, w, rfl, h⟩, rfl⟩
    exact ⟨f.name.toList ++ ['('] ++ w ++ [')'], by simp, .application h⟩

theorem starts_constant_iff {text : Text} {tree : Expr} {rest : Text} :
    Starts .constant text tree rest ↔ (text = "pi".toList ++ rest ∧ tree = .literal .pi) ∨
      (text = "PI".toList ++ rest ∧ tree = .literal .pi) ∨
      text = "e".toList ++ rest ∧ tree = .literal .e := by
  constructor
  · rintro ⟨w, rfl, h⟩
    cases h with
    | smallPi => exact .inl ⟨rfl, rfl⟩
    | bigPi => exact .inr (.inl ⟨rfl, rfl⟩)
    | e => exact .inr (.inr ⟨rfl, rfl⟩)
  · rintro (⟨rfl, rfl⟩ | ⟨rfl, rfl⟩ | ⟨rfl, rfl⟩)
    · exact ⟨_, rfl, .smallPi⟩
    · exact ⟨_, rfl, .bigPi⟩
    · exact ⟨_, rfl, .e⟩

theorem starts_factor_iff {text : Text} {tree : Expr} {rest : Text} :
    Starts .factor text tree rest ↔
      ((Starts .number text tree rest ∨ Starts .constant text tree rest) ∨
        Enclosed text tree rest) ∨ Starts .call text tree rest := by
  constructor
  · rintro ⟨w, rfl, h⟩
    cases h with
    | number h => exact .inl (.inl (.inl ⟨w, rfl, h⟩))
    | constant h => exact .inl (.inl (.inr ⟨w, rfl, h⟩))
    | @parens w _ h => exact .inl (.inr ⟨w ++ ')' :: rest, by simp, w, rfl, h⟩)
    | call h => exact .inr ⟨w, rfl, h⟩
  · rintro (((⟨w, rfl, h⟩ | ⟨w, rfl, h⟩) | ⟨inner, rfl, w, rfl, h⟩) | ⟨w, rfl, h⟩)
    · exact ⟨w, rfl, .number h⟩
    · exact ⟨w, rfl, .constant h⟩
    · exact ⟨['('] ++ w ++ [')'], by simp, .parens h⟩
    · exact ⟨w, rfl, .call h⟩

end Reckoner.Grammar
