import Reckoner.Evaluation
import Reckoner.Proofs.Double.Range
import Reckoner.Proofs.Grammar.Returns
/-!
# Parsed expressions have a value

Evaluation checks neither names nor numbers of arguments, and it has a depth limit of its own. That
none of its errors comes from a parsed source is an invariant of the trees the rules build: every
application has the arguments its name takes, and a tree is at most three levels higher than those
behind its openings, a call, a product and a sum.
-/

namespace Reckoner

open Reckoner.Parser (Gives)

/-! ### The operations -/

theorem Double.div?_eq_some {x y : Double} (h : y.isZero = false) :
    ∃ value, x.div? y = some value := by
  have hne : ¬ y.isZero = true := by simp [h]
  exact ⟨_, if_neg hne⟩

theorem Double.rem?_eq_some {x y : Double} (hdividend : x.isInfinite = false)
    (hdivisor : y.isZero = false) : ∃ value, x.rem? y = some value := by
  have hne : ¬ y.isZero = true := by simp [hdivisor]
  cases x with
  | nan => exact ⟨_, rfl⟩
  | infinity s => cases hdividend
  | finite s m e h =>
    cases y with
    | nan => exact ⟨_, rfl⟩
    | infinity t => exact ⟨_, rfl⟩
    | finite t m' e' h' => exact ⟨_, if_neg hne⟩

/-- The guards of the operators leave no operands without an answer. -/
theorem Operator.value?_eq_some (op : Operator) (x y : Double) :
    ∃ value, op.value? x y = some value := by
  cases op with
  | add => exact ⟨_, rfl⟩
  | sub => exact ⟨_, rfl⟩
  | mul => exact ⟨_, rfl⟩
  | div =>
    rw [value?]
    cases hzero : y.isZero with
    | true => exact ⟨_, rfl⟩
    | false => exact Double.div?_eq_some hzero
  | mod =>
    rw [value?]
    cases hguard : y.isZero || x.isInfinite || x.isNaN || y.isNaN with
    | true => exact ⟨_, rfl⟩
    | false =>
      simp only [Bool.or_eq_false_iff] at hguard
      obtain ⟨⟨⟨hzero, hinfinite⟩, -⟩, -⟩ := hguard
      exact Double.rem?_eq_some hinfinite hzero

theorem Trig.value?_eq_some (f : Trig) (x : Double) : ∃ value, f.value? x = some value := by
  cases f with
  | sine | cosine | tangent =>
    rw [value?]
    cases hinfinite : x.isInfinite with
    | true => exact ⟨_, rfl⟩
    | false =>
      simp [Double.sin?, Double.cos?, Double.tan?, Double.isInfinite_toRadians hinfinite]
  | arcsine | arccosine =>
    rw [value?]
    cases hunit : x.inUnitInterval with
    | false => exact ⟨_, rfl⟩
    | true =>
      cases hnan : x.isNaN with
      | true => simp [Double.asin?, Double.acos?, hnan]
      | false => simp [Double.asin?, Double.acos?, hnan, hunit]
  | arctangent => exact ⟨_, rfl⟩

theorem arity?_symbol (op : Operator) : arity? op.symbol = some 2 := by
  cases op <;> rfl

theorem arity?_name (f : Trig) : arity? f.name = some 1 := by
  cases f <;> rfl

theorem Operator.symbol_of_ofSymbol? {name : String} {op : Operator}
    (h : ofSymbol? name = some op) : op.symbol = name := by
  simpa using List.find?_some h

theorem Trig.name_of_ofName? {name : String} {f : Trig} (h : ofName? name = some f) :
    f.name = name := by
  simpa using List.find?_some h

/-- A name with an arity is one of the operators or one of the functions. -/
theorem symbol_or_name_of_arity? {name : String} {n : Nat} (h : arity? name = some n) :
    (∃ op : Operator, op.symbol = name ∧ n = 2) ∨ ∃ f : Trig, f.name = name ∧ n = 1 := by
  rw [arity?] at h
  cases hop : Operator.ofSymbol? name with
  | some op =>
    rw [hop, Option.isSome_some, if_pos rfl, Option.some.injEq] at h
    exact .inl ⟨op, Operator.symbol_of_ofSymbol? hop, h.symm⟩
  | none =>
    cases hf : Trig.ofName? name with
    | some f =>
      rw [hop, hf, Option.isSome_none, if_neg (by decide), Option.isSome_some, if_pos rfl,
        Option.some.injEq] at h
      exact .inr ⟨f, Trig.name_of_ofName? hf, h.symm⟩
    | none => simp [hop, hf] at h

/-! ### Trees that can be evaluated -/

/-- Every application in the tree has as many arguments as its name takes. -/
inductive Expr.WellFormed : Expr → Prop where
  | literal (x : Double) : WellFormed (.literal x)
  | apply {name : String} {args : List Expr} (harity : arity? name = some args.length)
      (hargs : ∀ arg ∈ args, WellFormed arg) : WellFormed (.apply name args)

/-- A well-formed tree with at most so many levels. -/
structure Expr.Fits (levels : Nat) (tree : Expr) : Prop where
  wellFormed : tree.WellFormed
  depth_le : tree.depth ≤ levels

namespace Expr.Fits

variable {levels more : Nat} {tree left right arg : Expr}

theorem mono (h : tree.Fits levels) (hmore : levels ≤ more) : tree.Fits more :=
  ⟨h.wellFormed, Nat.le_trans h.depth_le hmore⟩

theorem literal (x : Double) : (Expr.literal x).Fits (levels + 1) :=
  ⟨.literal x, by simp [Expr.depth]⟩

theorem binary {op : Operator} (hleft : left.Fits levels) (hright : right.Fits levels) :
    (Expr.binary op left right).Fits (levels + 1) := by
  constructor
  · refine .apply (arity?_symbol op) fun arg harg => ?_
    rcases List.mem_pair.mp harg with rfl | rfl
    · exact hleft.wellFormed
    · exact hright.wellFormed
  · have hleftDepth := hleft.depth_le
    have hrightDepth := hright.depth_le
    simp only [Expr.binary, Expr.depth, Expr.argsDepth]
    omega

theorem call {f : Trig} (harg : arg.Fits levels) : (Expr.call f arg).Fits (levels + 1) := by
  constructor
  · refine .apply (arity?_name f) fun other hother => ?_
    obtain rfl := List.mem_singleton.mp hother
    exact harg.wellFormed
  · have hdepth := harg.depth_le
    simp only [Expr.call, Expr.depth, Expr.argsDepth]
    omega

end Expr.Fits

/-! ### The trees that the rules build -/

namespace Grammar

/-- The trees a parser returns are well-formed and have at most so many levels. -/
def Builds {m : Type → Type} [MonadAttach m] (levels : Nat) (p : Parser m Expr) : Prop :=
  ∀ text tree rest, p.Gives text (.success tree rest) → tree.Fits levels

section

variable {m : Type → Type} [Monad m] [LawfulMonad m] [MonadAttach m] [LawfulMonadAttach m]
  {levels : Nat} {nested operand : Parser m Expr}

theorem Builds.singleApplication {allowed : Operator → Bool} {message : String}
    (h : Builds levels operand) :
    Builds (levels + 1) (singleApplication operand allowed message) := by
  intro text tree rest hgives
  rcases gives_singleApplication hgives with ⟨_, _, heq⟩ | ⟨first, later, hfirst, hthen⟩
  · cases heq
  · have hleft := h text first later hfirst
    rcases hthen with ⟨op, after, second, left, _, _, hsecond, heq⟩ | ⟨_, heq⟩
    · obtain ⟨rfl, rfl⟩ := Outcome.success.inj heq
      exact hleft.binary (h after second rest hsecond)
    · obtain ⟨rfl, rfl⟩ := Outcome.success.inj heq
      exact hleft.mono (Nat.le_succ _)

theorem Builds.betweenParens (h : Builds levels nested) : Builds levels (betweenParens nested) := by
  intro text tree rest hgives
  obtain ⟨inner, -, hinside⟩ := success_of_betweenParens hgives
  exact h inner tree _ hinside

theorem Builds.factor (h : Builds levels nested) : Builds (levels + 1) (factor nested) := by
  intro text tree rest hgives
  rcases success_of_factor hgives with ⟨x, rfl⟩ | hparens | hcall
  · exact .literal x
  · exact (h.betweenParens text tree rest hparens).mono (Nat.le_succ _)
  · obtain ⟨f, later, arg, -, hparens, rfl⟩ := success_of_call hcall
    exact (h.betweenParens later arg rest hparens).call

/-- An expression is at most a sum of products of calls around nested ones. -/
theorem Builds.expression (h : Builds levels nested) : Builds (levels + 3) (expression nested) :=
  h.factor.singleApplication.singleApplication

end

theorem builds_expressionWithin (depth : Nat) :
    Builds (3 * depth) (expressionWithin (fun _ => none) depth : Parser Option Expr) := by
  induction depth with
  -- Below the last level nothing is returned at all.
  | zero => exact fun _ _ _ h => nomatch h
  | succ depth ih => exact ih.expression

theorem limitedExpression_of_parse {strict : Bool} {source : Text} {tree : Expr} {rest : Text}
    (h : parse strict source = .success tree rest) :
    limitedExpression source = some (.success tree rest) := by
  rw [parse_eq_elim] at h
  cases hlimited : limitedExpression source with
  | none =>
    rw [hlimited] at h
    cases h
  | some outcome =>
    rw [hlimited] at h
    rw [(Reading.outcome_ofOutcome_eq_success_iff.mp h).1]

/-- The nesting that parsing allows leaves trees that evaluation has room for. -/
theorem fits_of_parse {strict : Bool} {source : Text} {tree : Expr} {rest : Text}
    (h : parse strict source = .success tree rest) : tree.Fits Expr.maxDepth := by
  have hfits : tree.Fits (3 * (maxNesting + 1)) :=
    builds_expressionWithin (maxNesting + 1) source tree rest (limitedExpression_of_parse h)
  exact hfits.mono (by decide)

end Grammar

/-! ### Evaluation -/

namespace Evaluation

/-- A name has a value on as many numbers as it takes. -/
theorem applyName_ok {name : String} {args : List Double}
    (h : arity? name = some args.length) : ∃ value, applyName name args = .ok value := by
  rw [applyName]
  rw [arity?] at h
  cases hop : Operator.ofSymbol? name with
  | some op =>
    rw [hop, Option.isSome_some, if_pos rfl, Option.some.injEq] at h
    obtain ⟨x, y, rfl⟩ := List.length_eq_two.mp h.symm
    obtain ⟨value, hvalue⟩ := op.value?_eq_some x y
    exact ⟨value, by simp only [hvalue]; rfl⟩
  | none =>
    cases hf : Trig.ofName? name with
    | some f =>
      rw [hop, hf, Option.isSome_none, if_neg (by decide), Option.isSome_some, if_pos rfl,
        Option.some.injEq] at h
      obtain ⟨x, rfl⟩ := List.length_eq_one_iff.mp h.symm
      obtain ⟨value, hvalue⟩ := f.value?_eq_some x
      exact ⟨value, by simp only [hvalue]; rfl⟩
    | none => simp [hop, hf] at h

theorem valuesWithin_ok {depth : Nat} {args : List Expr}
    (h : ∀ arg ∈ args, arg.depth ≤ depth → ∃ value, valueWithin depth arg = .ok value)
    (hdepth : Expr.argsDepth args ≤ depth) :
    ∃ values, valuesWithin depth args = .ok values ∧ values.length = args.length := by
  induction args with
  | nil => exact ⟨[], rfl, rfl⟩
  | cons arg rest ih =>
    rw [Expr.argsDepth, Nat.max_le] at hdepth
    obtain ⟨value, hvalue⟩ := h arg List.mem_cons_self hdepth.1
    obtain ⟨values, hvalues, hlength⟩ :=
      ih (fun other hother => h other (List.mem_cons_of_mem _ hother)) hdepth.2
    refine ⟨value :: values, ?_, by rw [List.length_cons, List.length_cons, hlength]⟩
    rw [valuesWithin, hvalue, hvalues]
    rfl

/-- A well-formed tree has a value wherever there is room for its levels. -/
theorem valueWithin_ok {depth : Nat} {tree : Expr} (h : tree.WellFormed)
    (hdepth : tree.depth ≤ depth) : ∃ value, valueWithin depth tree = .ok value := by
  -- The induction is on the room, of which each level of the tree takes one.
  induction depth generalizing tree with
  | zero => cases h <;> simp [Expr.depth] at hdepth
  | succ depth ih =>
    cases h with
    | literal x => exact ⟨x, rfl⟩
    | @apply name args harity hargs =>
      rw [Expr.depth] at hdepth
      obtain ⟨values, hvalues, hlength⟩ :=
        valuesWithin_ok (fun arg harg => ih (hargs arg harg)) (Nat.le_of_succ_le_succ hdepth)
      rw [valueWithin, hvalues]
      exact applyName_ok (hlength ▸ harity)

theorem evaluate_ok {tree : Expr} (h : tree.Fits Expr.maxDepth) :
    ∃ value, evaluate tree = .ok value :=
  valueWithin_ok h.wellFormed h.depth_le

/-- A calculation gives a number, or it gives exactly the failure that parsing gave and no other
error, since every tree that parsing returns has the arguments its names take and no more levels
than evaluation has room for. -/
theorem calculate_ok_or_unreadable (strict : Bool) (source : Text) :
    ((∃ value, calculate strict source = .ok value) ∨
      ∃ failure, Grammar.parse strict source = .failure failure ∧
        calculate strict source = .error (.unreadable failure)) ∧
    (∀ error, calculate strict source ≠ .error (.senseless error)) ∧
    ∀ tree rest, Grammar.parse strict source = .success tree rest →
      tree.WellFormed ∧ tree.depth ≤ Expr.maxDepth ∧ ∃ value, evaluate tree = .ok value := by
  cases hparse : Grammar.parse strict source with
  | failure failure =>
    have hresult : calculate strict source = .error (.unreadable failure) := by
      rw [calculate, hparse]
      rfl
    rw [hresult]
    refine ⟨.inr ⟨failure, rfl, rfl⟩, fun error heq => ?_, fun tree rest heq => ?_⟩
    · cases heq
    · cases heq
  | success tree rest =>
    have hfits := Grammar.fits_of_parse hparse
    obtain ⟨value, hvalue⟩ := evaluate_ok hfits
    have hresult : calculate strict source = .ok value := by
      simp only [calculate, hparse, hvalue]
      rfl
    rw [hresult]
    refine ⟨.inl ⟨value, rfl⟩, fun error heq => ?_, fun found left heq => ?_⟩
    · cases heq
    · obtain ⟨rfl, rfl⟩ := Outcome.success.inj heq
      exact ⟨hfits.wellFormed, hfits.depth_le, value, hvalue⟩

theorem calculate_ok_or_unreadable_call :
    Grammar.parse true "sen(e)".toList = .success (.call .sine (.literal .e)) [] ∧
      (Expr.call .sine (.literal .e)).WellFormed ∧
      ∃ value, evaluate (.call .sine (.literal .e)) = .ok value := by
  have hparse : Grammar.parse true "sen(e)".toList = .success (.call .sine (.literal .e)) [] := by
    rfl
  obtain ⟨hwellFormed, -, hvalue⟩ := (calculate_ok_or_unreadable true _).2.2 _ _ hparse
  exact ⟨hparse, hwellFormed, hvalue⟩

end Evaluation

end Reckoner
