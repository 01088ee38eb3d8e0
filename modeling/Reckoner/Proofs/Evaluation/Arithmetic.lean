import Reckoner.Proofs.Double.Nearest
import Reckoner.Proofs.Evaluation.Defects

/-!
# Arithmetic never fails

Quotient, remainder and five of the functions have no answer on some operands, which are described
here by their class and their value. The guards in front of these operations let none of them
through and hold back no other answer, and an angle behind a guard stays finite in radians, so every
operation has a value on all numbers. An evaluation then ends with a value or at a defect of its
tree, and arithmetic is none of these defects. All guards but one answer `nan`; what that of the
division answers is compared with the quotient of binary64 arithmetic.
-/

namespace Reckoner

namespace Double

/-! ### Where there is no answer -/

theorem div?_eq_none_iff (x y : Double) : x.div? y = none ↔ y.isZero = true := by
  by_cases hzero : y.isZero = true
  · exact iff_of_true (if_pos hzero) hzero
  · obtain ⟨value, hvalue⟩ : ∃ value, x.div? y = some value :=
      div?_eq_some (Bool.eq_false_of_not_eq_true hzero)
    exact iff_of_false (by simp [hvalue]) hzero

theorem rem?_eq_none_iff (x y : Double) :
    x.rem? y = none ↔ (x.isInfinite = true ∧ y.isNaN = false) ∨
      (y.isZero = true ∧ x.isNaN = false) := by
  cases x with
  | nan => simp [rem?, isInfinite, isNaN]
  | infinity s => cases y <;> simp [rem?, isInfinite, isNaN, isZero]
  | finite s m e h => cases y <;> simp [rem?, isInfinite, isNaN, isZero]

theorem sin?_eq_none_iff (x : Double) : x.sin? = none ↔ x.isInfinite = true := by
  simp [sin?]

theorem cos?_eq_none_iff (x : Double) : x.cos? = none ↔ x.isInfinite = true := by
  simp [cos?]

theorem tan?_eq_none_iff (x : Double) : x.tan? = none ↔ x.isInfinite = true := by
  simp [tan?]

theorem one_lt_abs_value_iff (x : Double) : 1 < |x.value| ↔ unitsPerOne < x.units := by
  rw [abs_value, one_lt_div unitsPerOne_pos, Nat.cast_lt]

/-- What is neither `nan` nor between -1 and 1 is an infinity or of a magnitude above one. -/
theorem outside_unit_interval_iff (x : Double) :
    (x.isNaN = false ∧ x.inUnitInterval = false) ↔ x.isInfinite = true ∨ 1 < |x.value| := by
  rw [one_lt_abs_value_iff]
  cases x with
  | nan => simp [isNaN, isInfinite, units]
  | infinity s => simp [isNaN, inUnitInterval, isInfinite, isFinite]
  | finite s m e h => simp [isNaN, inUnitInterval, isInfinite, isFinite]

/-- Inverse sine and cosine differ in the function only. -/
theorem eq_none_iff_outside (f : Double → Double) (x : Double) :
    (if x.isNaN then some nan else if x.inUnitInterval then some (f x) else none) = none ↔
      x.isInfinite = true ∨ 1 < |x.value| := by
  rw [← outside_unit_interval_iff]
  cases x.isNaN <;> simp

theorem asin?_eq_none_iff (x : Double) : x.asin? = none ↔ x.isInfinite = true ∨ 1 < |x.value| :=
  eq_none_iff_outside (viaMachine Float.asin) x

theorem acos?_eq_none_iff (x : Double) : x.acos? = none ↔ x.isInfinite = true ∨ 1 < |x.value| :=
  eq_none_iff_outside (viaMachine Float.acos) x

/-! ### Quotients by a zero -/

/-- The sign as a factor. -/
def signFactor (x : Double) : Int := if x.isNegative then -1 else 1

/-- What binary64 arithmetic answers to a division by a zero. -/
structure IsQuotientByZero (x y quotient : Double) : Prop where
  undefined : x.isZero = true ∨ x.isNaN = true → quotient = nan
  infinite : x.isZero = false → x.isNaN = false →
    quotient.isInfinite = true ∧ quotient.signFactor = x.signFactor * y.signFactor

theorem isQuotientByZero_overZero (x y : Double) : x.IsQuotientByZero y (x.overZero y) where
  undefined h := by
    rw [overZero, if_pos (by simpa using h)]
  infinite hzero hnan := by
    rw [overZero, hzero, hnan, Bool.or_false, if_neg (by decide)]
    refine ⟨rfl, ?_⟩
    rw [signFactor, signFactor, signFactor]
    cases x.isNegative <;> cases y.isNegative <;> rfl

end Double

/-! ### What the guards leave alone -/

/-- A quotient that there is passes the guard. -/
theorem Operator.value?_div {x y quotient : Double} (h : x.div? y = some quotient) :
    Operator.div.value? x y = some quotient := by
  have hzero : ¬ y.isZero = true := by
    rw [← Double.div?_eq_none_iff x y, h]
    exact Option.some_ne_none quotient
  exact (if_neg hzero).trans h

/-- The remainder where there is one; its guard is wider, but then the remainder is `nan`. -/
theorem Operator.value?_mod (x y : Double) :
    Operator.mod.value? x y = some ((x.rem? y).getD .nan) := by
  rw [value?]
  cases x with
  | nan => simp [Double.rem?, Double.isNaN]
  | infinity s => cases y <;> simp [Double.rem?, Double.isInfinite]
  | finite s m e h =>
    cases y with
    | nan => simp [Double.rem?, Double.isNaN]
    | infinity t => simp [Double.rem?, Double.isZero, Double.isInfinite, Double.isNaN]
    | finite t m' e' h' =>
      by_cases hzero : m' = 0
      · simp [Double.rem?, Double.isZero, hzero]
      · simp [Double.rem?, Double.isZero, Double.isInfinite, Double.isNaN, hzero]

section

open Double

variable (x : Double)

/-- Sine, cosine and tangent of an angle in degrees. -/
theorem value_of_angle (f : Double → Double) :
    (if x.isInfinite then some nan
      else if x.toRadians.isInfinite then none else some (f x.toRadians)) =
      some ((if x.toRadians.isInfinite then none else some (f x.toRadians)).getD nan) := by
  rw [isInfinite_toRadians_eq]
  cases x.isInfinite <;> rfl

theorem Trig.value?_sine : Trig.sine.value? x = some (x.toRadians.sin?.getD nan) :=
  value_of_angle x (viaMachine Float.sin)

theorem Trig.value?_cosine : Trig.cosine.value? x = some (x.toRadians.cos?.getD nan) :=
  value_of_angle x (viaMachine Float.cos)

theorem Trig.value?_tangent : Trig.tangent.value? x = some (x.toRadians.tan?.getD nan) :=
  value_of_angle x (viaMachine Float.tan)

/-- Inverse sine and cosine, as an angle in degrees. -/
theorem value_of_ratio (f : Double → Double) :
    (if x.inUnitInterval then
      (if x.isNaN then some nan else if x.inUnitInterval then some (f x) else none).map toDegrees
      else some nan) =
      some (((if x.isNaN then some nan else if x.inUnitInterval then some (f x) else none).map
        toDegrees).getD nan) := by
  cases x with
  | nan => rfl
  | infinity s => rfl
  | finite s m e h => cases (Double.finite s m e h).inUnitInterval <;> rfl

theorem Trig.value?_arcsine : Trig.arcsine.value? x = some ((x.asin?.map toDegrees).getD nan) :=
  value_of_ratio x (viaMachine Float.asin)

theorem Trig.value?_arccosine : Trig.arccosine.value? x = some ((x.acos?.map toDegrees).getD nan) :=
  value_of_ratio x (viaMachine Float.acos)

end

namespace Evaluation

/-! ### Evaluations -/

/-- Arithmetic is not among the things that can be wrong at a moment. -/
theorem Moment.defect?_ne_undefinedValue (limit : Nat) (moment : Moment) :
    moment.defect? limit ≠ some .undefinedValue := by
  cases moment with
  | entry level =>
    rw [defect?]
    split <;> simp
  | application name count =>
    rw [defect?]
    cases arity? name with
    | none => simp
    | some needed => split <;> simp

theorem valueWithin_ne_undefinedValue (limit : Nat) (tree : Expr) :
    valueWithin limit tree ≠ .error .undefinedValue := by
  intro hfails
  have hreports := valueWithin_reports (Nat.add_comm 1 limit) tree
  have hfirst := (hreports.error_iff .undefinedValue).mp hfails
  obtain ⟨moment, -, hdefect⟩ := List.exists_of_findSome?_eq_some hfirst
  exact moment.defect?_ne_undefinedValue limit hdefect

/-- An operator is applied to the first two values of its arguments. -/
theorem valueWithin_operator {op : Operator} {limit : Nat} {args : List Expr} {x y value : Double}
    {more : List Double} (hvalues : valuesWithin limit args = .ok (x :: y :: more))
    (hvalue : op.value? x y = some value) :
    valueWithin (limit + 1) (.apply op.symbol args) = .ok value := by
  have hname : Operator.ofSymbol? op.symbol = some op := by cases op <;> decide
  rw [valueWithin, hvalues]
  change applyName op.symbol (x :: y :: more) = .ok value
  rw [applyName, hname]
  simp only [hvalue]
  rfl

/-- Quotient, remainder and functions lack an answer exactly at a zero divisor, at an infinite
dividend or angle, and outside `[-1, 1]`, and a finite angle stays finite in radians. An operation
has the answer for its value where there is one, and `nan` where there is none for anything but a
quotient, so every operation has a value on all numbers. No evaluation asks for an answer that is
missing, whatever the numbers in its tree and their intermediate results, and a division by a zero
gives the quotient of binary64 arithmetic. -/
theorem arithmetic_never_fails :
    (∀ x y : Double, (x.div? y = none ↔ y.isZero = true) ∧
      (x.rem? y = none ↔ (x.isInfinite = true ∧ y.isNaN = false) ∨
        (y.isZero = true ∧ x.isNaN = false))) ∧
    (∀ x : Double, (x.sin? = none ↔ x.isInfinite = true) ∧ (x.cos? = none ↔ x.isInfinite = true) ∧
      (x.tan? = none ↔ x.isInfinite = true) ∧
      (x.asin? = none ↔ x.isInfinite = true ∨ 1 < |x.value|) ∧
      (x.acos? = none ↔ x.isInfinite = true ∨ 1 < |x.value|)) ∧
    (∀ x : Double, x.isFinite = true → x.toRadians.isFinite = true) ∧
    (∀ x y : Double, (∀ quotient, x.div? y = some quotient →
        Operator.div.value? x y = some quotient) ∧
      Operator.mod.value? x y = some ((x.rem? y).getD .nan)) ∧
    (∀ x : Double, Trig.sine.value? x = some (x.toRadians.sin?.getD .nan) ∧
      Trig.cosine.value? x = some (x.toRadians.cos?.getD .nan) ∧
      Trig.tangent.value? x = some (x.toRadians.tan?.getD .nan) ∧
      Trig.arcsine.value? x = some ((x.asin?.map Double.toDegrees).getD .nan) ∧
      Trig.arccosine.value? x = some ((x.acos?.map Double.toDegrees).getD .nan)) ∧
    (∀ (op : Operator) (x y : Double), ∃ value, op.value? x y = some value) ∧
    (∀ (f : Trig) (x : Double), ∃ value, f.value? x = some value) ∧
    (∀ limit tree, valueWithin limit tree ≠ .error .undefinedValue) ∧
    (∀ tree, evaluate tree ≠ .error .undefinedValue) ∧
    ∀ limit args x y more, valuesWithin limit args = .ok (x :: y :: more) → y.isZero = true →
      ∃ quotient, valueWithin (limit + 1) (.apply Operator.div.symbol args) = .ok quotient ∧
        x.IsQuotientByZero y quotient := by
  refine ⟨fun x y => ⟨x.div?_eq_none_iff y, x.rem?_eq_none_iff y⟩,
    fun x => ⟨x.sin?_eq_none_iff, x.cos?_eq_none_iff, x.tan?_eq_none_iff, x.asin?_eq_none_iff,
      x.acos?_eq_none_iff⟩,
    fun x => Double.isFinite_toRadians,
    fun x y => ⟨fun quotient => Operator.value?_div, Operator.value?_mod x y⟩,
    fun x => ⟨Trig.value?_sine x, Trig.value?_cosine x, Trig.value?_tangent x,
      Trig.value?_arcsine x, Trig.value?_arccosine x⟩, Operator.value?_eq_some, Trig.value?_eq_some,
    valueWithin_ne_undefinedValue, valueWithin_ne_undefinedValue Expr.maxDepth, ?_⟩
  intro limit args x y more hvalues hzero
  exact ⟨_, valueWithin_operator hvalues (if_pos hzero), x.isQuotientByZero_overZero y⟩

/-- One by itself, one by the negative zero, and the sine of that quotient. -/
theorem arithmetic_never_fails_negative_zero :
    (∃ quotient, (Double.ofNat 1).div? (.ofNat 1) = some quotient ∧
      Operator.div.value? (.ofNat 1) (.ofNat 1) = some quotient) ∧
    (Double.ofNat 1).isFinite = true ∧ (Double.ofNat 1).toRadians.isFinite = true ∧
    evaluate (.call .sine (.binary .div (.literal (.ofNat 1)) (.literal (.zero true)))) ≠
      .error .undefinedValue ∧
    valuesWithin 1 [.literal (.ofNat 1), .literal (.zero true)] = .ok [.ofNat 1, .zero true] ∧
    (Double.zero true).isZero = true ∧
    ∃ quotient, valueWithin 2 (.apply Operator.div.symbol
        [.literal (.ofNat 1), .literal (.zero true)]) = .ok quotient ∧
      quotient.isInfinite = true ∧ quotient.signFactor = -1 := by
  obtain ⟨-, -, hradians, hanswers, -, -, -, -, hevaluate, hdivision⟩ := arithmetic_never_fails
  have hfinite : (Double.ofNat 1).isFinite = true := by decide +kernel
  have hnonzero : (Double.ofNat 1).isZero = false := by decide +kernel
  have hvalues : valuesWithin 1 [.literal (.ofNat 1), .literal (.zero true)] =
      .ok [.ofNat 1, .zero true] := rfl
  obtain ⟨quotient, hquotient⟩ := Double.div?_eq_some (x := .ofNat 1) hnonzero
  obtain ⟨byZero, hbyZero, hsigned⟩ := hdivision 1 _ _ _ _ hvalues rfl
  obtain ⟨hinfinite, hsign⟩ := hsigned.infinite hnonzero (by decide +kernel)
  refine ⟨⟨quotient, hquotient, (hanswers _ _).1 _ hquotient⟩, hfinite, hradians _ hfinite,
    hevaluate _, hvalues, rfl, byZero, hbyZero, hinfinite, ?_⟩
  rw [hsign]
  decide +kernel

end Evaluation

end Reckoner
