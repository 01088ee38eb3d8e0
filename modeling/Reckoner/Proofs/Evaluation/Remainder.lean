import Mathlib.Data.Rat.Floor
import Reckoner.Proofs.Evaluation.Arithmetic

/-!
# The remainder is exact

Two finite numbers are multiples of the smaller of their two steps, and so is the remainder of their
magnitudes. It is below the divisor and not above the dividend, one of which has this step, so it
has a significand that fits and nothing is left to round. What the division that truncates takes
away is a multiple of the divisor, hence the exact remainder has the sign of the dividend.
-/

namespace Reckoner

namespace Double

/-! ### A remainder is a number -/

/-- A significand that fits belongs to a number, whatever its step. -/
theorem exists_canonical {k e : Nat} (hk : k < significandLimit) (he : e ≤ 2045) :
    ∃ m e', Canonical m e' ∧ m * Nat.pow 2 e' = k * Nat.pow 2 e := by
  induction e generalizing k with
  | zero => exact ⟨k, 0, ⟨hk, he, .inl rfl⟩, rfl⟩
  | succ e ih =>
    by_cases hfull : leastFull ≤ k
    · exact ⟨k, e + 1, ⟨hk, he, .inr hfull⟩, rfl⟩
    · have hdouble : k * 2 < significandLimit := by
        dsimp only [leastFull, significandLimit] at hfull ⊢
        omega
      obtain ⟨m, e', hcanonical, hunits⟩ := ih hdouble (Nat.le_of_succ_le he)
      refine ⟨m, e', hcanonical, ?_⟩
      show m * Nat.pow 2 e' = k * (Nat.pow 2 e * 2)
      rw [hunits, Nat.mul_comm (Nat.pow 2 e), Nat.mul_assoc]

/-- With a step common to both, the remainder is a multiple of it. -/
theorem mul_pow_mod_mul_pow (a b e : Nat) :
    a * Nat.pow 2 e % (b * Nat.pow 2 e) = a % b * Nat.pow 2 e :=
  Nat.mul_mod_mul_right _ _ _

theorem exists_canonical_mod {m e m' e' : Nat} (h : Canonical m e) (h' : Canonical m' e')
    (hpos : 0 < m') :
    ∃ r k, Canonical r k ∧ r * Nat.pow 2 k = m * Nat.pow 2 e % (m' * Nat.pow 2 e') := by
  rcases Nat.le_total e' e with hle | hle
  · rw [mul_pow_of_le m hle, mul_pow_mod_mul_pow]
    exact exists_canonical (Nat.lt_trans (Nat.mod_lt _ hpos) h'.1) h'.2.1
  · rw [mul_pow_of_le m' hle, mul_pow_mod_mul_pow]
    exact exists_canonical (Nat.lt_of_le_of_lt (Nat.mod_le _ _) h.1) h.2.1

theorem units_pos_of_isZero {y : Double} (hfinite : y.isFinite = true) (hzero : y.isZero = false) :
    0 < y.units := by
  cases y with
  | nan => cases hfinite
  | infinity t => cases hfinite
  | finite t m e h =>
    have hm : m ≠ 0 := by simpa [isZero] using hzero
    exact Nat.mul_pos (Nat.pos_of_ne_zero hm) (Nat.two_pow_pos e)

/-- The remainder of the magnitudes is a magnitude, so rounding leaves it alone. -/
theorem rem?_eq_exact {x y : Double} (hx : x.isFinite = true) (hy : y.isFinite = true)
    (hzero : y.isZero = false) :
    ∃ m e h, x.rem? y = some (finite x.isNegative m e h) ∧
      m * Nat.pow 2 e = x.units % y.units := by
  have hunits := units_pos_of_isZero hy hzero
  cases x with
  | nan => cases hx
  | infinity s => cases hx
  | finite s m e h =>
    cases y with
    | nan => cases hy
    | infinity t => cases hy
    | finite t m' e' h' =>
      have hpos : 0 < m' := Nat.pos_of_mul_pos_right hunits
      obtain ⟨r, k, hcanonical, hr⟩ := exists_canonical_mod h h' hpos
      refine ⟨r, k, hcanonical, ?_, hr⟩
      have hrounded := nearest_exact s hcanonical Nat.one_pos
        ((Nat.mul_one _).trans hr).symm
      exact (if_neg (by simp [hzero])).trans (congrArg some hrounded)

theorem rem?_of_infinite_divisor {x y : Double} (hx : x.isFinite = true)
    (hy : y.isInfinite = true) : x.rem? y = some x := by
  cases x with
  | nan => cases hx
  | infinity s => cases hx
  | finite s m e h =>
    cases y with
    | nan => cases hy
    | infinity t => rfl
    | finite t m' e' h' => cases hy

/-- Where there is no remainder the guard answers `nan`, as the remainder of `nan` is anyway. -/
theorem rem?_getD_of_undefined {x y : Double} (h : y.isZero = true ∨ x.isInfinite = true ∨
    x.isNaN = true ∨ y.isNaN = true) : (x.rem? y).getD nan = nan := by
  cases x with
  | nan => rfl
  | infinity s => cases y <;> rfl
  | finite s m e hcanonical =>
    cases y with
    | nan => rfl
    | infinity t => simp [isZero, isInfinite, isNaN] at h
    | finite t m' e' hcanonical' =>
      have hzero : (finite t m' e' hcanonical').isZero = true := by
        simpa [isInfinite, isNaN] using h
      have hnone : (finite s m e hcanonical).rem? (finite t m' e' hcanonical') = none :=
        (rem?_eq_none_iff _ _).mpr (.inr ⟨hzero, rfl⟩)
      rw [hnone, Option.getD_none]

/-! ### The division that truncates -/

/-- The whole part of a number, which is nearer to zero if it is not the number itself. -/
def towardZero (q : ℚ) : ℤ := if 0 ≤ q then ⌊q⌋ else ⌈q⌉

theorem towardZero_signed (negative : Bool) {q : ℚ} (h : 0 ≤ q) :
    (towardZero (signed negative q) : ℚ) = signed negative ⌊q⌋ := by
  cases negative with
  | false =>
    have hwhole : towardZero q = ⌊q⌋ := if_pos h
    exact congrArg Int.cast hwhole
  | true =>
    show (towardZero (-q) : ℚ) = -⌊q⌋
    rw [towardZero]
    split
    · next hnonneg =>
      obtain rfl : q = 0 := le_antisymm (neg_nonneg.mp hnonneg) h
      simp
    · rw [Int.ceil_neg, Int.cast_neg]

theorem signed_div_signed (negative negative' : Bool) (a b : ℚ) :
    signed negative a / signed negative' b = signed (negative != negative') (a / b) := by
  cases negative <;> cases negative' <;> simp [signed, neg_div, div_neg]

theorem signed_mul_signed (negative negative' : Bool) (a b : ℚ) :
    signed (negative != negative') a * signed negative' b = signed negative (a * b) := by
  cases negative <;> cases negative' <;> simp [signed]

theorem signed_sub_signed (negative : Bool) (a b : ℚ) :
    signed negative a - signed negative b = signed negative (a - b) := by
  cases negative with
  | false => rfl
  | true =>
    show -a - -b = -(a - b)
    ring

/-- What is left of a magnitude is the remainder in units. -/
theorem units_sub_floor_mul (x y : Double) :
    (x.units : ℚ) / unitsPerOne - ⌊(x.units : ℚ) / y.units⌋ * (y.units / unitsPerOne) =
      (x.units % y.units : Nat) / unitsPerOne := by
  have hdivision : ((x.units % y.units : Nat) : ℚ) + y.units * (x.units / y.units : Nat) = x.units :=
    by exact_mod_cast Nat.mod_add_div x.units y.units
  rw [Rat.floor_natCast_div_natCast, ← Int.natCast_div, Int.cast_natCast, mul_div_assoc', ← sub_div,
    ← hdivision]
  ring

theorem value_sub_towardZero_mul (x y : Double) :
    x.value - towardZero (x.value / y.value) * y.value =
      signed x.isNegative ((x.units % y.units : Nat) / unitsPerOne) := by
  have hquotient : x.value / y.value =
      signed (x.isNegative != y.isNegative) ((x.units : ℚ) / y.units) := by
    rw [value_eq x, value_eq y, signed_div_signed, div_div_div_cancel_right₀ unitsPerOne_pos.ne']
  have hnonneg : 0 ≤ (x.units : ℚ) / y.units := div_nonneg (Nat.cast_nonneg _) (Nat.cast_nonneg _)
  rw [hquotient, towardZero_signed _ hnonneg, value_eq y, signed_mul_signed, value_eq x,
    signed_sub_signed, units_sub_floor_mul]

end Double

namespace Evaluation

/-! ### The operator -/

/-- The remainder of finite numbers is what the division that truncates leaves, without rounding; it
is below the divisor in magnitude and has the sign of the dividend, a zero too. An infinite divisor
leaves the dividend, and all else has no remainder. An evaluation applies the operator to the values
of its first two arguments. -/
theorem remainder_exact (x y : Double) :
    ∃ remainder, Operator.mod.value? x y = some remainder ∧
      (x.isFinite = true → y.isFinite = true → y.isZero = false →
        remainder.isFinite = true ∧
        remainder.value = x.value - Double.towardZero (x.value / y.value) * y.value ∧
        |remainder.value| < |y.value| ∧ remainder.isNegative = x.isNegative) ∧
      (x.isFinite = true → y.isInfinite = true → remainder = x) ∧
      (y.isZero = true ∨ x.isInfinite = true ∨ x.isNaN = true ∨ y.isNaN = true →
        remainder = .nan) ∧
      ∀ limit args more, valuesWithin limit args = .ok (x :: y :: more) →
        valueWithin (limit + 1) (.apply Operator.mod.symbol args) = .ok remainder := by
  have hvalue := Operator.value?_mod x y
  refine ⟨(x.rem? y).getD .nan, hvalue, ?_, ?_, ?_,
    fun limit args more hvalues => valueWithin_operator hvalues hvalue⟩
  · intro hx hy hzero
    obtain ⟨m, e, h, hremainder, hunits⟩ := Double.rem?_eq_exact hx hy hzero
    rw [hremainder, Option.getD_some]
    refine ⟨rfl, ?_, ?_, rfl⟩
    · rw [Double.value_sub_towardZero_mul, ← hunits, Double.value_eq]
      rfl
    · rw [Double.abs_value, Double.abs_value, Double.units, hunits]
      refine div_lt_div_of_pos_right ?_ Double.unitsPerOne_pos
      exact_mod_cast Nat.mod_lt x.units (Double.units_pos_of_isZero hy hzero)
  · intro hx hy
    rw [Double.rem?_of_infinite_divisor hx hy, Option.getD_some]
  · intro hundefined
    exact Double.rem?_getD_of_undefined hundefined

theorem canonical_largest : Double.Canonical 0x1fffffffffffff 2045 := by decide

theorem canonical_three : Double.Canonical 3 0 := by decide

/-- The largest number, negative, over three times the least positive one, which is a quotient far
beyond the range of numbers. -/
theorem remainder_exact_of_extremes :
    ∃ remainder, Operator.mod.value? (.finite true _ _ canonical_largest)
        (.finite false _ _ canonical_three) = some remainder ∧
      remainder.value = (Double.finite true _ _ canonical_largest).value -
        Double.towardZero ((Double.finite true _ _ canonical_largest).value /
          (Double.finite false _ _ canonical_three).value) *
          (Double.finite false _ _ canonical_three).value ∧
      |remainder.value| < |(Double.finite false _ _ canonical_three).value| ∧
      remainder.isNegative = true ∧
      valueWithin 2 (.apply "%" [.literal (.finite true _ _ canonical_largest),
        .literal (.finite false _ _ canonical_three)]) = .ok remainder ∧
      Operator.mod.value? (.zero true) (.infinity false) = some (.zero true) ∧
      Operator.mod.value? (.zero true) (.zero false) = some .nan := by
  obtain ⟨remainder, hvalue, hfinite, -, -, hevaluation⟩ := remainder_exact
    (.finite true _ _ canonical_largest) (.finite false _ _ canonical_three)
  obtain ⟨-, hexact, hbelow, hsign⟩ := hfinite rfl rfl (by decide)
  obtain ⟨whole, hwhole, -, hdividend, -⟩ := remainder_exact (.zero true) (.infinity false)
  obtain ⟨none, hnone, -, -, hundefined, -⟩ := remainder_exact (.zero true) (.zero false)
  exact ⟨remainder, hvalue, hexact, hbelow, hsign, hevaluation 1 _ [] rfl,
    hdividend rfl rfl ▸ hwhole, hundefined (.inl rfl) ▸ hnone⟩

end Evaluation

end Reckoner
