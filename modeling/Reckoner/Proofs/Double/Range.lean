import Reckoner.Double.Trigonometry
/-!
# The range of finite numbers

Rounding gives an infinity only past the largest finite number. A finite number stays within the
range when it is multiplied by one of magnitude one or less, and so do degrees turned into radians.
-/

namespace Reckoner.Double

/-- The largest magnitude with the given exponent, in units. -/
def largestUnits (exponent : Nat) : Nat := (significandLimit - 1) * Nat.pow 2 exponent

theorem zero_lt_unitsPerOne : 0 < unitsPerOne := by decide +kernel

/-! ### Rounding a quotient -/

theorem div_le_roundDiv (numerator denominator : Nat) :
    numerator / denominator ≤ roundDiv numerator denominator := by
  unfold roundDiv
  dsimp only
  split
  · exact Nat.le_refl _
  · split
    · exact Nat.le_succ _
    · exact Nat.le_add_right _ _

/-- A whole bound on the quotient is one on the rounded quotient. -/
theorem roundDiv_le {numerator denominator bound : Nat} (hpos : 0 < denominator)
    (h : numerator ≤ bound * denominator) : roundDiv numerator denominator ≤ bound := by
  have hdivision := Nat.div_add_mod numerator denominator
  have hquotient : numerator / denominator ≤ bound :=
    Nat.div_le_of_le_mul (by rwa [Nat.mul_comm])
  rcases Nat.lt_or_eq_of_le hquotient with hbelow | hequal
  · unfold roundDiv
    dsimp only
    split
    · exact hquotient
    · split
      · exact hbelow
      · omega
  · -- At the bound itself nothing remains, so nothing is rounded up.
    have hremainder : numerator % denominator = 0 := by
      rw [hequal, Nat.mul_comm] at hdivision
      omega
    have hrounded : roundDiv numerator denominator = numerator / denominator := by
      simp [roundDiv, hremainder, hpos]
    rw [hrounded]
    exact hquotient

/-! ### The significand and exponent of a rounded number -/

section

variable {numerator denominator : Nat}

theorem div_lt_exponentFor (numerator denominator : Nat) :
    numerator / denominator <
      significandLimit * Nat.pow 2 (exponentFor (numerator / denominator)) := by
  have hbits : (numerator / denominator).log2 + 1 ≤
      53 + exponentFor (numerator / denominator) := by
    rw [exponentFor]
    omega
  calc numerator / denominator
      < Nat.pow 2 ((numerator / denominator).log2 + 1) := Nat.lt_log2_self
    _ ≤ Nat.pow 2 (53 + exponentFor (numerator / denominator)) :=
        Nat.pow_le_pow_right (by decide) hbits
    _ = significandLimit * Nat.pow 2 (exponentFor (numerator / denominator)) :=
        Nat.pow_add 2 53 _

theorem exponentFor_le_div (h : 0 < exponentFor (numerator / denominator)) :
    leastFull * Nat.pow 2 (exponentFor (numerator / denominator)) ≤ numerator / denominator := by
  have hbits : 52 + exponentFor (numerator / denominator) = (numerator / denominator).log2 := by
    rw [exponentFor] at h ⊢
    omega
  have hne : numerator / denominator ≠ 0 := by
    intro hzero
    rw [hzero] at h
    exact absurd h (by decide)
  calc leastFull * Nat.pow 2 (exponentFor (numerator / denominator))
      = Nat.pow 2 (52 + exponentFor (numerator / denominator)) := (Nat.pow_add 2 52 _).symm
    _ = Nat.pow 2 (numerator / denominator).log2 := by rw [hbits]
    _ ≤ numerator / denominator := Nat.log2_self_le hne

theorem exponentFor_le {exponent : Nat} (h : numerator / denominator ≤ largestUnits exponent) :
    exponentFor (numerator / denominator) ≤ exponent := by
  by_cases hzero : numerator / denominator = 0
  · rw [hzero]
    exact Nat.zero_le _
  · have hpower : numerator / denominator < Nat.pow 2 (53 + exponent) := by
      calc numerator / denominator
          ≤ (significandLimit - 1) * Nat.pow 2 exponent := h
        _ < significandLimit * Nat.pow 2 exponent :=
            Nat.mul_lt_mul_of_pos_right (by decide) (Nat.two_pow_pos exponent)
        _ = Nat.pow 2 (53 + exponent) := (Nat.pow_add 2 53 exponent).symm
    have hlog : (numerator / denominator).log2 < 53 + exponent := (Nat.log2_lt hzero).mpr hpower
    rw [exponentFor]
    omega

/-- The significand that a quotient is rounded to. -/
def significandFor (numerator denominator : Nat) : Nat :=
  roundDiv numerator (denominator * Nat.pow 2 (exponentFor (numerator / denominator)))

theorem nearest_eq (negative : Bool) (numerator denominator : Nat) :
    nearest negative numerator denominator = ofSignificand negative
      (significandFor numerator denominator) (exponentFor (numerator / denominator)) :=
  rfl

theorem significandFor_le_of {bound : Nat} (hpos : 0 < denominator)
    (h : numerator ≤
      bound * Nat.pow 2 (exponentFor (numerator / denominator)) * denominator) :
    significandFor numerator denominator ≤ bound := by
  refine roundDiv_le (Nat.mul_pos hpos (Nat.two_pow_pos _)) ?_
  rw [Nat.mul_comm denominator, ← Nat.mul_assoc]
  exact h

theorem significandFor_le (hpos : 0 < denominator) :
    significandFor numerator denominator ≤ significandLimit := by
  refine significandFor_le_of hpos ?_
  calc numerator
      ≤ denominator * (numerator / denominator + 1) := Nat.le_of_lt (Nat.lt_mul_div_succ _ hpos)
    _ ≤ denominator * (significandLimit * Nat.pow 2 (exponentFor (numerator / denominator))) :=
        Nat.mul_le_mul_left _ (div_lt_exponentFor numerator denominator)
    _ = significandLimit * Nat.pow 2 (exponentFor (numerator / denominator)) * denominator :=
        Nat.mul_comm _ _

theorem leastFull_le_significandFor (h : 0 < exponentFor (numerator / denominator)) :
    leastFull ≤ significandFor numerator denominator := by
  refine Nat.le_trans ?_ (div_le_roundDiv _ _)
  rw [← Nat.div_div_eq_div_mul]
  exact (Nat.le_div_iff_mul_le (Nat.two_pow_pos _)).mpr (exponentFor_le_div h)

theorem exponentFor_eq_zero_or_full (numerator denominator : Nat) :
    exponentFor (numerator / denominator) = 0 ∨
      leastFull ≤ significandFor numerator denominator := by
  rcases Nat.eq_zero_or_pos (exponentFor (numerator / denominator)) with hzero | hpositive
  · exact .inl hzero
  · exact .inr (leastFull_le_significandFor hpositive)

/-- What is not above the largest finite number is rounded to a finite one. -/
theorem isFinite_nearest (negative : Bool) (hpos : 0 < denominator)
    (h : numerator ≤ largestUnits 2045 * denominator) :
    (nearest negative numerator denominator).isFinite = true := by
  have hquotient : numerator / denominator ≤ largestUnits 2045 :=
    Nat.div_le_of_le_mul (by rwa [Nat.mul_comm])
  have hexponent : exponentFor (numerator / denominator) ≤ 2045 := exponentFor_le hquotient
  have hfull := exponentFor_eq_zero_or_full numerator denominator
  have hsignificand : significandFor numerator denominator ≤ significandLimit :=
    significandFor_le hpos
  rw [nearest_eq, ofSignificand]
  rcases Nat.lt_or_eq_of_le hsignificand with hfits | hcarry
  · have hcanonical : Canonical (significandFor numerator denominator)
        (exponentFor (numerator / denominator)) := ⟨hfits, hexponent, hfull⟩
    rw [dif_pos hcanonical]
    rfl
  · -- The carry leaves room for one more exponent, as the largest number itself does not carry.
    have hbelow : exponentFor (numerator / denominator) ≠ 2045 := by
      intro hlast
      rw [← hlast] at h
      have hbound : significandFor numerator denominator ≤ significandLimit - 1 :=
        significandFor_le_of hpos h
      rw [hcarry] at hbound
      exact absurd hbound (by decide)
    have hnot : ¬ Canonical (significandFor numerator denominator)
        (exponentFor (numerator / denominator)) := by
      rw [hcarry]
      exact fun hcanonical => Nat.lt_irrefl _ hcanonical.1
    have hcanonical : Canonical (significandFor numerator denominator / 2)
        (exponentFor (numerator / denominator) + 1) := by
      rw [hcarry]
      exact ⟨by decide, Nat.lt_of_le_of_ne hexponent hbelow, .inr (by decide)⟩
    rw [dif_neg hnot, dif_pos hcanonical]
    rfl

end

/-! ### Products -/

theorem mul_pow_le_largestUnits {significand exponent largest : Nat}
    (hsignificand : significand < significandLimit) (hexponent : exponent ≤ largest) :
    significand * Nat.pow 2 exponent ≤ largestUnits largest :=
  Nat.mul_le_mul (Nat.le_sub_one_of_lt hsignificand) (Nat.pow_le_pow_right (by decide) hexponent)

theorem units_le (x : Double) : x.units ≤ largestUnits 2045 := by
  cases x with
  | nan => exact Nat.zero_le _
  | infinity s => exact Nat.zero_le _
  | finite s m e h =>
    obtain ⟨hsignificand, hexponent, -⟩ := h
    exact mul_pow_le_largestUnits hsignificand hexponent

/-- A finite number times one of magnitude one or less is finite. -/
theorem isFinite_mul {x y : Double} (hx : x.isFinite = true) (hy : y.inUnitInterval = true) :
    (x.mul y).isFinite = true := by
  obtain ⟨hfinite, hunits⟩ : y.isFinite = true ∧ y.units ≤ unitsPerOne := by
    simpa [inUnitInterval] using hy
  have hproduct : x.units * y.units ≤ largestUnits 2045 * unitsPerOne :=
    Nat.mul_le_mul (units_le x) hunits
  cases x with
  | nan => cases hx
  | infinity s => cases hx
  | finite s m e h =>
    cases y with
    | nan => cases hfinite
    | infinity t => cases hfinite
    | finite t m' e' h' => exact isFinite_nearest _ zero_lt_unitsPerOne hproduct

theorem radiansPerDegree_inUnitInterval : radiansPerDegree.inUnitInterval = true := by
  decide +kernel

theorem isFinite_toRadians {x : Double} (h : x.isFinite = true) : x.toRadians.isFinite = true :=
  isFinite_mul h radiansPerDegree_inUnitInterval

theorem isInfinite_toRadians {x : Double} (h : x.isInfinite = false) :
    x.toRadians.isInfinite = false := by
  cases x with
  | infinity s => cases h
  | nan => rfl
  | finite s m e hcanonical =>
    have hfinite : (toRadians (.finite s m e hcanonical)).isFinite = true :=
      isFinite_toRadians rfl
    cases hradians : toRadians (.finite s m e hcanonical) with
    | infinity t =>
      rw [hradians] at hfinite
      cases hfinite
    | nan => rfl
    | finite t m' e' h' => rfl

theorem isInfinite_infinity_mul (negative : Bool) {y : Double} (hfinite : y.isFinite = true)
    (hzero : y.isZero = false) : ((infinity negative).mul y).isInfinite = true := by
  cases y with
  | nan => cases hfinite
  | infinity t => cases hfinite
  | finite t m e h =>
    have hproduct : (infinity negative).mul (.finite t m e h) = infinity (negative != t) :=
      if_neg (by rw [hzero]; decide)
    rw [hproduct]
    rfl

/-- Angles are infinite in degrees and in radians alike. -/
theorem isInfinite_toRadians_eq (x : Double) : x.toRadians.isInfinite = x.isInfinite := by
  cases hx : x.isInfinite with
  | false => exact isInfinite_toRadians hx
  | true =>
    cases x with
    | nan => cases hx
    | infinity s => exact isInfinite_infinity_mul s (by decide +kernel) (by decide +kernel)
    | finite s m e h => cases hx

end Reckoner.Double
