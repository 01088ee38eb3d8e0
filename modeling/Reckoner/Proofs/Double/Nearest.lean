import Mathlib.Algebra.Order.Field.Basic
import Mathlib.Algebra.Order.Ring.Abs
import Mathlib.Data.Rat.Cast.Order
import Mathlib.Tactic.FieldSimp
import Mathlib.Tactic.Positivity
import Mathlib.Tactic.Ring
import Reckoner.Proofs.Double.Shortest

/-!
# Correct rounding

What it means for a number to be the nearest to an exact value says nothing of significands and
exponents, but for the tie: no finite number is closer, and from halfway between the largest finite
number and the power of two above it on, the number is infinite. A quotient is rounded that way. The
multiples of the step it is rounded to are all the finite numbers there are from the least full
significand on, and below that the number with this significand is between them and the quotient.
Two numbers cannot both be nearest, since halfway between neighbours only one significand is even.
-/

namespace Reckoner.Double

/-- The value of a finite number; the others have none, and count as zero. -/
def value (x : Double) : ℚ := x.signedUnits / unitsPerOne

/-- A magnitude with its sign. -/
def signed (negative : Bool) (magnitude : ℚ) : ℚ := if negative then -magnitude else magnitude

/-- The number is finite, no finite number is closer to the exact value, and if one of another value
is as close, the significand is even. -/
def IsClosest (exact : ℚ) (x : Double) : Prop :=
  ∃ negative m e h, x = finite negative m e h ∧ ∀ y : Double, y.isFinite = true →
    |x.value - exact| ≤ |y.value - exact| ∧
      (|y.value - exact| = |x.value - exact| → y.value = x.value ∨ m % 2 = 0)

/-- The number is what an exact value rounds to. -/
structure IsRounded (negative : Bool) (magnitude : ℚ) (x : Double) : Prop where
  sign : x.isNegative = negative
  overflow : 2 ^ 1024 - 2 ^ 970 ≤ magnitude → x = infinity negative
  closest : magnitude < 2 ^ 1024 - 2 ^ 970 → x.IsClosest (signed negative magnitude)

section

variable {numerator denominator rounded : Nat}

/-! ### Multiples of the step -/

/-- How far a multiple of the denominator is from the numerator. -/
def gap (numerator denominator multiple : Nat) : Nat :=
  ((multiple * denominator : Nat) - numerator : Int).natAbs

theorem IsNearest.gap_le (h : IsNearest numerator denominator rounded) (other : Nat) :
    gap numerator denominator rounded ≤ gap numerator denominator other ∧
      (gap numerator denominator other = gap numerator denominator rounded →
        other = rounded ∨ rounded % 2 = 0) := by
  obtain ⟨hlow, hhigh, hlowTie, hhighTie⟩ := h
  rw [gap, gap]
  rcases Nat.lt_trichotomy other rounded with hless | rfl | hmore
  · have hstep : (other + 1) * denominator ≤ rounded * denominator :=
      Nat.mul_le_mul_right _ hless
    rw [Nat.add_mul] at hstep
    omega
  · exact ⟨Nat.le_refl _, fun _ => .inl rfl⟩
  · have hstep : (rounded + 1) * denominator ≤ other * denominator :=
      Nat.mul_le_mul_right _ hmore
    rw [Nat.add_mul] at hstep
    omega

theorem gap_mul (multiple factor : Nat) :
    gap numerator (denominator * factor) multiple =
      gap numerator denominator (multiple * factor) := by
  rw [gap, gap, Nat.mul_assoc, Nat.mul_comm factor]

/-- The units that a quotient is rounded to, as long as they are not too many. -/
def roundedUnits (numerator denominator : Nat) : Nat :=
  significandFor numerator denominator * Nat.pow 2 (exponentFor (numerator / denominator))

theorem isNearest_significandFor (numerator : Nat) (hpos : 0 < denominator) :
    IsNearest numerator (denominator * Nat.pow 2 (exponentFor (numerator / denominator)))
      (significandFor numerator denominator) :=
  isNearest_roundDiv (Nat.mul_pos hpos (Nat.two_pow_pos _))

/-- A number with a larger exponent is a multiple of the smaller step. -/
theorem mul_pow_of_le (m : Nat) {e e' : Nat} (h : e ≤ e') :
    m * Nat.pow 2 e' = m * Nat.pow 2 (e' - e) * Nat.pow 2 e := by
  rw [Nat.mul_assoc]
  exact congrArg (m * ·) (Nat.pow_sub_mul_pow 2 h).symm

/-- A number with a smaller exponent stays below the least full significand of a larger one. -/
theorem mul_pow_lt_leastFull {m e e' : Nat} (hm : m < significandLimit) (h : e < e') :
    m * Nat.pow 2 e < leastFull * Nat.pow 2 e' := by
  calc m * Nat.pow 2 e
      < significandLimit * Nat.pow 2 e := Nat.mul_lt_mul_of_pos_right hm (Nat.two_pow_pos e)
    _ = leastFull * Nat.pow 2 (e + 1) := significandLimit_mul_pow e
    _ ≤ leastFull * Nat.pow 2 e' := Nat.mul_le_mul_left _ (Nat.pow_le_pow_right (by decide) h)

/-- With a smaller exponent, a number is further away from the quotient than the least full
significand of a larger one. -/
theorem gap_lt_of_exponent_lt (hpos : 0 < denominator) {m e : Nat} (hm : m < significandLimit)
    (he : e < exponentFor (numerator / denominator)) :
    gap numerator denominator (roundedUnits numerator denominator) <
      gap numerator denominator (m * Nat.pow 2 e) := by
  have hfull : gap numerator denominator (roundedUnits numerator denominator) ≤
      gap numerator denominator (leastFull * Nat.pow 2 (exponentFor (numerator / denominator))) := by
    rw [roundedUnits, ← gap_mul, ← gap_mul]
    exact ((isNearest_significandFor numerator hpos).gap_le leastFull).1
  have hbelow := mul_pow_lt_leastFull hm he
  have hover : leastFull * Nat.pow 2 (exponentFor (numerator / denominator)) * denominator ≤
      numerator :=
    (Nat.le_div_iff_mul_le hpos).mp (exponentFor_le_div (Nat.zero_lt_of_lt he))
  have hmul := Nat.mul_lt_mul_of_pos_right hbelow hpos
  refine Nat.lt_of_le_of_lt hfull ?_
  rw [gap, gap]
  omega

/-- Rounding finds the magnitude closest to a quotient among those of all numbers. -/
theorem gap_roundedUnits_le (numerator : Nat) (hpos : 0 < denominator) (y : Double) :
    gap numerator denominator (roundedUnits numerator denominator) ≤
        gap numerator denominator y.units ∧
      (gap numerator denominator y.units =
          gap numerator denominator (roundedUnits numerator denominator) →
        y.units = roundedUnits numerator denominator ∨
          significandFor numerator denominator % 2 = 0) := by
  have hmultiple : ∀ k, y.units = k * Nat.pow 2 (exponentFor (numerator / denominator)) →
      gap numerator denominator (roundedUnits numerator denominator) ≤
          gap numerator denominator y.units ∧
        (gap numerator denominator y.units =
            gap numerator denominator (roundedUnits numerator denominator) →
          y.units = roundedUnits numerator denominator ∨
            significandFor numerator denominator % 2 = 0) := by
    intro k hk
    obtain ⟨hle, htie⟩ := (isNearest_significandFor numerator hpos).gap_le k
    rw [hk, roundedUnits, ← gap_mul, ← gap_mul]
    refine ⟨hle, fun heq => (htie heq).imp_left fun hsame => ?_⟩
    rw [hsame]
  cases y with
  | nan => exact hmultiple 0 (Nat.zero_mul _).symm
  | infinity negative => exact hmultiple 0 (Nat.zero_mul _).symm
  | finite negative m e hcanonical =>
    rcases Nat.lt_or_ge e (exponentFor (numerator / denominator)) with hless | hmore
    · have hlt := gap_lt_of_exponent_lt hpos hcanonical.1 hless
      exact ⟨Nat.le_of_lt hlt, fun heq => absurd heq (Nat.ne_of_gt hlt)⟩
    · exact hmultiple (m * Nat.pow 2 (e - exponentFor (numerator / denominator)))
        (mul_pow_of_le m hmore)

/-! ### Overflow -/

/-- What rounding comes to: the significand and exponent as they are, or after a carry, or past the
largest of them. -/
theorem nearest_cases (negative : Bool) (numerator : Nat) (hpos : 0 < denominator) :
    (∃ h, nearest negative numerator denominator = finite negative
        (significandFor numerator denominator) (exponentFor (numerator / denominator)) h) ∨
      (significandFor numerator denominator = significandLimit ∧
        ∃ h, nearest negative numerator denominator = finite negative leastFull
          (exponentFor (numerator / denominator) + 1) h) ∨
      ((2045 < exponentFor (numerator / denominator) ∨
          exponentFor (numerator / denominator) = 2045 ∧
            significandFor numerator denominator = significandLimit) ∧
        nearest negative numerator denominator = infinity negative) := by
  have hlimit : significandFor numerator denominator ≤ significandLimit := significandFor_le hpos
  have hfull := exponentFor_eq_zero_or_full numerator denominator
  rw [nearest_eq, ofSignificand]
  by_cases hfits : Canonical (significandFor numerator denominator)
      (exponentFor (numerator / denominator))
  · rw [dif_pos hfits]
    exact .inl ⟨hfits, rfl⟩
  rw [dif_neg hfits]
  have hnot : significandFor numerator denominator = significandLimit ∨
      2045 < exponentFor (numerator / denominator) := by
    by_contra hboth
    rw [not_or, Nat.not_lt] at hboth
    exact hfits ⟨Nat.lt_of_le_of_ne hlimit hboth.1, hboth.2, hfull⟩
  by_cases hcarry : Canonical (significandFor numerator denominator / 2)
      (exponentFor (numerator / denominator) + 1)
  · rw [dif_pos hcarry]
    have hsignificand : significandFor numerator denominator = significandLimit :=
      hnot.resolve_right (Nat.not_lt.mpr (Nat.le_of_succ_le hcarry.2.1))
    refine .inr (.inl ⟨hsignificand, ?_⟩)
    have hhalf : significandFor numerator denominator / 2 = leastFull := by
      rw [hsignificand]
      decide
    exact ⟨hhalf ▸ hcarry, by simp only [hhalf]⟩
  · rw [dif_neg hcarry]
    refine .inr (.inr ⟨?_, rfl⟩)
    rcases hnot with hsignificand | hlarge
    · refine Nat.lt_or_eq_of_le (Nat.le_of_not_lt fun hsmall => hcarry ?_) |>.imp id ?_
      · rw [hsignificand]
        exact ⟨by decide, hsmall, .inr (by decide)⟩
      · exact fun heq => ⟨heq.symm, hsignificand⟩
    · exact .inl hlarge

/-- Halfway between the largest number with the exponent after the given one and the power of two
above it, in units. -/
def halfwayUnits (exponent : Nat) : Nat := (2 * significandLimit - 1) * Nat.pow 2 exponent

theorem halfwayUnits_mul (exponent denominator : Nat) :
    halfwayUnits exponent * denominator =
      (2 * significandLimit - 1) * (denominator * Nat.pow 2 exponent) := by
  rw [halfwayUnits, Nat.mul_assoc, Nat.mul_comm _ denominator]

theorem mul_pow_succ (denominator exponent : Nat) :
    denominator * Nat.pow 2 (exponent + 1) = 2 * (denominator * Nat.pow 2 exponent) := by
  show denominator * (Nat.pow 2 exponent * 2) = _
  rw [← Nat.mul_assoc, Nat.mul_comm]

/-- Without a carry from the last exponent the quotient is below the halfway point: at that point
itself the tie goes to the carry. -/
theorem lt_halfwayUnits (hpos : 0 < denominator) {exponent : Nat}
    (h : exponentFor (numerator / denominator) ≤ exponent ∨
      exponentFor (numerator / denominator) = exponent + 1 ∧
        significandFor numerator denominator < significandLimit) :
    numerator < halfwayUnits exponent * denominator := by
  obtain ⟨-, hhigh, -, htie⟩ := isNearest_significandFor numerator hpos
  have hstepPos : 0 < denominator * Nat.pow 2 exponent := Nat.mul_pos hpos (Nat.two_pow_pos _)
  rw [halfwayUnits_mul]
  rcases h with hle | ⟨hlast, hfits⟩
  · have hstep : denominator * Nat.pow 2 (exponentFor (numerator / denominator)) ≤
        denominator * Nat.pow 2 exponent :=
      Nat.mul_le_mul_left _ (Nat.pow_le_pow_right (by decide) hle)
    have hlimit : significandFor numerator denominator ≤ significandLimit := significandFor_le hpos
    have hbound := Nat.mul_le_mul hlimit hstep
    dsimp only [significandLimit] at hbound ⊢
    omega
  · rw [hlast, mul_pow_succ] at hhigh htie
    generalize denominator * Nat.pow 2 exponent = step at *
    rcases Nat.lt_or_eq_of_le (Nat.le_sub_one_of_lt hfits) with hless | hequal
    · have hbound : (significandFor numerator denominator + 1) * (2 * step) ≤
          (significandLimit - 1) * (2 * step) := Nat.mul_le_mul_right _ hless
      rw [Nat.add_mul] at hbound
      dsimp only [significandLimit] at hbound ⊢
      omega
    · rw [hequal] at hhigh htie
      dsimp only [significandLimit] at hhigh htie ⊢
      omega

theorem halfwayUnits_le (hpos : 0 < denominator) {exponent : Nat}
    (h : exponent + 1 < exponentFor (numerator / denominator) ∨
      exponentFor (numerator / denominator) = exponent + 1 ∧
        significandFor numerator denominator = significandLimit) :
    halfwayUnits exponent * denominator ≤ numerator := by
  rcases h with hlarge | ⟨hlast, hcarry⟩
  · have hpower : Nat.pow 2 (exponent + 2) ≤
        Nat.pow 2 (exponentFor (numerator / denominator)) :=
      Nat.pow_le_pow_right (by decide) hlarge
    have hfour : Nat.pow 2 (exponent + 2) = 4 * Nat.pow 2 exponent := by
      show Nat.pow 2 exponent * 2 * 2 = _
      omega
    have hbelow : halfwayUnits exponent ≤
        leastFull * Nat.pow 2 (exponentFor (numerator / denominator)) := by
      refine Nat.le_trans ?_ (Nat.mul_le_mul_left _ hpower)
      rw [halfwayUnits, hfour]
      dsimp only [significandLimit, leastFull]
      omega
    refine (Nat.le_div_iff_mul_le hpos).mp (Nat.le_trans hbelow ?_)
    exact exponentFor_le_div (Nat.zero_lt_of_lt hlarge)
  · obtain ⟨hlow, -, -, -⟩ := isNearest_significandFor numerator hpos
    rw [hlast, hcarry, mul_pow_succ] at hlow
    rw [halfwayUnits_mul]
    dsimp only [significandLimit] at hlow ⊢
    omega

/-- A quotient rounds to an infinity from halfway above the largest finite number on, and otherwise
to the units and the parity of its rounded significand. -/
theorem nearest_finite_or_infinity (negative : Bool) (numerator : Nat) (hpos : 0 < denominator) :
    (halfwayUnits 2044 * denominator ≤ numerator ∧
      nearest negative numerator denominator = infinity negative) ∨
    numerator < halfwayUnits 2044 * denominator ∧ ∃ m e h,
      nearest negative numerator denominator = finite negative m e h ∧
      m * Nat.pow 2 e = roundedUnits numerator denominator ∧
      (significandFor numerator denominator % 2 = 0 → m % 2 = 0) := by
  rcases nearest_cases negative numerator hpos with
    ⟨hcanonical, heq⟩ | ⟨hcarry, hcanonical, heq⟩ | ⟨hover, heq⟩
  · refine .inr ⟨lt_halfwayUnits hpos ?_, _, _, hcanonical, heq, rfl, id⟩
    rcases Nat.lt_or_eq_of_le hcanonical.2.1 with hless | hlast
    · exact .inl (Nat.le_of_lt_succ hless)
    · exact .inr ⟨hlast, hcanonical.1⟩
  · refine .inr ⟨lt_halfwayUnits hpos (.inl (Nat.le_of_succ_le_succ hcanonical.2.1)), _, _,
      hcanonical, heq, ?_, fun _ => by decide⟩
    rw [roundedUnits, hcarry]
    exact (significandLimit_mul_pow _).symm
  · exact .inl ⟨halfwayUnits_le hpos hover, heq⟩

end

/-! ### Exact values -/

theorem unitsPerOne_pos : (0 : ℚ) < unitsPerOne := Nat.cast_pos.mpr zero_lt_unitsPerOne

theorem value_eq (x : Double) : x.value = signed x.isNegative (x.units / unitsPerOne) := by
  rw [value, signedUnits, signed]
  split
  · push_cast
    rw [neg_div]
  · push_cast
    rfl

theorem signed_zero (negative : Bool) : signed negative 0 = 0 := by
  cases negative with
  | false => rfl
  | true => exact neg_zero

theorem units_zero (negative : Bool) : (zero negative).units = 0 := Nat.zero_mul _

theorem abs_signed_sub_signed (negative : Bool) (a b : ℚ) :
    |signed negative a - signed negative b| = |a - b| := by
  cases negative with
  | false => rfl
  | true =>
    rw [signed, signed, if_pos rfl, if_pos rfl, neg_sub_neg, abs_sub_comm]

theorem abs_signed (negative : Bool) {a : ℚ} (h : 0 ≤ a) : |signed negative a| = a := by
  have habs := abs_signed_sub_signed negative a 0
  rwa [signed_zero, sub_zero, sub_zero, abs_of_nonneg h] at habs

theorem abs_value (x : Double) : |x.value| = x.units / unitsPerOne := by
  rw [value_eq]
  exact abs_signed _ (div_nonneg (Nat.cast_nonneg _) unitsPerOne_pos.le)

/-- Another sign never brings two magnitudes closer, and leaves them as close only around zero. -/
theorem abs_sub_le_abs_signed_sub_signed (negative negative' : Bool) {a b : ℚ} (ha : 0 ≤ a)
    (hb : 0 ≤ b) :
    |a - b| ≤ |signed negative a - signed negative' b| ∧
      (|signed negative a - signed negative' b| = |a - b| →
        negative = negative' ∨ a = 0 ∨ b = 0) := by
  by_cases hsign : negative = negative'
  · rw [hsign, abs_signed_sub_signed]
    exact ⟨le_refl _, fun _ => .inl rfl⟩
  have hapart : |signed negative a - signed negative' b| = a + b := by
    cases negative with
    | false =>
      rw [Bool.eq_true_of_not_eq_false (Ne.symm hsign)]
      show |a - (-b)| = a + b
      rw [sub_neg_eq_add, abs_of_nonneg (add_nonneg ha hb)]
    | true =>
      rw [Bool.eq_false_of_not_eq_true (Ne.symm hsign)]
      show |(-a) - b| = a + b
      rw [← neg_add', abs_neg, abs_of_nonneg (add_nonneg ha hb)]
  rw [hapart]
  refine ⟨abs_sub_le_iff.mpr ⟨by linarith, by linarith⟩, fun heq => .inr ?_⟩
  rcases le_total a b with hle | hle
  · rw [abs_of_nonpos (sub_nonpos.mpr hle)] at heq
    exact .inl (by linarith)
  · rw [abs_of_nonneg (sub_nonneg.mpr hle)] at heq
    exact .inr (by linarith)

section

variable {numerator denominator : Nat}

/-- The exact magnitude of a quotient of units. -/
def exactMagnitude (numerator denominator : Nat) : ℚ := numerator / denominator / unitsPerOne

theorem exactMagnitude_nonneg (numerator denominator : Nat) :
    0 ≤ exactMagnitude numerator denominator :=
  div_nonneg (div_nonneg (Nat.cast_nonneg _) (Nat.cast_nonneg _)) unitsPerOne_pos.le

theorem abs_sub_exactMagnitude (hpos : 0 < denominator) (n : Nat) :
    |(n : ℚ) / unitsPerOne - exactMagnitude numerator denominator| =
      gap numerator denominator n / (denominator * unitsPerOne) := by
  have hone := unitsPerOne_pos
  have hden : (0 : ℚ) < denominator := by exact_mod_cast hpos
  have hscale : (0 : ℚ) < denominator * unitsPerOne := mul_pos hden hone
  have hdifference : (n : ℚ) / unitsPerOne - exactMagnitude numerator denominator =
      (n * denominator - numerator) / (denominator * unitsPerOne) := by
    rw [exactMagnitude]
    field_simp
  have hgap : (gap numerator denominator n : ℚ) = |(n : ℚ) * denominator - numerator| := by
    rw [gap, Nat.cast_natAbs]
    push_cast
    rfl
  rw [hdifference, abs_div, abs_of_pos hscale, hgap]

theorem halfwayUnits_add (above below : Nat) {scale : Nat} (hscale : scale = Nat.pow 2 below) :
    (halfwayUnits (above + below) : ℚ) = (2 ^ (54 + above) - 2 ^ above) * scale := by
  have hunits : halfwayUnits (above + below) = (2 * significandLimit - 1) * (2 ^ above * scale) := by
    rw [hscale]
    exact congrArg ((2 * significandLimit - 1) * ·) (Nat.pow_add 2 above below)
  have hsteps : ((2 * significandLimit - 1 : Nat) : ℚ) = 2 ^ 54 - 1 := by
    norm_num
  rw [hunits, Nat.cast_mul, Nat.cast_mul, hsteps, pow_add, Nat.cast_pow, Nat.cast_ofNat]
  ring

theorem halfwayUnits_value : (halfwayUnits 2044 : ℚ) = (2 ^ 1024 - 2 ^ 970) * unitsPerOne :=
  halfwayUnits_add 970 1074 rfl

theorem halfwayUnits_le_iff (hpos : 0 < denominator) :
    halfwayUnits 2044 * denominator ≤ numerator ↔
      2 ^ 1024 - 2 ^ 970 ≤ exactMagnitude numerator denominator := by
  have hden : (0 : ℚ) < denominator := by exact_mod_cast hpos
  rw [exactMagnitude, le_div_iff₀ unitsPerOne_pos, ← halfwayUnits_value, le_div_iff₀ hden]
  exact_mod_cast Iff.rfl

/-- Among the magnitudes of all numbers, the one rounded to is the closest. -/
theorem abs_roundedUnits_sub_le (numerator : Nat) (hpos : 0 < denominator) (y : Double) :
    |(roundedUnits numerator denominator : ℚ) / unitsPerOne -
          exactMagnitude numerator denominator| ≤
        |(y.units : ℚ) / unitsPerOne - exactMagnitude numerator denominator| ∧
      (|(y.units : ℚ) / unitsPerOne - exactMagnitude numerator denominator| =
          |(roundedUnits numerator denominator : ℚ) / unitsPerOne -
            exactMagnitude numerator denominator| →
        y.units = roundedUnits numerator denominator ∨
          significandFor numerator denominator % 2 = 0) := by
  obtain ⟨hle, htie⟩ := gap_roundedUnits_le numerator hpos y
  have hscale : (0 : ℚ) < denominator * unitsPerOne :=
    mul_pos (by exact_mod_cast hpos) unitsPerOne_pos
  rw [abs_sub_exactMagnitude hpos, abs_sub_exactMagnitude hpos]
  refine ⟨div_le_div_of_nonneg_right (by exact_mod_cast hle) hscale.le, fun heq => htie ?_⟩
  exact_mod_cast (div_left_inj' hscale.ne').mp heq

/-- A number of the sign and the magnitude that a quotient is rounded to is closest to it. -/
theorem isClosest_of_roundedUnits (hpos : 0 < denominator) {negative : Bool} {m e : Nat}
    {h : Canonical m e} (hunits : m * Nat.pow 2 e = roundedUnits numerator denominator)
    (heven : significandFor numerator denominator % 2 = 0 → m % 2 = 0) :
    (finite negative m e h).IsClosest (signed negative (exactMagnitude numerator denominator)) := by
  have hexact := exactMagnitude_nonneg numerator denominator
  have hvalue : (finite negative m e h).value =
      signed negative ((roundedUnits numerator denominator : ℚ) / unitsPerOne) := by
    rw [value_eq, ← hunits]
    rfl
  refine ⟨negative, m, e, h, rfl, fun y _ => ?_⟩
  obtain ⟨hle, htie⟩ := abs_roundedUnits_sub_le numerator hpos y
  have hy : 0 ≤ (y.units : ℚ) / unitsPerOne := div_nonneg (Nat.cast_nonneg _) unitsPerOne_pos.le
  obtain ⟨hsigned, hsign⟩ := abs_sub_le_abs_signed_sub_signed y.isNegative negative hy hexact
  rw [hvalue, value_eq y, abs_signed_sub_signed]
  refine ⟨hle.trans hsigned, fun heq => ?_⟩
  have hmagnitude := le_antisymm (heq ▸ hsigned) hle
  refine (htie hmagnitude).imp (fun hsame => ?_) heven
  rw [hsame] at hsign heq hmagnitude ⊢
  -- Another sign is as close only around zero, and there both are zero.
  rcases hsign heq with hsame' | hzero | hzero
  · rw [hsame']
  · rw [hzero, signed_zero, signed_zero]
  · have hbest := (abs_roundedUnits_sub_le numerator hpos (zero false)).1
    rw [hzero, units_zero, Nat.cast_zero, zero_div, sub_zero, sub_zero, abs_zero,
      abs_nonpos_iff] at hbest
    rw [hbest, signed_zero, signed_zero]

theorem isNegative_nearest (negative : Bool) (numerator denominator : Nat) :
    (nearest negative numerator denominator).isNegative = negative := by
  rw [nearest_eq, ofSignificand]
  split
  · rfl
  split <;> rfl

/-- Rounding a quotient gives the nearest number. -/
theorem isRounded_nearest (negative : Bool) (numerator : Nat) (hpos : 0 < denominator) :
    IsRounded negative (exactMagnitude numerator denominator)
      (nearest negative numerator denominator) := by
  refine ⟨isNegative_nearest negative numerator denominator, ?_, ?_⟩
  · intro hover
    rcases nearest_finite_or_infinity negative numerator hpos with
      ⟨-, heq⟩ | ⟨hbelow, -⟩
    · exact heq
    · exact absurd ((halfwayUnits_le_iff hpos).mpr hover) (Nat.not_le.mpr hbelow)
  · intro hbelow
    rcases nearest_finite_or_infinity negative numerator hpos with
      ⟨hover, -⟩ | ⟨-, m, e, h, heq, hunits, heven⟩
    · exact absurd ((halfwayUnits_le_iff hpos).mp hover) (not_le.mpr hbelow)
    · rw [heq]
      exact isClosest_of_roundedUnits hpos hunits heven

end

/-! ### Decimals -/

theorem exactMagnitude_decimal (decimal : Decimal) :
    exactMagnitude (decimal.digits * Nat.pow 10 decimal.exponent.toNat * unitsPerOne)
      (Nat.pow 10 (-decimal.exponent).toNat) = decimal.value := by
  rw [exactMagnitude, Nat.cast_mul, div_div, mul_div_mul_right _ _ unitsPerOne_pos.ne',
    Decimal.value, zpow_eq_div, Nat.cast_mul, mul_div_assoc]
  rfl

/-- A decimal reads as the number nearest to what it stands for. -/
theorem isRounded_read (negative : Bool) (decimal : Decimal) :
    IsRounded negative decimal.value (decimal.read negative) := by
  rw [← exactMagnitude_decimal, Decimal.read, ofDecimal_eq]
  exact isRounded_nearest negative _ (Nat.pow_pos (by decide))

theorem eq_zero_of_units_eq_zero {negative : Bool} {m e : Nat} {h : Canonical m e}
    (hunits : (finite negative m e h).units = 0) : finite negative m e h = zero negative := by
  obtain rfl : m = 0 := (Nat.mul_eq_zero.mp hunits).resolve_right (Nat.two_pow_pos e).ne'
  obtain rfl : e = 0 := h.2.2.resolve_right (by decide)
  rfl

theorem one_le_pow_sub_pow (n : Nat) : (1 : ℚ) ≤ 2 ^ (54 + n) - 2 ^ n := by
  have hpower : (1 : ℚ) ≤ 2 ^ n := one_le_pow₀ one_le_two
  rw [pow_add]
  linarith

/-- What is less than half a unit away from zero is nearest to it. -/
theorem IsRounded.eq_zero {negative : Bool} {magnitude : ℚ} {x : Double}
    (h : x.IsRounded negative magnitude) (hnonneg : 0 ≤ magnitude)
    (hsmall : 2 * magnitude * unitsPerOne < 1) : x = zero negative := by
  have hunit : (1 : ℚ) ≤ unitsPerOne := Nat.one_le_cast.mpr zero_lt_unitsPerOne
  have hone : magnitude < 1 := by nlinarith
  obtain ⟨negative', m, e, hcanonical, rfl, hbest⟩ :=
    h.closest (hone.trans_le (one_le_pow_sub_pow 970))
  obtain rfl : negative' = negative := h.sign
  have hle := (hbest (zero negative') rfl).1
  rw [value_eq, value_eq, units_zero, Nat.cast_zero, zero_div] at hle
  change |signed negative' _ - signed negative' _| ≤ |signed negative' _ - signed negative' _| at hle
  rw [abs_signed_sub_signed, abs_signed_sub_signed, zero_sub, abs_neg, abs_of_nonneg hnonneg] at hle
  have hdouble : ((finite negative' m e hcanonical).units : ℚ) / unitsPerOne ≤ 2 * magnitude := by
    linarith [(abs_le.mp hle).2]
  rw [div_le_iff₀ unitsPerOne_pos] at hdouble
  have hunits : (finite negative' m e hcanonical).units < 1 := by
    exact_mod_cast hdouble.trans_lt hsmall
  exact eq_zero_of_units_eq_zero (Nat.lt_one_iff.mp hunits)

theorem IsRounded.zero {negative : Bool} {x : Double} (h : x.IsRounded negative 0) :
    x = Double.zero negative := by
  refine h.eq_zero le_rfl ?_
  rw [mul_zero, zero_mul]
  exact zero_lt_one

/-! ### One number only -/

/-- Between two numbers with even significands there is another. -/
theorem exists_between_of_even (negative : Bool) {m e m' e' : Nat} (h : Canonical m e)
    (h' : Canonical m' e') (heven : m % 2 = 0) (heven' : m' % 2 = 0)
    (hless : m * Nat.pow 2 e < m' * Nat.pow 2 e') :
    ∃ y : Double, y.isFinite = true ∧ y.isNegative = negative ∧
      m * Nat.pow 2 e < y.units ∧ y.units < m' * Nat.pow 2 e' := by
  have hpower : 0 < Nat.pow 2 e := Nat.two_pow_pos e
  obtain ⟨hlimit, hexponent, hfull⟩ := h
  have hnext : Canonical (m + 1) e := by
    refine ⟨?_, hexponent, hfull.imp_right Nat.le_succ_of_le⟩
    dsimp only [significandLimit] at hlimit ⊢
    omega
  refine ⟨finite negative (m + 1) e hnext, rfl, rfl, ?_, ?_⟩
  · exact Nat.mul_lt_mul_of_pos_right (Nat.lt_succ_self m) hpower
  · by_contra hnot
    rcases Nat.lt_or_eq_of_le (Nat.le_of_not_lt hnot) with hbelow | hequal
    · change m' * Nat.pow 2 e' < (m + 1) * Nat.pow 2 e at hbelow
      rcases Nat.lt_or_ge e' e with hsmaller | hlarger
      · have hless' : m' * Nat.pow 2 e' < m * Nat.pow 2 e :=
          Nat.lt_of_lt_of_le (mul_pow_lt_leastFull h'.1 hsmaller)
            (Nat.mul_le_mul_right _ (hfull.resolve_left (by omega)))
        exact absurd hless (Nat.lt_asymm hless')
      · rw [mul_pow_of_le m' hlarger] at hless hbelow
        have hover := Nat.lt_of_mul_lt_mul_right hless
        have hunder := Nat.lt_of_mul_lt_mul_right hbelow
        omega
    · obtain ⟨hsignificand, -⟩ := eq_of_units_eq hnext h' hequal.symm
      omega

theorem abs_sub_lt_of_between {a b c q : ℚ} (htie : |a - q| = |b - q|) (hac : a < c)
    (hcb : c < b) : |c - q| < |a - q| := by
  rcases abs_eq_abs.mp htie with hsame | hopposite
  · linarith
  · have hbelow : a - q < 0 := by linarith
    rw [abs_of_neg hbelow, abs_lt]
    constructor <;> linarith

theorem abs_value_sub_signed {x : Double} {negative : Bool} (hsign : x.isNegative = negative)
    (magnitude : ℚ) : |x.value - signed negative magnitude| =
      |(x.units : ℚ) / unitsPerOne - magnitude| := by
  rw [value_eq, hsign, abs_signed_sub_signed]

theorem units_lt_iff {x y : Double} :
    (x.units : ℚ) / unitsPerOne < y.units / unitsPerOne ↔ x.units < y.units := by
  rw [div_lt_div_iff_of_pos_right unitsPerOne_pos, Nat.cast_lt]

/-- Of two numbers of the same sign as close to an exact value as any, neither is the larger: both
would have even significands. -/
theorem not_units_lt_of_isClosest {negative : Bool} {magnitude : ℚ} {x y : Double}
    (hsign : x.isNegative = negative) (hsign' : y.isNegative = negative)
    (hclosest : x.IsClosest (signed negative magnitude))
    (hclosest' : y.IsClosest (signed negative magnitude)) : ¬ x.units < y.units := by
  intro hless
  obtain ⟨n, m, e, h, rfl, hbest⟩ := hclosest
  obtain ⟨n', m', e', h', rfl, hbest'⟩ := hclosest'
  obtain ⟨hle, htie⟩ := hbest (finite n' m' e' h') rfl
  obtain ⟨hle', htie'⟩ := hbest' (finite n m e h) rfl
  have hsame := le_antisymm hle hle'
  have hvalues : (finite n m e h).value ≠ (finite n' m' e' h').value := by
    intro hequal
    have hunits := congrArg abs hequal
    rw [abs_value, abs_value] at hunits
    exact absurd (units_lt_iff.mpr hless) (not_lt.mpr hunits.ge)
  obtain ⟨z, hfinite, hsignz, habove, hbelow⟩ := exists_between_of_even negative h h'
    ((htie hsame.symm).resolve_left hvalues.symm) ((htie' hsame).resolve_left hvalues) hless
  have hbetween := (hbest z hfinite).1
  rw [abs_value_sub_signed hsign, abs_value_sub_signed hsignz] at hbetween
  rw [abs_value_sub_signed hsign, abs_value_sub_signed hsign'] at hsame
  exact absurd hbetween (not_le.mpr (abs_sub_lt_of_between hsame (units_lt_iff.mpr habove)
    (units_lt_iff.mpr hbelow)))

/-- An exact value rounds to one number only. -/
theorem IsRounded.unique {negative : Bool} {magnitude : ℚ} {x y : Double}
    (hx : x.IsRounded negative magnitude) (hy : y.IsRounded negative magnitude) : x = y := by
  rcases lt_or_ge magnitude (2 ^ 1024 - 2 ^ 970) with hbelow | hover
  · have hclosest := hx.closest hbelow
    have hclosest' := hy.closest hbelow
    have hunits : x.units = y.units := Nat.le_antisymm
      (Nat.le_of_not_lt (not_units_lt_of_isClosest hy.sign hx.sign hclosest' hclosest))
      (Nat.le_of_not_lt (not_units_lt_of_isClosest hx.sign hy.sign hclosest hclosest'))
    obtain ⟨n, m, e, h, rfl, -⟩ := hclosest
    obtain ⟨n', m', e', h', rfl, -⟩ := hclosest'
    obtain ⟨rfl, rfl⟩ := eq_of_units_eq h h' hunits
    obtain rfl : n = n' := hx.sign.trans hy.sign.symm
    rfl
  · rw [hx.overflow hover, hy.overflow hover]

end Reckoner.Double
