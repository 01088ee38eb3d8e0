import Reckoner.Proofs.Double.Nearest

/-!
# No decimal with fewer digits

What reads back to a number lies between its two ends, and so does everything in between. Around the
number there are two multiples of a power of ten, and if any multiple reads back, one of these does;
so the search down the powers of ten stops at the largest that has a multiple at all. A decimal with
fewer digits would be a multiple of no larger a power, hence start at a lower place, and between it
and what was found there would be a power of ten itself. One with as many digits is a multiple of the
same power, where the nearest was taken, but for a single number of two units.
-/

namespace Reckoner.Double

section

variable {numerator denominator m e : Nat}

/-! ### What is rounded to a number -/

theorem roundsTo_of_bounds (hlow : lowerEnd m e * denominator ≤ numerator)
    (hhigh : numerator ≤ upperEnd m * denominator)
    (hstrict : m % 2 = 0 ∨ lowerEnd m e * denominator < numerator ∧
      numerator < upperEnd m * denominator) : roundsTo m e numerator denominator = true := by
  rw [roundsTo]
  split
  · simp [hlow, hhigh]
  · next hodd =>
    obtain ⟨hlow', hhigh'⟩ := hstrict.resolve_left hodd
    simp [hlow', hhigh']

theorem lowerEnd_of_not_leastFull (h : ¬ (m = leastFull ∧ e ≠ 0)) : lowerEnd m e = 4 * m - 2 :=
  if_neg h

/-- Without a carry the significand is the nearest whole number of steps, and at least the least
full one. -/
theorem roundsTo_of_isNearest (h : IsNearest numerator denominator m)
    (hfull : m = leastFull → e ≠ 0 → leastFull * denominator ≤ numerator) :
    roundsTo m e (4 * numerator) denominator = true := by
  obtain ⟨hlow, hhigh, hlowTie, hhighTie⟩ := h
  have hupper : upperEnd m * denominator = 4 * (m * denominator) + 2 * denominator := by
    rw [upperEnd, Nat.add_mul, Nat.mul_assoc]
  by_cases hleast : m = leastFull ∧ e ≠ 0
  · obtain ⟨rfl, hexponent⟩ := hleast
    have heven : leastFull % 2 = 0 := by decide
    have hlower : lowerEnd leastFull e * denominator ≤ 4 * (leastFull * denominator) := by
      rw [lowerEnd, if_pos ⟨rfl, hexponent⟩, ← Nat.mul_assoc]
      exact Nat.mul_le_mul_right _ (Nat.sub_le _ _)
    have hover := hfull rfl hexponent
    exact roundsTo_of_bounds (by omega) (by omega) (.inl heven)
  · have hlower : lowerEnd m e * denominator = 4 * (m * denominator) - 2 * denominator := by
      rw [lowerEnd_of_not_leastFull hleast, Nat.sub_mul, Nat.mul_assoc]
    refine roundsTo_of_bounds (by omega) (by omega) ?_
    rcases Nat.mod_two_eq_zero_or_one m with heven | hodd
    · exact .inl heven
    · have hstep : denominator ≤ m * denominator := Nat.le_mul_of_pos_left _ (by omega)
      refine .inr ⟨?_, ?_⟩
      · omega
      · omega

/-- After a carry the step is half as long as that of the number, and the quotient below it. -/
theorem roundsTo_of_carry {step : Nat} (h : IsNearest numerator step significandLimit)
    (hbelow : numerator ≤ significandLimit * step) :
    roundsTo leastFull (e + 1) (4 * numerator) (2 * step) = true := by
  have hlow := h.low
  have heven : leastFull % 2 = 0 := by decide
  refine roundsTo_of_bounds ?_ ?_ (.inl heven)
  · rw [lowerEnd_leastFull]
    dsimp only [significandLimit, leastFull] at hlow ⊢
    omega
  · dsimp only [significandLimit, upperEnd, leastFull] at hbelow ⊢
    omega

/-- What is rounded to a number lies between its two ends. -/
theorem roundsTo_of_nearest {negative : Bool} {hcanonical : Canonical m e} (hpos : 0 < denominator)
    (hnearest : nearest negative numerator denominator = finite negative m e hcanonical) :
    roundsTo m e (4 * numerator) (denominator * Nat.pow 2 e) = true := by
  have hstep := isNearest_significandFor numerator hpos
  rcases nearest_cases negative numerator hpos with
    ⟨hfits, heq⟩ | ⟨hcarry, hfits, heq⟩ | ⟨-, heq⟩
  · rw [hnearest] at heq
    obtain ⟨-, hsignificand, hexponent⟩ := finite.inj heq
    rw [← hsignificand, ← hexponent] at hstep
    refine roundsTo_of_isNearest hstep fun hfull hpositive => ?_
    rw [hexponent] at hpositive ⊢
    have hover : leastFull * Nat.pow 2 (exponentFor (numerator / denominator)) ≤
        numerator / denominator := exponentFor_le_div (Nat.pos_of_ne_zero hpositive)
    rw [Nat.le_div_iff_mul_le hpos] at hover
    rwa [Nat.mul_assoc, Nat.mul_comm (Nat.pow 2 _)] at hover
  · rw [hnearest] at heq
    obtain ⟨-, rfl, rfl⟩ := finite.inj heq
    rw [hcarry] at hstep
    rw [mul_pow_succ]
    refine roundsTo_of_carry hstep (Nat.le_of_lt ?_)
    have hbelow := (Nat.div_lt_iff_lt_mul hpos).mp (div_lt_exponentFor numerator denominator)
    rwa [Nat.mul_assoc, Nat.mul_comm (Nat.pow 2 _)] at hbelow
  · rw [hnearest] at heq
    cases heq

end

/-! ### Decimals that read back -/

/-- The decimal lies between the two ends of `m * 2 ^ e` units. -/
def Decimal.ReadsAs (decimal : Decimal) (m e : Nat) : Prop :=
  roundsTo m e (decimal.digits * (4 * unitsPerOne * Nat.pow 10 decimal.exponent.toNat))
    (Nat.pow 2 e * Nat.pow 10 (-decimal.exponent).toNat) = true

theorem readsAs_iff (negative : Bool) {m e : Nat} (hcanonical : Canonical m e)
    {decimal : Decimal} :
    decimal.ReadsAs m e ↔ decimal.read negative = finite negative m e hcanonical := by
  have hpower : 0 < Nat.pow 10 (-decimal.exponent).toNat := Nat.pow_pos (by decide)
  have hnumerator : decimal.digits * (4 * unitsPerOne * Nat.pow 10 decimal.exponent.toNat) =
      4 * (decimal.digits * Nat.pow 10 decimal.exponent.toNat * unitsPerOne) := by ring
  rw [Decimal.ReadsAs, Decimal.read, ofDecimal_eq, hnumerator, Nat.mul_comm (Nat.pow 2 e)]
  exact ⟨nearest_of_roundsTo negative hcanonical hpower, roundsTo_of_nearest hpower⟩

/-- The number itself, as a decimal. -/
def ownDecimal (m e : Nat) : Decimal := ⟨m * Nat.pow 2 e * Nat.pow 5 1074, -1074⟩

theorem value_ownDecimal (m e : Nat) :
    (ownDecimal m e).value = ((m * Nat.pow 2 e : Nat) : ℚ) / unitsPerOne := by
  have hnone : Nat.pow 10 (-1074 : Int).toNat = 1 := rfl
  have hone := unitsPerOne_pos.ne'
  rw [ownDecimal, Decimal.value, zpow_eq_div, ← Nat.pow_eq, ← Nat.pow_eq,
    pow_ten_eq_mul_unitsPerOne, hnone]
  have hfives : ∀ k, ((Nat.pow 5 k : Nat) : ℚ) ≠ 0 :=
    fun k => Nat.cast_ne_zero.mpr (Nat.pow_pos (by decide)).ne'
  have hfive := hfives 1074
  push_cast at hfive ⊢
  field_simp

section

variable {m e : Nat} (hcanonical : Canonical m e)

include hcanonical

theorem readsAs_ownDecimal : (ownDecimal m e).ReadsAs m e :=
  (readsAs_iff false hcanonical).mpr (read_of_searchDown false hcanonical 0 0)

/-- What lies between two decimals that read back reads back. -/
theorem Decimal.ReadsAs.between {low decimal high : Decimal} (hlow : low.ReadsAs m e)
    (hhigh : high.ReadsAs m e) (hle : low.value ≤ decimal.value)
    (hle' : decimal.value ≤ high.value) : decimal.ReadsAs m e := by
  rw [readsAs_iff false hcanonical] at hlow hhigh ⊢
  have hbelow : high.value < 2 ^ 1024 - 2 ^ 970 := by
    by_contra hover
    have hinfinite := (isRounded_read false high).overflow (not_lt.mp hover)
    rw [hhigh] at hinfinite
    cases hinfinite
  have hrounded := isRounded_read false decimal
  obtain ⟨negative, m', e', h', heq, -⟩ := hrounded.closest (hle'.trans_lt hbelow)
  have hsign := hrounded.sign
  rw [heq] at hsign
  obtain rfl : negative = false := hsign
  have hunits := units_read_le false false (by rw [hlow]; rfl) (by rw [heq]; rfl) hle
  have hunits' := units_read_le false false (by rw [heq]; rfl) (by rw [hhigh]; rfl) hle'
  rw [heq, hlow] at hunits
  rw [heq, hhigh] at hunits'
  obtain ⟨rfl, rfl⟩ := eq_of_units_eq hcanonical h' (Nat.le_antisymm hunits hunits')
  exact heq

end

/-! ### Multiples of a power of ten -/

section

variable (m e : Nat) (x : Int)

/-- The number in quarters of a unit, scaled so that powers of ten are whole. -/
def scaledUnits : Nat := 4 * m * Nat.pow 2 e * Nat.pow 10 (-x).toNat

/-- The power of ten on the same scale. -/
def scaledPower : Nat := 4 * unitsPerOne * Nat.pow 10 x.toNat

/-- The multiple of the power of ten at the number or next below it. -/
def multipleBelow : Nat := scaledUnits m e x / scaledPower x

theorem scaledPower_pos : 0 < scaledPower x :=
  Nat.mul_pos (Nat.mul_pos (by decide) zero_lt_unitsPerOne) (Nat.pow_pos (by decide))

theorem value_multiple_sub (c : Nat) :
    (⟨c, x⟩ : Decimal).value - (ownDecimal m e).value =
      ((c * scaledPower x : Nat) - scaledUnits m e x) /
        (4 * unitsPerOne * Nat.pow 10 (-x).toNat : Nat) := by
  have hone := unitsPerOne_pos.ne'
  have hpower : ((Nat.pow 10 (-x).toNat : Nat) : ℚ) ≠ 0 :=
    Nat.cast_ne_zero.mpr (Nat.pow_pos (by decide)).ne'
  rw [value_ownDecimal, Decimal.value, zpow_eq_div, scaledPower, scaledUnits]
  simp only [Nat.pow_eq] at hpower ⊢
  push_cast at hpower ⊢
  generalize (unitsPerOne : ℚ) = one at *
  field_simp

theorem scale_pos : (0 : ℚ) < (4 * unitsPerOne * Nat.pow 10 (-x).toNat : Nat) := by
  have hpos : 0 < 4 * unitsPerOne * Nat.pow 10 (-x).toNat :=
    Nat.mul_pos (Nat.mul_pos (by decide) zero_lt_unitsPerOne) (Nat.pow_pos (by decide))
  exact_mod_cast hpos

theorem value_multiple_le_iff (c : Nat) :
    (⟨c, x⟩ : Decimal).value ≤ (ownDecimal m e).value ↔ c * scaledPower x ≤ scaledUnits m e x := by
  rw [← sub_nonpos, value_multiple_sub, div_le_iff₀ (scale_pos x), zero_mul, sub_nonpos,
    Nat.cast_le]

theorem abs_multiple_sub (c : Nat) :
    |(⟨c, x⟩ : Decimal).value - (ownDecimal m e).value| =
      gap (scaledUnits m e x) (scaledPower x) c /
        (4 * unitsPerOne * Nat.pow 10 (-x).toNat : Nat) := by
  have hgap : (gap (scaledUnits m e x) (scaledPower x) c : ℚ) =
      |((c * scaledPower x : Nat) : ℚ) - scaledUnits m e x| := by
    rw [gap, Nat.cast_natAbs]
    push_cast
    rfl
  rw [value_multiple_sub, abs_div, abs_of_pos (scale_pos x), hgap]

theorem abs_multiple_sub_le_iff (c c' : Nat) :
    |(⟨c, x⟩ : Decimal).value - (ownDecimal m e).value| ≤
        |(⟨c', x⟩ : Decimal).value - (ownDecimal m e).value| ↔
      gap (scaledUnits m e x) (scaledPower x) c ≤
        gap (scaledUnits m e x) (scaledPower x) c' := by
  rw [abs_multiple_sub, abs_multiple_sub, div_le_div_iff_of_pos_right (scale_pos x), Nat.cast_le]

theorem value_multiple_mono {c c' : Nat} (h : c ≤ c') :
    (⟨c, x⟩ : Decimal).value ≤ (⟨c', x⟩ : Decimal).value :=
  mul_le_mul_of_nonneg_right (Nat.cast_le.mpr h) (zpow_nonneg (by decide) x)

variable {m e x} (hcanonical : Canonical m e) {c : Nat}

include hcanonical

/-- Where a multiple at the number or below it reads back, the last of them does. -/
theorem readsAs_multipleBelow (h : (⟨c, x⟩ : Decimal).ReadsAs m e) (hle : c ≤ multipleBelow m e x) :
    (⟨multipleBelow m e x, x⟩ : Decimal).ReadsAs m e ∧
      gap (scaledUnits m e x) (scaledPower x) (multipleBelow m e x) ≤
        gap (scaledUnits m e x) (scaledPower x) c := by
  have hbelow : multipleBelow m e x * scaledPower x ≤ scaledUnits m e x := Nat.div_mul_le_self _ _
  refine ⟨h.between hcanonical (readsAs_ownDecimal hcanonical) (value_multiple_mono x hle)
    ((value_multiple_le_iff m e x _).mpr hbelow), ?_⟩
  have hmul := Nat.mul_le_mul_right (scaledPower x) hle
  rw [gap, gap]
  omega

/-- Where a multiple above the number reads back, the first of them does. -/
theorem readsAs_multipleAbove (h : (⟨c, x⟩ : Decimal).ReadsAs m e) (hlt : multipleBelow m e x < c) :
    (⟨multipleBelow m e x + 1, x⟩ : Decimal).ReadsAs m e ∧
      gap (scaledUnits m e x) (scaledPower x) (multipleBelow m e x + 1) ≤
        gap (scaledUnits m e x) (scaledPower x) c := by
  have habove : scaledUnits m e x < (multipleBelow m e x + 1) * scaledPower x := by
    rw [Nat.mul_comm]
    exact Nat.lt_mul_div_succ _ (scaledPower_pos x)
  have hvalue : (ownDecimal m e).value ≤ (⟨multipleBelow m e x + 1, x⟩ : Decimal).value := by
    by_contra hnot
    exact absurd ((value_multiple_le_iff m e x _).mp (le_of_not_ge hnot)) (Nat.not_le.mpr habove)
  refine ⟨(readsAs_ownDecimal hcanonical).between hcanonical h hvalue (value_multiple_mono x hlt), ?_⟩
  have hmul : (multipleBelow m e x + 1) * scaledPower x ≤ c * scaledPower x :=
    Nat.mul_le_mul_right _ hlt
  rw [gap, gap]
  omega

omit hcanonical in
/-- The nearer of the two neighbours comes first, and then the other. -/
theorem roundDiv_neighbours (numerator denominator : Nat) :
    (roundDiv numerator denominator = numerator / denominator ∧
        2 * (numerator / denominator) + 1 - roundDiv numerator denominator =
          numerator / denominator + 1) ∨
      (roundDiv numerator denominator = numerator / denominator + 1 ∧
        2 * (numerator / denominator) + 1 - roundDiv numerator denominator =
          numerator / denominator) := by
  unfold roundDiv
  dsimp only
  split
  · omega
  split
  · omega
  · omega

omit hcanonical in
/-- Of the two neighbours the nearer is tried first. -/
theorem multipleAt?_cases (m e : Nat) (x : Int) :
    ((⟨roundDiv (scaledUnits m e x) (scaledPower x), x⟩ : Decimal).ReadsAs m e ∧
        multipleAt? m e x = some (roundDiv (scaledUnits m e x) (scaledPower x))) ∨
      ¬ (⟨roundDiv (scaledUnits m e x) (scaledPower x), x⟩ : Decimal).ReadsAs m e ∧
      (((⟨2 * multipleBelow m e x + 1 - roundDiv (scaledUnits m e x) (scaledPower x), x⟩ :
            Decimal).ReadsAs m e ∧
          multipleAt? m e x =
            some (2 * multipleBelow m e x + 1 - roundDiv (scaledUnits m e x) (scaledPower x))) ∨
        (¬ (⟨2 * multipleBelow m e x + 1 - roundDiv (scaledUnits m e x) (scaledPower x), x⟩ :
            Decimal).ReadsAs m e ∧ multipleAt? m e x = none)) := by
  simp only [Decimal.ReadsAs, multipleBelow, scaledUnits, scaledPower, multipleAt?]
  split
  · next hnear => exact .inl ⟨hnear, rfl⟩
  next hnear =>
  split
  · next hfar => exact .inr ⟨hnear, .inl ⟨hfar, rfl⟩⟩
  · next hfar => exact .inr ⟨hnear, .inr ⟨hfar, rfl⟩⟩

/-- The search at one power of ten finds the nearest multiple that reads back, if there is one. -/
theorem multipleAt?_spec (x : Int) :
    (∃ c, multipleAt? m e x = some c ∧ ∀ other, (⟨other, x⟩ : Decimal).ReadsAs m e →
        |(⟨c, x⟩ : Decimal).value - (ownDecimal m e).value| ≤
          |(⟨other, x⟩ : Decimal).value - (ownDecimal m e).value|) ∨
      (multipleAt? m e x = none ∧ ∀ other, ¬ (⟨other, x⟩ : Decimal).ReadsAs m e) := by
  have hnearest : IsNearest (scaledUnits m e x) (scaledPower x)
      (roundDiv (scaledUnits m e x) (scaledPower x)) := isNearest_roundDiv (scaledPower_pos x)
  have hneighbours := roundDiv_neighbours (scaledUnits m e x) (scaledPower x)
  have hsearch := multipleAt?_cases m e x
  rw [← multipleBelow] at hneighbours
  generalize roundDiv (scaledUnits m e x) (scaledPower x) = near at *
  generalize 2 * multipleBelow m e x + 1 - near = far at *
  have hneighbour : ∀ other, (⟨other, x⟩ : Decimal).ReadsAs m e →
      (⟨near, x⟩ : Decimal).ReadsAs m e ∨ (⟨far, x⟩ : Decimal).ReadsAs m e ∧
        gap (scaledUnits m e x) (scaledPower x) far ≤
          gap (scaledUnits m e x) (scaledPower x) other := by
    intro other hother
    rcases Nat.lt_or_ge (multipleBelow m e x) other with habove | hbelow
    · have hreads := readsAs_multipleAbove hcanonical hother habove
      rcases hneighbours with ⟨-, rfl⟩ | ⟨rfl, -⟩
      · exact .inr hreads
      · exact .inl hreads.1
    · have hreads := readsAs_multipleBelow hcanonical hother hbelow
      rcases hneighbours with ⟨rfl, -⟩ | ⟨-, rfl⟩
      · exact .inl hreads.1
      · exact .inr hreads
  rcases hsearch with ⟨-, hfound⟩ | ⟨hnear, ⟨-, hfound⟩ | ⟨hfar, hnone⟩⟩
  · refine .inl ⟨near, hfound, fun other _ => ?_⟩
    exact (abs_multiple_sub_le_iff m e x near other).mpr (hnearest.gap_le other).1
  · refine .inl ⟨far, hfound, fun other hother => ?_⟩
    exact (abs_multiple_sub_le_iff m e x far other).mpr
      ((hneighbour other hother).resolve_left hnear).2
  · exact .inr ⟨hnone, fun other hother =>
      hfar ((hneighbour other hother).resolve_left hnear).1⟩

end

/-! ### The search -/

section

variable {m e : Nat} (hcanonical : Canonical m e)

include hcanonical

/-- The search ends at the largest power of ten with a multiple that reads back, and at the nearest
of these multiples. -/
theorem searchDown_spec (steps : Nat) (x : Int) (hx : x = steps - 1074) :
    (∀ other : Decimal, other.ReadsAs m e → other.exponent ≤ x →
      other.exponent ≤ (searchDown m e steps x).exponent) ∧
    ∀ c, (⟨c, (searchDown m e steps x).exponent⟩ : Decimal).ReadsAs m e →
      |(searchDown m e steps x).value - (ownDecimal m e).value| ≤
        |(⟨c, (searchDown m e steps x).exponent⟩ : Decimal).value - (ownDecimal m e).value| := by
  induction steps generalizing x with
  | zero =>
    refine ⟨fun other _ hle => ?_, fun c _ => ?_⟩
    · rw [hx] at hle
      exact hle
    · have hown : searchDown m e 0 x = ownDecimal m e := rfl
      rw [hown, sub_self, abs_zero]
      exact abs_nonneg _
  | succ steps ih =>
    rcases multipleAt?_spec hcanonical x with ⟨c, hfound, hnearest⟩ | ⟨hnone, hnot⟩
    · rw [searchDown, hfound]
      exact ⟨fun other _ hle => hle, hnearest⟩
    · obtain ⟨hlargest, hnearest⟩ := ih (x - 1) (by omega)
      rw [searchDown, hnone]
      refine ⟨fun other hother hle => hlargest other hother ?_, hnearest⟩
      have hne : other.exponent ≠ x := by
        rintro rfl
        exact hnot other.digits hother
      omega

end

/-! ### How far apart decimals can be that read back -/

/-- How many digits a decimal is given with. -/
def Decimal.digitCount (decimal : Decimal) : Nat := (Text.ofNat decimal.digits).length

section

variable {m e : Nat} {decimal : Decimal}

theorem Decimal.ReadsAs.bounds (h : decimal.ReadsAs m e) :
    ((lowerEnd m e * Nat.pow 2 e : Nat) : ℚ) ≤ 4 * (decimal.value * unitsPerOne) ∧
      4 * (decimal.value * unitsPerOne) ≤ ((upperEnd m * Nat.pow 2 e : Nat) : ℚ) := by
  obtain ⟨hlow, hhigh, -⟩ := roundsTo_bounds h
  have hpower : (0 : ℚ) < (Nat.pow 10 (-decimal.exponent).toNat : Nat) :=
    Nat.cast_pos.mpr (Nat.pow_pos (by decide))
  have hvalue : 4 * (decimal.value * unitsPerOne) * (Nat.pow 10 (-decimal.exponent).toNat : Nat) =
      (decimal.digits * (4 * unitsPerOne * Nat.pow 10 decimal.exponent.toNat) : Nat) := by
    rw [value, zpow_eq_div]
    simp only [Nat.pow_eq]
    push_cast at hpower ⊢
    generalize (unitsPerOne : ℚ) = one
    field_simp
  rw [← Nat.mul_assoc (lowerEnd m e)] at hlow
  rw [← Nat.mul_assoc (upperEnd m)] at hhigh
  constructor
  · refine le_of_mul_le_mul_right ?_ hpower
    rw [hvalue, ← Nat.cast_mul, Nat.cast_le]
    exact hlow
  · refine le_of_mul_le_mul_right ?_ hpower
    rw [hvalue, ← Nat.cast_mul, Nat.cast_le]
    exact hhigh

theorem own_mul_units (m e : Nat) :
    (ownDecimal m e).value * unitsPerOne = (m * Nat.pow 2 e : Nat) := by
  rw [value_ownDecimal, div_mul_cancel₀ _ unitsPerOne_pos.ne']

/-- They are at most one step apart. -/
theorem Decimal.ReadsAs.sub_le {other : Decimal} (h : decimal.ReadsAs m e)
    (hother : other.ReadsAs m e) :
    decimal.value * unitsPerOne - other.value * unitsPerOne ≤ (Nat.pow 2 e : Nat) := by
  have hend : ((upperEnd m * Nat.pow 2 e : Nat) : ℚ) ≤
      (lowerEnd m e * Nat.pow 2 e : Nat) + 4 * (Nat.pow 2 e : Nat) := by
    have hends : upperEnd m ≤ lowerEnd m e + 4 := by
      have hlow := le_lowerEnd m e
      rw [upperEnd]
      omega
    have hmul := Nat.mul_le_mul_right (Nat.pow 2 e) hends
    rw [Nat.add_mul] at hmul
    exact_mod_cast hmul
  linarith [h.bounds.2, hother.bounds.1]

/-- None is above the number by more than half of it. -/
theorem Decimal.ReadsAs.two_mul_le (h : decimal.ReadsAs m e) (hpos : 0 < m) :
    2 * decimal.value ≤ 3 * (ownDecimal m e).value := by
  have hend : ((upperEnd m * Nat.pow 2 e : Nat) : ℚ) ≤ 6 * (m * Nat.pow 2 e : Nat) := by
    have hends : upperEnd m ≤ 6 * m := by
      rw [upperEnd]
      omega
    have hmul := Nat.mul_le_mul_right (Nat.pow 2 e) hends
    rw [Nat.mul_assoc] at hmul
    exact_mod_cast hmul
  refine le_of_mul_le_mul_right ?_ unitsPerOne_pos
  linarith [h.bounds.2, own_mul_units m e]

theorem Decimal.ReadsAs.digits_pos (h : decimal.ReadsAs m e) (hpos : 0 < m) :
    0 < decimal.digits := by
  by_contra hnot
  have hvalue : decimal.value = 0 := by
    rw [value, Nat.eq_zero_of_not_pos hnot, Nat.cast_zero, zero_mul]
  have hlow := h.bounds.1
  have hend : 0 < lowerEnd m e * Nat.pow 2 e := by
    refine Nat.mul_pos ?_ (Nat.two_pow_pos e)
    have hlow := le_lowerEnd m e
    omega
  rw [hvalue, zero_mul, mul_zero] at hlow
  exact absurd (Nat.cast_pos.mpr hend) (not_lt.mpr hlow)

/-- The search starts high enough. -/
theorem Decimal.ReadsAs.exponent_le (h : decimal.ReadsAs m e) (hpos : 0 < m) :
    decimal.exponent ≤ (Text.ofNat (m * Nat.pow 2 e / unitsPerOne)).length := by
  have hown : (ownDecimal m e).value <
      10 ^ ((Text.ofNat (m * Nat.pow 2 e / unitsPerOne)).length : ℤ) := by
    have hlength := Text.lt_pow_length_ofNat (m * Nat.pow 2 e / unitsPerOne)
    rw [Nat.div_lt_iff_lt_mul zero_lt_unitsPerOne] at hlength
    rw [value_ownDecimal, div_lt_iff₀ unitsPerOne_pos, zpow_natCast]
    exact_mod_cast hlength
  by_contra hnot
  have hleading : (10 : ℚ) ^ decimal.leading ≤ decimal.value := zpow_leading_le (h.digits_pos hpos)
  have hexponent : ((Text.ofNat (m * Nat.pow 2 e / unitsPerOne)).length : ℤ) + 1 ≤
      decimal.leading := by
    have hlength := Text.length_ofNat_pos decimal.digits
    rw [leading]
    omega
  have hpower : (10 : ℚ) ^ ((Text.ofNat (m * Nat.pow 2 e / unitsPerOne)).length : ℤ) * 10 ≤
      10 ^ decimal.leading := by
    rw [← zpow_add_one₀ (by decide)]
    exact zpow_le_zpow_right₀ (by decide) hexponent
  have hpositive : (0 : ℚ) < 10 ^ ((Text.ofNat (m * Nat.pow 2 e / unitsPerOne)).length : ℤ) :=
    zpow_pos (by decide) _
  have hhalf := h.two_mul_le hpos
  linarith

end

/-! ### The fewest digits -/

section

variable {m e : Nat} (hcanonical : Canonical m e) (hpos : 0 < m) {other : Decimal}

include hcanonical

theorem shortest_readsAs : (shortest m e).ReadsAs m e :=
  (readsAs_iff false hcanonical).mpr (read_shortest false hcanonical)

/-- What the search found is the nearest of the multiples of its power of ten that read back. -/
theorem abs_shortest_sub_le {c : Nat} (h : (⟨c, (shortest m e).exponent⟩ : Decimal).ReadsAs m e) :
    |(shortest m e).value - (ownDecimal m e).value| ≤
      |(⟨c, (shortest m e).exponent⟩ : Decimal).value - (ownDecimal m e).value| := by
  refine (searchDown_spec hcanonical _ _ ?_).2 c h
  omega

include hpos

/-- No multiple of a larger power of ten reads back. -/
theorem exponent_le_shortest (h : other.ReadsAs m e) :
    other.exponent ≤ (shortest m e).exponent := by
  refine (searchDown_spec hcanonical _ _ ?_).1 other h (h.exponent_le hpos)
  omega

/-- If a decimal that starts at a lower place reads back, what was found is given with one digit,
and the power of ten at its place reads back as well. -/
theorem power_of_leading_lt (h : other.ReadsAs m e) (hless : other.leading < (shortest m e).leading) :
    other.value < 10 ^ (shortest m e).leading ∧
      (⟨1, (shortest m e).leading⟩ : Decimal).ReadsAs m e ∧ (shortest m e).digitCount = 1 := by
  have hfound := shortest_readsAs hcanonical
  have hbelow : other.value < 10 ^ (shortest m e).leading :=
    lt_of_lt_of_le (Decimal.value_lt_zpow other) (zpow_le_zpow_right₀ (by decide) hless)
  have habove := Decimal.zpow_leading_le (hfound.digits_pos hpos)
  rw [← Decimal.value_one] at habove hbelow
  have hpower := h.between hcanonical hfound (le_of_lt hbelow) habove
  have hexponent := exponent_le_shortest hcanonical hpos hpower
  have hcount := Text.length_ofNat_pos (shortest m e).digits
  rw [Decimal.value_one] at hbelow
  refine ⟨hbelow, hpower, ?_⟩
  rw [Decimal.digitCount]
  change (shortest m e).exponent + (Text.ofNat (shortest m e).digits).length - 1 ≤ _ at hexponent
  omega

/-- No decimal with fewer digits reads back. -/
theorem digitCount_shortest_le (h : other.ReadsAs m e) :
    (shortest m e).digitCount ≤ other.digitCount := by
  by_contra hfewer
  have hexponent := exponent_le_shortest hcanonical hpos h
  have hless : other.leading < (shortest m e).leading := by
    rw [Decimal.digitCount, Decimal.digitCount] at hfewer
    rw [Decimal.leading, Decimal.leading]
    omega
  have hone := (power_of_leading_lt hcanonical hpos h hless).2.2
  have hcount : 0 < other.digitCount := Text.length_ofNat_pos other.digits
  omega

end

/-! ### The closest of them -/

theorem zpow_add_natCast (x : Int) (n : Nat) :
    (10 : ℚ) ^ (x + n) = 10 ^ x * (Nat.pow 10 n : Nat) := by
  rw [zpow_add₀ (by decide), zpow_natCast, Nat.pow_eq, Nat.cast_pow, Nat.cast_ofNat]

/-- A power of ten in units, to three digits. -/
theorem power_units (x : Int) : 202 * 10 ^ (x + 321) < (10 : ℚ) ^ x * unitsPerOne ∧
    (10 : ℚ) ^ x * unitsPerOne < 203 * 10 ^ (x + 321) := by
  obtain ⟨n, scale, hn, hscale, hbounds⟩ : ∃ n scale : Nat, (n : ℤ) = 321 ∧
      scale = Nat.pow 10 n ∧ 202 * scale < unitsPerOne ∧ unitsPerOne < 203 * scale :=
    ⟨321, _, rfl, rfl, by decide +kernel⟩
  have hpower : (10 : ℚ) ^ (x + 321) = 10 ^ x * scale := by
    rw [hscale, ← hn]
    exact zpow_add_natCast x n
  obtain ⟨hlow, hhigh⟩ : (202 : ℚ) * scale < unitsPerOne ∧ unitsPerOne < 203 * (scale : ℚ) := by
    exact_mod_cast hbounds
  have hpositive : (0 : ℚ) < 10 ^ x := zpow_pos (by decide) x
  rw [hpower, mul_left_comm, mul_left_comm (203 : ℚ)]
  exact ⟨mul_lt_mul_of_pos_left hlow hpositive, mul_lt_mul_of_pos_left hhigh hpositive⟩

/-- The only power of ten between one unit and ten. -/
theorem exponent_of_power_units {x : Int} (hlow : 1 ≤ (10 : ℚ) ^ x * unitsPerOne)
    (hhigh : (10 : ℚ) ^ x * unitsPerOne ≤ 10) : x + 321 = -2 := by
  obtain ⟨hbelow, habove⟩ := power_units x
  have hlarge : ¬ -1 ≤ x + 321 := by
    intro hle
    have hpower : (10 : ℚ) ^ (-1 : ℤ) ≤ 10 ^ (x + 321) := zpow_le_zpow_right₀ (by decide) hle
    norm_num at hpower
    linarith
  have hsmall : ¬ x + 321 ≤ -3 := by
    intro hle
    have hpower : (10 : ℚ) ^ (x + 321) ≤ 10 ^ (-3 : ℤ) := zpow_le_zpow_right₀ (by decide) hle
    norm_num at hpower
    linarith
  omega

section

variable {m e : Nat} (hcanonical : Canonical m e) (hpos : 0 < m) {other : Decimal}

include hcanonical hpos

/-- A number below a power of ten that reads back, when nine tenths of it read back as well, has two
units: the two decimals are not more than a step apart. The power is then the closer one. -/
theorem power_add_le {x : Int} (hpower : (⟨1, x⟩ : Decimal).ReadsAs m e)
    (hbelow : (ownDecimal m e).value < 10 ^ x) (h : other.ReadsAs m e)
    (htenth : 10 * other.value ≤ 9 * 10 ^ x) :
    10 ^ x + other.value ≤ 2 * (ownDecimal m e).value := by
  have hstep := hpower.sub_le h
  have hend := hpower.bounds.2
  have hown := own_mul_units m e
  have hless := mul_lt_mul_of_pos_right hbelow unitsPerOne_pos
  have hnine := mul_le_mul_of_nonneg_right htenth unitsPerOne_pos.le
  rw [Decimal.value_one] at hstep hend
  rw [hown] at hless
  have hten : m < 10 := by
    have hmul : ((m * Nat.pow 2 e : Nat) : ℚ) < (10 * Nat.pow 2 e : Nat) := by
      rw [Nat.cast_mul 10, Nat.cast_ofNat]
      linarith
    exact Nat.lt_of_mul_lt_mul_right (Nat.cast_lt.mp hmul)
  obtain rfl : e = 0 := by
    refine hcanonical.2.2.resolve_right fun hfull => ?_
    dsimp only [leastFull] at hfull
    omega
  have hone : Nat.pow 2 0 = 1 := rfl
  rw [hone, Nat.mul_one] at hown hless hend
  rw [hone, Nat.cast_one] at hstep
  have hunit : (1 : ℚ) ≤ m := by exact_mod_cast hpos
  have hexponent : x + 321 = -2 := exponent_of_power_units (by linarith) (by linarith)
  have hhundredth : (10 : ℚ) ^ (-2 : ℤ) = 1 / 100 := by norm_num
  obtain ⟨hlow, hhigh⟩ := power_units x
  rw [hexponent, hhundredth] at hlow hhigh
  obtain rfl : m = 2 := by
    have hupper : (m : ℚ) < 3 := by linarith
    have hlower : (8 : ℚ) < upperEnd m := by linarith
    have hthree : m < 3 := by exact_mod_cast hupper
    have height : 8 < upperEnd m := by exact_mod_cast hlower
    rw [upperEnd] at height
    omega
  refine le_of_mul_le_mul_right ?_ unitsPerOne_pos
  rw [add_mul, mul_assoc 2, hown]
  push_cast
  linarith

omit hcanonical hpos in
/-- A decimal with one digit at a lower place is at most nine tenths of the power of ten. -/
theorem ten_mul_value_le {x : Int} (hcount : other.digitCount = 1) (hless : other.exponent < x) :
    10 * other.value ≤ 9 * 10 ^ x := by
  have hdigits : other.digits ≤ 9 := by
    have hbelow := Text.lt_pow_length_ofNat other.digits
    rw [Decimal.digitCount] at hcount
    rw [hcount] at hbelow
    omega
  have hpower : (10 : ℚ) ^ (other.exponent + 1) ≤ 10 ^ x := zpow_le_zpow_right₀ (by decide) hless
  have hnine : (other.digits : ℚ) ≤ 9 := by exact_mod_cast hdigits
  rw [zpow_add_one₀ (by decide)] at hpower
  have hvalue : other.value ≤ 9 * 10 ^ other.exponent :=
    mul_le_mul_of_nonneg_right hnine (zpow_nonneg (by decide) _)
  linarith

/-- No decimal with as many digits that reads back is closer to the number. -/
theorem abs_shortest_sub_le_of_digitCount_eq (h : other.ReadsAs m e)
    (hcount : other.digitCount = (shortest m e).digitCount) :
    |(shortest m e).value - (ownDecimal m e).value| ≤ |other.value - (ownDecimal m e).value| := by
  rcases eq_or_lt_of_le (exponent_le_shortest hcanonical hpos h) with hsame | hless
  · have hmultiple : other = ⟨other.digits, (shortest m e).exponent⟩ := by rw [← hsame]
    rw [hmultiple] at h ⊢
    exact abs_shortest_sub_le hcanonical h
  -- At a lower place there is only room for one digit, and then the power of ten is not further.
  have hleading : other.leading < (shortest m e).leading := by
    rw [Decimal.digitCount, Decimal.digitCount] at hcount
    rw [Decimal.leading, Decimal.leading]
    omega
  obtain ⟨hbelow, hpower, hone⟩ := power_of_leading_lt hcanonical hpos h hleading
  have hplace : (shortest m e).leading = (shortest m e).exponent := by
    rw [Decimal.digitCount] at hone
    rw [Decimal.leading]
    omega
  rw [hplace] at hbelow hpower
  refine (abs_shortest_sub_le hcanonical hpower).trans ?_
  rw [Decimal.value_one]
  rcases le_or_gt (10 ^ (shortest m e).exponent) (ownDecimal m e).value with hle | hgt
  · rw [abs_of_nonpos (by linarith), abs_of_nonpos (by linarith)]
    linarith
  · have hsum := power_add_le hcanonical hpos hpower hgt h
      (ten_mul_value_le (hcount.trans hone) hless)
    rw [abs_of_pos (by linarith), abs_of_nonpos (by linarith)]
    linarith

end

end Reckoner.Double
