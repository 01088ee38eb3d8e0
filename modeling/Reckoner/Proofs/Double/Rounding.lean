import Mathlib.Tactic.Linarith
import Reckoner.Double.Shortest
import Reckoner.Proofs.Double.Range

/-!
# Rounding to the nearest number

Rounding a quotient is determined by two bounds, half a step to either side, and by what it does at
the bounds themselves. Everything else here follows from these: the nearest number depends on the
value of the quotient alone and grows with it, and a quotient between the two ends that the printer
of decimals works with is rounded to the number between them.
-/

namespace Reckoner.Double

/-! ### Whole numbers -/

/-- The whole number is within half a step of the quotient, and even if it is half a step away. -/
structure IsNearest (numerator denominator rounded : Nat) : Prop where
  low : 2 * (rounded * denominator) ≤ 2 * numerator + denominator
  high : 2 * numerator ≤ 2 * (rounded * denominator) + denominator
  low_tie : 2 * (rounded * denominator) = 2 * numerator + denominator → rounded % 2 = 0
  high_tie : 2 * numerator = 2 * (rounded * denominator) + denominator → rounded % 2 = 0

section

variable {numerator denominator numerator' denominator' rounded rounded' : Nat}

theorem isNearest_roundDiv (hpos : 0 < denominator) :
    IsNearest numerator denominator (roundDiv numerator denominator) := by
  have hdivision := Nat.div_add_mod' numerator denominator
  have hremainder := Nat.mod_lt numerator hpos
  have hnext : (numerator / denominator + 1) * denominator =
      numerator / denominator * denominator + denominator := Nat.succ_mul _ _
  unfold roundDiv
  dsimp only
  split
  · constructor <;> omega
  split
  · constructor <;> omega
  · rcases Nat.mod_two_eq_zero_or_one (numerator / denominator) with heven | hodd
    · rw [heven, Nat.add_zero]
      constructor <;> omega
    · rw [hodd]
      constructor <;> omega

/-- A tie cannot go both ways, since of two neighbours only one is even. -/
theorem IsNearest.le (h : IsNearest numerator denominator rounded)
    (h' : IsNearest numerator' denominator' rounded') (hpos : 0 < denominator)
    (hpos' : 0 < denominator') (hle : numerator * denominator' ≤ numerator' * denominator) :
    rounded ≤ rounded' := by
  by_contra hlt
  have hlow : 2 * (rounded * denominator) * denominator' ≤
      (2 * numerator + denominator) * denominator' := Nat.mul_le_mul_right _ h.low
  have hhigh : 2 * numerator' * denominator ≤
      (2 * (rounded' * denominator') + denominator') * denominator :=
    Nat.mul_le_mul_right _ h'.high
  have hstep : (rounded' + 1) * (denominator * denominator') ≤
      rounded * (denominator * denominator') := Nat.mul_le_mul_right _ (by omega)
  have heven : rounded % 2 = 0 := by
    apply h.low_tie
    apply Nat.eq_of_mul_eq_mul_right hpos'
    linarith
  have heven' : rounded' % 2 = 0 := by
    apply h'.high_tie
    apply Nat.eq_of_mul_eq_mul_right hpos
    linarith
  have hneighbour : rounded = rounded' + 1 := by
    apply Nat.eq_of_mul_eq_mul_right (Nat.mul_pos hpos hpos')
    linarith
  omega

theorem roundDiv_eq (hpos : 0 < denominator) (h : IsNearest numerator denominator rounded) :
    roundDiv numerator denominator = rounded := by
  have hrounded : IsNearest numerator denominator (roundDiv numerator denominator) :=
    isNearest_roundDiv hpos
  exact Nat.le_antisymm (hrounded.le h hpos hpos (Nat.le_refl _))
    (h.le hrounded hpos hpos (Nat.le_refl _))

theorem roundDiv_mono (hpos : 0 < denominator) (hpos' : 0 < denominator')
    (hle : numerator * denominator' ≤ numerator' * denominator) :
    roundDiv numerator denominator ≤ roundDiv numerator' denominator' :=
  (isNearest_roundDiv hpos).le (isNearest_roundDiv hpos') hpos hpos' hle

theorem roundDiv_congr (hpos : 0 < denominator) (hpos' : 0 < denominator')
    (heq : numerator * denominator' = numerator' * denominator) :
    roundDiv numerator denominator = roundDiv numerator' denominator' :=
  Nat.le_antisymm (roundDiv_mono hpos hpos' (Nat.le_of_eq heq))
    (roundDiv_mono hpos' hpos (Nat.le_of_eq heq.symm))

/-! ### The nearest number -/

theorem div_le_div_of_mul_le (hpos : 0 < denominator) (hpos' : 0 < denominator')
    (hle : numerator * denominator' ≤ numerator' * denominator) :
    numerator / denominator ≤ numerator' / denominator' := by
  calc numerator / denominator
      = numerator * denominator' / (denominator * denominator') :=
        (Nat.mul_div_mul_right _ _ hpos').symm
    _ ≤ numerator' * denominator / (denominator * denominator') := Nat.div_le_div_right hle
    _ = numerator' * denominator / (denominator' * denominator) := by rw [Nat.mul_comm denominator]
    _ = numerator' / denominator' := Nat.mul_div_mul_right _ _ hpos

/-- Only the value of the quotient matters. -/
theorem nearest_congr (negative : Bool) (hpos : 0 < denominator) (hpos' : 0 < denominator')
    (heq : numerator * denominator' = numerator' * denominator) :
    nearest negative numerator denominator = nearest negative numerator' denominator' := by
  have hquotient : numerator / denominator = numerator' / denominator' :=
    Nat.le_antisymm (div_le_div_of_mul_le hpos hpos' (Nat.le_of_eq heq))
      (div_le_div_of_mul_le hpos' hpos (Nat.le_of_eq heq.symm))
  have hsignificand : significandFor numerator denominator =
      significandFor numerator' denominator' := by
    rw [significandFor, significandFor, hquotient]
    have hpower := Nat.two_pow_pos (exponentFor (numerator' / denominator'))
    refine roundDiv_congr (Nat.mul_pos hpos hpower) (Nat.mul_pos hpos' hpower) ?_
    rw [← Nat.mul_assoc, ← Nat.mul_assoc, heq]
  rw [nearest_eq, nearest_eq, hsignificand, hquotient]

theorem exponentFor_mono {n n' : Nat} (h : n ≤ n') : exponentFor n ≤ exponentFor n' := by
  rcases Nat.eq_zero_or_pos n with rfl | hpos
  · exact Nat.zero_le _
  · have hlog : n.log2 ≤ n'.log2 := by
      rw [Nat.le_log2 (by omega)]
      exact Nat.le_trans (Nat.log2_self_le (by omega)) h
    rw [exponentFor, exponentFor]
    omega

theorem exponentFor_eq {n exponent : Nat} (hupper : n < significandLimit * Nat.pow 2 exponent)
    (hlower : exponent = 0 ∨ leastFull * Nat.pow 2 exponent ≤ n) : exponentFor n = exponent := by
  have hpower := Nat.two_pow_pos exponent
  rcases Nat.eq_zero_or_pos n with rfl | hpos
  · rcases hlower with rfl | hlower
    · rfl
    · have hfull : 0 < leastFull * Nat.pow 2 exponent := Nat.mul_pos (by decide) hpower
      omega
  · have hbelow : n.log2 < 53 + exponent := by
      rw [Nat.log2_lt (by omega), Nat.pow_add]
      exact hupper
    rw [exponentFor]
    rcases hlower with rfl | hlower
    · omega
    · have habove : 52 + exponent ≤ n.log2 := by
        rw [Nat.le_log2 (by omega), Nat.pow_add]
        exact hlower
      omega

theorem significandLimit_mul_pow (exponent : Nat) :
    significandLimit * Nat.pow 2 exponent = leastFull * Nat.pow 2 (exponent + 1) := by
  show 0x20000000000000 * Nat.pow 2 exponent = 0x10000000000000 * (Nat.pow 2 exponent * 2)
  omega

/-- A carry leaves an even significand, so the magnitude is what was rounded to either way. -/
theorem units_nearest (negative : Bool) (hpos : 0 < denominator)
    (hfinite : (nearest negative numerator denominator).isFinite = true) :
    (nearest negative numerator denominator).units = significandFor numerator denominator *
      Nat.pow 2 (exponentFor (numerator / denominator)) := by
  rw [nearest_eq, ofSignificand] at hfinite ⊢
  split
  · rfl
  · next hnot =>
    rw [dif_neg hnot] at hfinite
    split
    · next hcarry =>
      have hlimit : significandFor numerator denominator = significandLimit := by
        by_contra hne
        have hless := Nat.lt_of_le_of_ne (significandFor_le hpos) hne
        exact hnot ⟨hless, Nat.le_of_succ_le hcarry.2.1, exponentFor_eq_zero_or_full _ _⟩
      rw [units, hlimit]
      exact (significandLimit_mul_pow _).symm
    · next hover =>
      rw [dif_neg hover] at hfinite
      cases hfinite

theorem units_nearest_le (negative negative' : Bool) (hpos : 0 < denominator)
    (hpos' : 0 < denominator')
    (hfinite : (nearest negative numerator denominator).isFinite = true)
    (hfinite' : (nearest negative' numerator' denominator').isFinite = true)
    (hle : numerator * denominator' ≤ numerator' * denominator) :
    (nearest negative numerator denominator).units ≤
      (nearest negative' numerator' denominator').units := by
  rw [units_nearest negative hpos hfinite, units_nearest negative' hpos' hfinite']
  have hexponent := exponentFor_mono (div_le_div_of_mul_le hpos hpos' hle)
  rcases Nat.lt_or_eq_of_le hexponent with hless | hsame
  · -- A larger exponent starts where the smaller one ends.
    calc significandFor numerator denominator * Nat.pow 2 (exponentFor (numerator / denominator))
        ≤ significandLimit * Nat.pow 2 (exponentFor (numerator / denominator)) :=
          Nat.mul_le_mul_right _ (significandFor_le hpos)
      _ = leastFull * Nat.pow 2 (exponentFor (numerator / denominator) + 1) :=
          significandLimit_mul_pow _
      _ ≤ leastFull * Nat.pow 2 (exponentFor (numerator' / denominator')) :=
          Nat.mul_le_mul_left _ (Nat.pow_le_pow_right (by decide) hless)
      _ ≤ _ := Nat.mul_le_mul_right _ (leastFull_le_significandFor (by omega))
  · rw [significandFor, significandFor, hsame]
    have hpower := Nat.two_pow_pos (exponentFor (numerator' / denominator'))
    refine Nat.mul_le_mul_right _
      (roundDiv_mono (Nat.mul_pos hpos hpower) (Nat.mul_pos hpos' hpower) ?_)
    rw [← Nat.mul_assoc, ← Nat.mul_assoc]
    exact Nat.mul_le_mul_right _ hle

/-! ### Between the two ends -/

theorem roundsTo_bounds {m e : Nat} (h : roundsTo m e numerator denominator = true) :
    lowerEnd m e * denominator ≤ numerator ∧ numerator ≤ upperEnd m * denominator ∧
      (m % 2 = 0 ∨ lowerEnd m e * denominator < numerator ∧
        numerator < upperEnd m * denominator) := by
  unfold roundsTo at h
  dsimp only at h
  split at h
  · next heven =>
    obtain ⟨hlow, hhigh⟩ : lowerEnd m e * denominator ≤ numerator ∧
        numerator ≤ upperEnd m * denominator := by simpa using h
    exact ⟨hlow, hhigh, .inl heven⟩
  · obtain ⟨hlow, hhigh⟩ : lowerEnd m e * denominator < numerator ∧
        numerator < upperEnd m * denominator := by simpa using h
    exact ⟨Nat.le_of_lt hlow, Nat.le_of_lt hhigh, .inr ⟨hlow, hhigh⟩⟩

theorem le_lowerEnd (m e : Nat) : 4 * m ≤ lowerEnd m e + 2 := by
  unfold lowerEnd
  split <;> omega

/-- The significand is the nearest whole number of steps. -/
theorem isNearest_of_roundsTo {m e : Nat}
    (h : roundsTo m e (4 * numerator) denominator = true) : IsNearest numerator denominator m := by
  obtain ⟨hlow, hhigh, hstrict⟩ := roundsTo_bounds h
  have hlower : 4 * m * denominator ≤ (lowerEnd m e + 2) * denominator :=
    Nat.mul_le_mul_right _ (le_lowerEnd m e)
  rw [upperEnd] at hhigh hstrict
  simp only [Nat.add_mul, Nat.mul_assoc] at hlower hhigh hstrict
  constructor <;> omega

theorem nearest_of_isNearest (negative : Bool) {m e : Nat} (hcanonical : Canonical m e)
    (hpos : 0 < denominator) (hexponent : exponentFor (numerator / denominator) = e)
    (h : IsNearest numerator (denominator * Nat.pow 2 e) m) :
    nearest negative numerator denominator = finite negative m e hcanonical := by
  have hsignificand : significandFor numerator denominator = m := by
    rw [significandFor, hexponent]
    exact roundDiv_eq (Nat.mul_pos hpos (Nat.two_pow_pos e)) h
  rw [nearest_eq, hexponent, hsignificand, ofSignificand, dif_pos hcanonical]

theorem nearest_of_carry (negative : Bool) {e : Nat} (hcanonical : Canonical leastFull (e + 1))
    (hpos : 0 < denominator) (hexponent : exponentFor (numerator / denominator) = e)
    (h : IsNearest numerator (denominator * Nat.pow 2 e) significandLimit) :
    nearest negative numerator denominator = finite negative leastFull (e + 1) hcanonical := by
  have hsignificand : significandFor numerator denominator = significandLimit := by
    rw [significandFor, hexponent]
    exact roundDiv_eq (Nat.mul_pos hpos (Nat.two_pow_pos e)) h
  have hnot : ¬ Canonical significandLimit e := fun hfits => Nat.lt_irrefl _ hfits.1
  rw [nearest_eq, hexponent, hsignificand, ofSignificand, dif_neg hnot]
  exact dif_pos hcanonical

theorem lowerEnd_leastFull (e : Nat) : lowerEnd leastFull (e + 1) = 4 * leastFull - 1 := by
  rw [lowerEnd, if_pos ⟨rfl, Nat.succ_ne_zero e⟩]

/-- Just below the least full significand the steps are half as long, and it is reached by a
carry. -/
theorem isNearest_of_below_leastFull {step : Nat}
    (hlow : (4 * leastFull - 1) * (2 * step) ≤ 4 * numerator)
    (hbelow : numerator < significandLimit * step) :
    leastFull * step ≤ numerator ∧ IsNearest numerator step significandLimit := by
  have heven : significandLimit % 2 = 0 := by decide
  have hover : leastFull * step ≤ numerator := by
    dsimp only [leastFull] at hlow ⊢
    omega
  refine ⟨hover, ?_, ?_, fun _ => heven, fun _ => heven⟩
  · dsimp only [leastFull, significandLimit] at hlow ⊢
    omega
  · dsimp only [significandLimit] at hbelow ⊢
    omega

theorem nearest_of_roundsTo_leastFull (negative : Bool) {e : Nat}
    (hcanonical : Canonical leastFull (e + 1)) (hpos : 0 < denominator)
    (h : roundsTo leastFull (e + 1) (4 * numerator) (denominator * Nat.pow 2 (e + 1)) = true)
    (hbelow : numerator / denominator < leastFull * Nat.pow 2 (e + 1)) :
    nearest negative numerator denominator = finite negative leastFull (e + 1) hcanonical := by
  have hdouble : denominator * Nat.pow 2 (e + 1) = 2 * (denominator * Nat.pow 2 e) := by
    show denominator * (Nat.pow 2 e * 2) = _
    rw [← Nat.mul_assoc, Nat.mul_comm]
  have hlow := (roundsTo_bounds h).1
  rw [lowerEnd_leastFull, hdouble] at hlow
  rw [← significandLimit_mul_pow] at hbelow
  have hunder : numerator < significandLimit * (denominator * Nat.pow 2 e) := by
    rw [Nat.div_lt_iff_lt_mul hpos] at hbelow
    rw [Nat.mul_comm denominator, ← Nat.mul_assoc]
    exact hbelow
  obtain ⟨hover, hnearest⟩ := isNearest_of_below_leastFull hlow hunder
  refine nearest_of_carry negative hcanonical hpos (exponentFor_eq hbelow (.inr ?_)) hnearest
  rw [Nat.mul_comm denominator, ← Nat.mul_assoc] at hover
  exact (Nat.le_div_iff_mul_le hpos).mpr hover

/-- What lies between the two ends of a number is rounded to it. -/
theorem nearest_of_roundsTo (negative : Bool) {m e : Nat} (hcanonical : Canonical m e)
    (hpos : 0 < denominator)
    (h : roundsTo m e (4 * numerator) (denominator * Nat.pow 2 e) = true) :
    nearest negative numerator denominator = finite negative m e hcanonical := by
  obtain ⟨hlow, hhigh, -⟩ := roundsTo_bounds h
  have hstep : 0 < denominator * Nat.pow 2 e := Nat.mul_pos hpos (Nat.two_pow_pos e)
  by_cases hinside : e = 0 ∨ leastFull * Nat.pow 2 e ≤ numerator / denominator
  · refine nearest_of_isNearest negative hcanonical hpos (exponentFor_eq ?_ hinside)
      (isNearest_of_roundsTo h)
    have hupper : upperEnd m * (denominator * Nat.pow 2 e) ≤
        (4 * significandLimit - 2) * (denominator * Nat.pow 2 e) := by
      refine Nat.mul_le_mul_right _ ?_
      have hlimit := hcanonical.1
      rw [upperEnd]
      omega
    rw [Nat.div_lt_iff_lt_mul hpos, Nat.mul_assoc, Nat.mul_comm _ denominator]
    dsimp only [significandLimit] at hupper ⊢
    omega
  · rw [not_or, Nat.not_le] at hinside
    obtain ⟨hpositive, hbelow⟩ := hinside
    obtain ⟨k, rfl⟩ := Nat.exists_eq_add_one_of_ne_zero hpositive
    have hfull : leastFull ≤ m := hcanonical.2.2.resolve_left hpositive
    rcases Nat.lt_or_eq_of_le hfull with hmore | rfl
    · -- Only the least full significand reaches below itself.
      have hlower : 4 * leastFull * (denominator * Nat.pow 2 (k + 1)) ≤
          lowerEnd m (k + 1) * (denominator * Nat.pow 2 (k + 1)) := by
        refine Nat.mul_le_mul_right _ ?_
        have hend := le_lowerEnd m (k + 1)
        omega
      rw [Nat.div_lt_iff_lt_mul hpos, Nat.mul_assoc, Nat.mul_comm _ denominator] at hbelow
      dsimp only [leastFull] at hlower hbelow
      omega
    · exact nearest_of_roundsTo_leastFull negative hcanonical hpos h hbelow

theorem roundsTo_self (m e : Nat) {step : Nat} (hpos : 0 < step) :
    roundsTo m e (4 * (m * step)) step = true := by
  have hlow : lowerEnd m e * step ≤ 4 * m * step := by
    refine Nat.mul_le_mul_right _ ?_
    unfold lowerEnd
    split <;> omega
  have hhigh : 4 * m * step < upperEnd m * step :=
    Nat.mul_lt_mul_of_pos_right (by rw [upperEnd]; omega) hpos
  rw [← Nat.mul_assoc, roundsTo]
  split
  · simp [hlow, Nat.le_of_lt hhigh]
  · next hodd =>
    have hless : lowerEnd m e * step < 4 * m * step := by
      refine Nat.mul_lt_mul_of_pos_right ?_ hpos
      unfold lowerEnd
      split <;> omega
    simp [hless, hhigh]

/-- A number is the nearest to its own magnitude. -/
theorem nearest_exact (negative : Bool) {m e : Nat} (hcanonical : Canonical m e)
    (hpos : 0 < denominator) (heq : numerator = m * Nat.pow 2 e * denominator) :
    nearest negative numerator denominator = finite negative m e hcanonical := by
  refine nearest_of_roundsTo negative hcanonical hpos ?_
  rw [heq, Nat.mul_assoc, Nat.mul_comm _ denominator]
  exact roundsTo_self m e (Nat.mul_pos hpos (Nat.two_pow_pos e))

end

end Reckoner.Double
