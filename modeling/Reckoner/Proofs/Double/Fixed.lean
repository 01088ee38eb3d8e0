import Reckoner.Proofs.Double.Reader

/-!
# Fixed places

With a fixed number of places a number is shown as a whole number of its last place, the nearest one
to the exact value, with the point put between the digits. As many zeros as needed stand in front for
one digit to be left before the point, so where there are none the first digit is not zero, and where
there are some it is the only digit before the point.
-/

namespace Reckoner.Double

/-- No whole number is nearer to the exact value, and halfway between two of them this is the even
one. -/
structure IsNearestWhole (exact : ℚ) (n : Nat) : Prop where
  near : |n - exact| ≤ 1 / 2
  tie : |n - exact| = 1 / 2 → n % 2 = 0

theorem IsNearest.isNearestWhole {numerator denominator rounded : Nat} (hpos : 0 < denominator)
    (h : IsNearest numerator denominator rounded) :
    IsNearestWhole (numerator / denominator) rounded := by
  have hden : (0 : ℚ) < denominator := by exact_mod_cast hpos
  have hlow : 2 * ((rounded : ℚ) * denominator) ≤ 2 * numerator + denominator := by
    exact_mod_cast h.low
  have hhigh : 2 * (numerator : ℚ) ≤ 2 * (rounded * denominator) + denominator := by
    exact_mod_cast h.high
  have hdifference : (rounded : ℚ) - numerator / denominator =
      (rounded * denominator - numerator) / denominator := by
    rw [sub_div, mul_div_cancel_right₀ _ hden.ne']
  constructor
  · rw [hdifference, abs_div, abs_of_pos hden, div_le_iff₀ hden, abs_le]
    constructor <;> linarith
  · intro htie
    rw [hdifference, abs_div, abs_of_pos hden, div_eq_iff hden.ne', abs_eq (by positivity)] at htie
    rcases htie with habove | hbelow
    · have hequal : 2 * ((rounded : ℚ) * denominator) = 2 * numerator + denominator := by linarith
      exact h.low_tie (by exact_mod_cast hequal)
    · have hequal : 2 * (numerator : ℚ) = 2 * (rounded * denominator) + denominator := by linarith
      exact h.high_tie (by exact_mod_cast hequal)

/-- The digits of the last place count the magnitude in units of it. -/
theorem isNearestWhole_scaled (x : Double) (places : Nat) :
    IsNearestWhole (|x.value| * 10 ^ places)
      (roundDiv (x.units * Nat.pow 10 places) unitsPerOne) := by
  have hexact : |x.value| * 10 ^ places =
      ((x.units * Nat.pow 10 places : Nat) : ℚ) / unitsPerOne := by
    rw [abs_value, Nat.cast_mul, mul_div_right_comm]
    congr 1
    exact_mod_cast rfl
  rw [hexact]
  exact (isNearest_roundDiv zero_lt_unitsPerOne).isNearestWhole zero_lt_unitsPerOne

/-! ### The point among the digits -/

theorem char_isDigit_of_mem_ofNatPadded {width n : Nat} {c : Char}
    (h : c ∈ Text.ofNatPadded width n) : c.isDigit = true := by
  rcases List.mem_append.mp h with hzero | hdigit
  · obtain rfl := List.eq_of_mem_replicate hzero
    decide
  · exact Text.char_isDigit_of_mem_ofNat hdigit

theorem length_ofNatPadded (width n : Nat) :
    (Text.ofNatPadded width n).length = max width (Text.ofNat n).length := by
  rw [Text.ofNatPadded, List.length_append, List.length_replicate]
  omega

/-- A zero in front of the point stands there alone. -/
theorem eq_nil_of_leading_zero {places n : Nat} {rest : Text}
    (h : (Text.ofNatPadded (places + 1) n).take
      ((Text.ofNatPadded (places + 1) n).length - places) = '0' :: rest) : rest = [] := by
  rcases Nat.lt_or_ge (places + 1) (Text.ofNat n).length with hlong | hshort
  · -- Nothing is filled in, and a numeral of more than one digit does not start with zero.
    have hunpadded : Text.ofNatPadded (places + 1) n = Text.ofNat n := by
      rw [Text.ofNatPadded, Nat.sub_eq_zero_of_le (Nat.le_of_lt hlong), List.replicate_zero,
        List.nil_append]
    have hpos : 0 < n := by
      by_contra hzero
      obtain rfl := Nat.eq_zero_of_not_pos hzero
      have hone : (Text.ofNat 0).length = 1 := rfl
      omega
    obtain ⟨c, more, hdigits, hc⟩ := Text.exists_leading_digit hpos
    obtain ⟨k, hk⟩ : ∃ k, (Text.ofNat n).length - places = k + 1 :=
      Nat.exists_eq_add_one_of_ne_zero (by omega)
    rw [hunpadded, hk, hdigits, List.take_succ_cons] at h
    exact absurd (List.cons.inj h).1 hc
  · have hlength := congrArg List.length h
    rw [List.length_take, length_ofNatPadded, List.length_cons] at hlength
    exact List.length_eq_zero_iff.mp (by omega)

/-- What is shown of a magnitude: a whole number without zeros in front, and after a point as many
digits as there are places. -/
theorem placesText_eq (places scaled : Nat) :
    ∃ whole fraction, placesText places scaled =
        whole ++ (if places = 0 then [] else '.' :: fraction) ∧
      whole ≠ [] ∧ (∀ rest, whole = '0' :: rest → rest = []) ∧ fraction.length = places ∧
      (∀ c ∈ whole ++ fraction, c.isDigit = true) ∧
      Text.digitsValue (whole ++ fraction) = scaled := by
  have hlength := length_ofNatPadded (places + 1) scaled
  have hjoined := List.take_append_drop ((Text.ofNatPadded (places + 1) scaled).length - places)
    (Text.ofNatPadded (places + 1) scaled)
  refine ⟨(Text.ofNatPadded (places + 1) scaled).take
      ((Text.ofNatPadded (places + 1) scaled).length - places),
    (Text.ofNatPadded (places + 1) scaled).drop
      ((Text.ofNatPadded (places + 1) scaled).length - places),
    ?_, ?_, fun rest => eq_nil_of_leading_zero, ?_, ?_, ?_⟩
  · rw [placesText]
    split
    · exact (List.append_nil _).symm
    · rfl
  · rw [← List.length_pos_iff, List.length_take]
    omega
  · rw [List.length_drop]
    omega
  · rw [hjoined]
    exact fun c => char_isDigit_of_mem_ofNatPadded
  · rw [hjoined, digitsValue_ofNatPadded]

/-! ### The form with a number of places -/

theorem shown?_of_isFinite {x : Double} (hfinite : x.isFinite = true) {places : Nat}
    (hplaces : places ≤ maxPlaces) :
    x.shown? (some places) = some (signText x.isNegative ++
      placesText places (roundDiv (x.units * Nat.pow 10 places) unitsPerOne)) := by
  cases x with
  | nan => cases hfinite
  | infinity negative => cases hfinite
  | finite negative m e h => exact if_neg (Nat.not_lt.mpr hplaces)

/-- A finite number is shown with its sign, zero or not, then digits without superfluous zeros in
front, then a point and as many digits as there are places, unless there are none. All these digits
together are the magnitude in units of the last place, rounded to the nearest from the exact value,
a half to the even one. -/
theorem shown?_rounds_exact_value {x : Double} (hfinite : x.isFinite = true) {places : Nat}
    (hplaces : places ≤ 2147483647) :
    ∃ whole fraction, x.shown? (some places) = some
        (signText x.isNegative ++ whole ++ (if places = 0 then [] else '.' :: fraction)) ∧
      whole ≠ [] ∧ (∀ rest, whole = '0' :: rest → rest = []) ∧ fraction.length = places ∧
      (∀ c ∈ whole ++ fraction, c.isDigit = true) ∧
      IsNearestWhole (|x.value| * 10 ^ places) (Text.digitsValue (whole ++ fraction)) := by
  obtain ⟨whole, fraction, htext, hnonempty, hleading, hlength, hdigits, hvalue⟩ :=
    placesText_eq places (roundDiv (x.units * Nat.pow 10 places) unitsPerOne)
  refine ⟨whole, fraction, ?_, hnonempty, hleading, hlength, hdigits, ?_⟩
  · rw [shown?_of_isFinite hfinite hplaces, htext, List.append_assoc]
  · rw [hvalue]
    exact isNearestWhole_scaled x places

/-- Minus one half without places, where the half goes to a zero that keeps its sign, and with as
many places as can be shown. -/
theorem shown?_rounds_exact_value_half :
    (ofDecimal true 5 (-1)).isFinite = true ∧
    (ofDecimal true 5 (-1)).shown? (some 0) = some "-0".toList ∧
    IsNearestWhole (|(ofDecimal true 5 (-1)).value| * 10 ^ 0) 0 ∧
    ∃ whole fraction, (ofDecimal true 5 (-1)).shown? (some 2147483647) =
        some ('-' :: whole ++ '.' :: fraction) ∧ fraction.length = 2147483647 ∧
      IsNearestWhole (|(ofDecimal true 5 (-1)).value| * 10 ^ 2147483647)
        (Text.digitsValue (whole ++ fraction)) := by
  have hfinite : (ofDecimal true 5 (-1)).isFinite = true := by decide +kernel
  have hsign : signText (ofDecimal true 5 (-1)).isNegative = ['-'] := by decide +kernel
  have hshown : (ofDecimal true 5 (-1)).shown? (some 0) = some "-0".toList := by decide +kernel
  obtain ⟨digits, none, htext, -, -, hnone, -, hrounded⟩ :=
    shown?_rounds_exact_value hfinite (Nat.zero_le 2147483647)
  obtain ⟨whole, fraction, hlong, -, -, hlength, -, hexact⟩ :=
    shown?_rounds_exact_value hfinite (Nat.le_refl 2147483647)
  refine ⟨hfinite, hshown, ?_, whole, fraction, ?_, hlength, hexact⟩
  · obtain rfl := List.eq_nil_of_length_eq_zero hnone
    rw [htext, hsign, if_pos rfl, List.append_nil] at hshown
    obtain rfl : digits = ['0'] := (List.cons.inj (Option.some.inj hshown)).2
    exact hrounded
  · rw [hlong, hsign, if_neg (by decide)]
    rfl

end Reckoner.Double
