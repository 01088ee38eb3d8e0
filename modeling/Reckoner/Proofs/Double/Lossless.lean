import Reckoner.Proofs.Double.Fewest
import Reckoner.Proofs.Double.Reader
import Reckoner.Proofs.Grammar.Numeral

/-!
# Nothing is lost

A text in decimal notation has an exact value, whichever of the two layouts it is in. What is printed
of a number in full is the decimal that the search found, in one of these layouts: it reads back to
the number, sign of zero included, no decimal with fewer digits does, and none with as many is closer.
A literal without a fraction is printed as the whole number that it is.
-/

namespace Reckoner.Double

open Grammar (IsDigits Fraction Numeral Sign)

/-! ### Decimal notation -/

/-- The text writes a number in decimal notation: whether it is negative, and its exact magnitude. An
exponent behind a numeral scales it by a power of ten. -/
inductive Writes : Text → Bool → ℚ → Prop where
  | plain {text : Text} {negative : Bool} {magnitude : ℚ} (h : Numeral text negative magnitude) :
      Writes text negative magnitude
  | scaled {text sign digits : Text} {negative lowered : Bool} {magnitude : ℚ}
      (h : Numeral text negative magnitude) (hsign : Sign sign lowered)
      (hdigits : IsDigits digits) :
      Writes (text ++ 'e' :: (sign ++ digits)) negative (magnitude *
        10 ^ (if lowered then -(Text.digitsValue digits : ℤ) else Text.digitsValue digits))

theorem numeral_signText (negative : Bool) {whole point fraction : Text} (hwhole : IsDigits whole)
    (hpoint : Fraction point fraction) :
    Numeral (signText negative ++ (whole ++ point)) negative
      (⟨Text.digitsValue (whole ++ fraction), -fraction.length⟩ : Decimal).value := by
  rw [← Grammar.digitsValue_add_fractionValue, ← List.append_assoc]
  exact .intro (sign_signText negative) hwhole hpoint

theorem Writes.scaled_exponentText {text : Text} {negative : Bool} {magnitude : ℚ}
    (h : Numeral text negative magnitude) (x : Int) :
    Writes (text ++ exponentText x) negative (magnitude * 10 ^ x) := by
  have hsign : Sign [if x < 0 then '-' else '+'] (decide (x < 0)) := by
    by_cases hnegative : x < 0
    · simpa [hnegative] using Sign.minus
    · simpa [hnegative] using Sign.plus
  have hexponent : (if decide (x < 0) then -(Text.digitsValue (Text.ofNatPadded 2 x.natAbs) : ℤ)
      else Text.digitsValue (Text.ofNatPadded 2 x.natAbs)) = x := by
    rw [digitsValue_ofNatPadded]
    by_cases hnegative : x < 0
    · rw [if_pos (by simpa using hnegative)]
      omega
    · rw [if_neg (by simpa using hnegative)]
      omega
  have hscaled := Writes.scaled h hsign (isDigits_ofNatPadded 2 x.natAbs)
  rw [hexponent] at hscaled
  exact hscaled

section

variable (negative : Bool) (decimal : Decimal)

theorem writes_positionalText :
    Writes (signText negative ++ positionalText (Text.ofNat decimal.digits) decimal.leading)
      negative decimal.value := by
  obtain ⟨whole, fraction, htext, hwhole, hfraction, hvalue⟩ := positionalText_writesOut decimal
  rw [htext, ← hvalue]
  exact .plain (numeral_signText negative hwhole (.point hfraction))

theorem writes_scientificText :
    Writes (signText negative ++ scientificText (Text.ofNat decimal.digits) decimal.leading)
      negative decimal.value := by
  have hleading : decimal.leading = decimal.exponent + (Text.ofNat decimal.digits).length - 1 := rfl
  obtain ⟨whole, point, fraction, htext, hwhole, hpoint, hdigits, hone⟩ :=
    scientificText_eq (isDigits_ofNat decimal.digits) decimal.leading
  have hlength := congrArg List.length hdigits
  rw [List.length_append, hone] at hlength
  have hexponent : -(fraction.length : ℤ) + decimal.leading = decimal.exponent := by omega
  have hscaled := Writes.scaled_exponentText (numeral_signText negative hwhole hpoint)
    decimal.leading
  rw [hdigits, Text.digitsValue_ofNat, Decimal.value, mul_assoc, ← zpow_add₀ (by decide),
    hexponent, List.append_assoc, List.append_assoc] at hscaled
  rw [htext]
  exact hscaled

theorem writes_decimalText :
    Writes (signText negative ++ decimalText decimal) negative decimal.value := by
  rw [decimalText_eq]
  split
  · exact writes_positionalText negative decimal
  · exact writes_scientificText negative decimal

end

/-! ### The printed decimal -/

/-- The decimal that is printed for `m * 2 ^ e` units. -/
def printedDecimal (m e : Nat) : Decimal := if m = 0 then ⟨0, 0⟩ else shortest m e

section

variable {negative : Bool} {m e : Nat} {hcanonical : Canonical m e}

theorem writes_fullText :
    Writes (finite negative m e hcanonical).fullText negative (printedDecimal m e).value := by
  rw [fullText, printedDecimal]
  split
  · have hzero : IsDigits ['0'] := isDigits_ofNat 0
    have hwrites := Writes.plain (numeral_signText negative hzero (.point hzero))
    have hvalue : (⟨Text.digitsValue (['0'] ++ ['0']), -['0'].length⟩ : Decimal).value =
        (⟨0, 0⟩ : Decimal).value := by
      have hnone : Text.digitsValue (['0'] ++ ['0']) = 0 := rfl
      rw [hnone, Decimal.value, Decimal.value, Nat.cast_zero, zero_mul, zero_mul]
    rw [hvalue] at hwrites
    exact hwrites
  · exact writes_decimalText negative (shortest m e)

theorem isRounded_printedDecimal :
    (finite negative m e hcanonical).IsRounded negative (printedDecimal m e).value := by
  have hrounded := isRounded_read negative (printedDecimal m e)
  rw [printedDecimal] at hrounded ⊢
  split
  · next hzero =>
    have hunits : (finite negative m e hcanonical).units = 0 := by rw [units, hzero, Nat.zero_mul]
    rw [if_pos hzero, read_zero_digits] at hrounded
    rwa [eq_zero_of_units_eq_zero hunits]
  · next hnonzero => rwa [if_neg hnonzero, read_shortest negative hcanonical] at hrounded

/-- Rounding to the number is lying between its ends. -/
theorem readsAs_of_isRounded {sign : Bool} {other : Decimal}
    (h : (finite negative m e hcanonical).IsRounded sign other.value) : other.ReadsAs m e := by
  obtain rfl : negative = sign := h.sign
  exact (readsAs_iff negative hcanonical).mpr ((isRounded_read negative other).unique h)

/-- How far a decimal is from the number, without the signs. -/
theorem abs_value_sub_signed_decimal (decimal : Decimal) :
    |(finite negative m e hcanonical).value - signed negative decimal.value| =
      |decimal.value - (ownDecimal m e).value| := by
  have hsign : (finite negative m e hcanonical).isNegative = negative := rfl
  rw [abs_value_sub_signed hsign, abs_sub_comm, value_ownDecimal, units]

theorem digitCount_printedDecimal_le {sign : Bool} {other : Decimal}
    (h : (finite negative m e hcanonical).IsRounded sign other.value) :
    (printedDecimal m e).digitCount ≤ other.digitCount := by
  rw [printedDecimal]
  split
  · have hone : (⟨0, 0⟩ : Decimal).digitCount = 1 := rfl
    rw [hone]
    exact Text.length_ofNat_pos other.digits
  · next hnonzero =>
    exact digitCount_shortest_le hcanonical (Nat.pos_of_ne_zero hnonzero) (readsAs_of_isRounded h)

theorem abs_sub_printedDecimal_le {other : Decimal}
    (hcount : other.digitCount = (printedDecimal m e).digitCount)
    (h : (finite negative m e hcanonical).IsRounded negative other.value) :
    |(finite negative m e hcanonical).value - signed negative (printedDecimal m e).value| ≤
      |(finite negative m e hcanonical).value - signed negative other.value| := by
  rw [abs_value_sub_signed_decimal, abs_value_sub_signed_decimal]
  rw [printedDecimal] at hcount ⊢
  split
  · next hzero =>
    have hown : (ownDecimal m e).value = 0 := by
      rw [value_ownDecimal, hzero, Nat.zero_mul, Nat.cast_zero, zero_div]
    rw [hown, Decimal.value, Nat.cast_zero, zero_mul, sub_zero, abs_zero]
    exact abs_nonneg _
  · next hnonzero =>
    rw [if_neg hnonzero] at hcount
    exact abs_shortest_sub_le_of_digitCount_eq hcanonical (Nat.pos_of_ne_zero hnonzero)
      (readsAs_of_isRounded h) hcount

end

/-! ### Whole numbers -/

section

variable {x : Double} {n : ℤ}

theorem units_of_value_eq (h : x.value = n) : x.units = n.natAbs * unitsPerOne := by
  have habs : (x.units : ℚ) / unitsPerOne = n.natAbs := by
    rw [← abs_value, h, Nat.cast_natAbs, Int.cast_abs]
  rw [div_eq_iff unitsPerOne_pos.ne', ← Nat.cast_mul] at habs
  exact Nat.cast_injective habs

/-- Only a zero can have another sign than the whole number that it is. -/
theorem isNegative_and_units_ne_zero (h : x.value = n) :
    (x.isNegative && x.units != 0) = decide (n < 0) := by
  have hunits := units_of_value_eq h
  have hzero : x.units = 0 ↔ n = 0 := by
    rw [hunits, Nat.mul_eq_zero, or_iff_left zero_lt_unitsPerOne.ne', Int.natAbs_eq_zero]
  have hsigned : signed x.isNegative |(n : ℚ)| = n := by rw [← h, abs_value, ← value_eq]
  have habs := abs_nonneg (n : ℚ)
  rw [Bool.eq_iff_iff, Bool.and_eq_true, bne_iff_ne, ne_eq, hzero, decide_eq_true_iff]
  cases hsign : x.isNegative with
  | false =>
    rw [hsign, signed, if_neg (by decide)] at hsigned
    rw [hsigned, Int.cast_nonneg_iff] at habs
    simp only [Bool.false_eq_true, false_and, false_iff]
    omega
  | true =>
    rw [hsign, signed, if_pos rfl] at hsigned
    have hle : (n : ℚ) ≤ 0 := by linarith
    rw [Int.cast_nonpos] at hle
    simp only [true_and]
    omega

theorem literalText_of_value_eq (hfinite : x.isFinite = true) (h : x.value = n) :
    x.literalText = Text.ofInt n := by
  have hunits := units_of_value_eq h
  have hintegral : x.isIntegral = true :=
    isIntegral_iff.mpr ⟨hfinite, by rw [hunits, Nat.mul_mod_left]⟩
  rw [literalText, if_pos hintegral, wholeText, isNegative_and_units_ne_zero h, hunits,
    Nat.mul_div_cancel _ zero_lt_unitsPerOne, Text.ofInt]
  by_cases hnegative : n < 0
  · simp [hnegative, signText]
  · simp [hnegative, signText]

/-- A whole number reads as the number with its value, whatever the sign. -/
theorem read_natAbs {negative sign : Bool} {m e : Nat} {hcanonical : Canonical m e}
    (h : (finite negative m e hcanonical).value = n) :
    (⟨n.natAbs, 0⟩ : Decimal).read sign = finite sign m e hcanonical := by
  have hvalue : (⟨n.natAbs, 0⟩ : Decimal).value = (ownDecimal m e).value := by
    have habs : |(finite negative m e hcanonical).value| = (ownDecimal m e).value := by
      rw [abs_value, value_ownDecimal, units]
    rw [← habs, h, Decimal.value, zpow_zero, mul_one, Nat.cast_natAbs, Int.cast_abs]
  rw [Decimal.read_congr sign hvalue]
  exact read_of_searchDown sign hcanonical 0 0

/-- All but the sign of a zero is read. -/
theorem read_whole (hfinite : x.isFinite = true) (h : x.value = n) :
    (⟨n.natAbs, 0⟩ : Decimal).read (decide (n < 0)) = x.plain := by
  rw [← isNegative_and_units_ne_zero h]
  cases x with
  | nan => cases hfinite
  | infinity negative => cases hfinite
  | finite negative m e hcanonical =>
    rw [read_natAbs h, plain]
    split
    · next hzero =>
      have hunits : (finite negative m e hcanonical).units = 0 := by
        rw [units, beq_iff_eq.mp hzero, Nat.zero_mul]
      simp only [hunits, bne_self_eq_false, Bool.and_false]
      exact eq_zero_of_units_eq_zero hunits
    · next hnonzero =>
      have hunits : (finite negative m e hcanonical).units ≠ 0 := by
        refine Nat.mul_ne_zero ?_ (Nat.two_pow_pos e).ne'
        rintro rfl
        exact hnonzero rfl
      have hsign : ((finite negative m e hcanonical).isNegative &&
          (finite negative m e hcanonical).units != 0) = negative := by
        rw [bne_iff_ne.mpr hunits, Bool.and_true, isNegative]
      simp only [hsign]

theorem run_number_whole (negative : Bool) (n : Nat) :
    Grammar.Rule.number.run (signText negative ++ Text.ofNat n) =
      .success (.tree (.literal ((⟨n, 0⟩ : Decimal).read negative))) [] := by
  have hderives := Grammar.Derives.numeral (sign_signText negative) (isDigits_ofNat n) .none
  rw [List.append_nil, List.append_nil, Text.digitsValue_ofNat] at hderives
  obtain ⟨x, rest, hscan, hlongest⟩ := Grammar.scanNumber_longest
    ⟨_, (List.append_nil (signText negative ++ Text.ofNat n)).symm, hderives⟩
  rw [Grammar.run_number, hscan]
  rcases hlongest with ⟨htree, rfl⟩ | ⟨hlonger, -⟩
  · obtain rfl := Expr.literal.inj htree
    rfl
  · exact absurd hlonger (Nat.not_lt_zero _)

end

/-! ### Everything that is printed -/

/-- What is printed of a finite number in full writes a decimal that rounds to the number and reads
back to it with its sign, no decimal with fewer digits rounds to it, and none with as many is closer
to it. A number without a fraction is printed as a literal in all its digits, and reads back as well,
though without the sign of a zero. -/
theorem printed_loses_nothing {x : Double} (hfinite : x.isFinite = true) :
    (∃ printed : Decimal, ∃ text, x.shown? none = some text ∧
      Writes text x.isNegative printed.value ∧ x.IsRounded x.isNegative printed.value ∧
      read? text = some x ∧
      (∀ sign (other : Decimal), x.IsRounded sign other.value →
        printed.digitCount ≤ other.digitCount) ∧
      ∀ sign (other : Decimal), x.IsRounded sign other.value →
        other.digitCount = printed.digitCount →
        |x.value - signed x.isNegative printed.value| ≤ |x.value - signed sign other.value|) ∧
    ∀ n : ℤ, x.value = n → (Expr.literal x).text = Text.ofInt n ∧
      read? (Text.ofInt n) = some x.plain ∧
      Grammar.Rule.number.run (Text.ofInt n) = .success (.tree (.literal x.plain)) [] := by
  refine ⟨?_, fun n hvalue => ?_⟩
  · cases x with
    | nan => cases hfinite
    | infinity negative => cases hfinite
    | finite negative m e hcanonical =>
      refine ⟨printedDecimal m e, _, rfl, writes_fullText, isRounded_printedDecimal,
        read?_fullText _, fun _ _ => digitCount_printedDecimal_le, fun sign other hrounded hcount => ?_⟩
      obtain rfl : negative = sign := hrounded.sign
      exact abs_sub_printedDecimal_le hcount hrounded
  · have hsign : Text.ofInt n = signText (decide (n < 0)) ++ Text.ofNat n.natAbs := by
      rw [Text.ofInt, signText]
      simp only [decide_eq_true_eq]
    refine ⟨literalText_of_value_eq hfinite hvalue, ?_, ?_⟩
    · rw [hsign, read?_whole, read_whole hfinite hvalue]
    · rw [hsign, run_number_whole, read_whole hfinite hvalue]

theorem canonical_least : Canonical 1 0 := by decide

/-- The least positive number, whose decimal has a single digit, and negative zero. -/
theorem printed_loses_nothing_least :
    (finite false 1 0 canonical_least).isFinite = true ∧
    (finite false 1 0 canonical_least).shown? none = some "5e-324".toList ∧
    (∃ printed : Decimal, Writes "5e-324".toList false printed.value ∧
      ∀ sign (other : Decimal), (finite false 1 0 canonical_least).IsRounded sign other.value →
        printed.digitCount ≤ other.digitCount) ∧
    (zero true).isFinite = true ∧ (zero true).value = (0 : ℤ) ∧
    (zero true).shown? none = some "-0.0".toList ∧
    (Expr.literal (zero true)).text = "0".toList ∧ read? "0".toList = some (zero false) := by
  have hfinite : (finite false 1 0 canonical_least).isFinite = true := rfl
  have hfinite' : (zero true).isFinite = true := rfl
  have hshown : (finite false 1 0 canonical_least).shown? none = some "5e-324".toList := by
    decide +kernel
  obtain ⟨⟨printed, text, htext, hwrites, -, -, hfewest, -⟩, -⟩ :=
    printed_loses_nothing hfinite
  rw [hshown] at htext
  obtain rfl := Option.some.inj htext
  have hzero : (zero true).value = (0 : ℤ) := by
    rw [value_eq, units_zero, Nat.cast_zero, zero_div, signed_zero, Int.cast_zero]
  obtain ⟨-, hwhole⟩ := printed_loses_nothing hfinite'
  obtain ⟨hliteral, hread, -⟩ := hwhole 0 hzero
  exact ⟨hfinite, hshown, ⟨printed, hwrites, hfewest⟩, hfinite', hzero, rfl, hliteral, hread⟩

end Reckoner.Double
