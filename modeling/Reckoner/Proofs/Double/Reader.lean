import Reckoner.Double.Reader
import Reckoner.Proofs.Double.Nearest
import Reckoner.Proofs.Double.Printer
import Reckoner.Proofs.Grammar.Number

/-!
# Printed numbers read back

The reader takes decimals with any exponent, and where the exponent is too large to raise ten to,
what it answers instead is what rounding would give. Both ways of writing a decimal are read as that
decimal, so a number printed in full reads back to itself, and a printed literal to itself up to the
sign of a zero. Two literals that are printed alike are therefore the same up to that sign.
-/

namespace Reckoner.Double

open Grammar (IsDigits Fraction digits_run_of_end digits_run_of_point splitSign_append)

/-! ### Large and small exponents -/

theorem read_zero_digits (negative : Bool) (exponent : Int) :
    (⟨0, exponent⟩ : Decimal).read negative = zero negative := by
  have hvalue : (⟨0, exponent⟩ : Decimal).value = 0 := by
    rw [Decimal.value, Nat.cast_zero, zero_mul]
  have hrounded := isRounded_read negative ⟨0, exponent⟩
  rw [hvalue] at hrounded
  exact hrounded.zero

/-- From some power of ten on, every decimal overflows. -/
theorem read_of_exponent_ge (negative : Bool) {digits n : Nat} {exponent : Int}
    (hdigits : 0 < digits) (hn : 1024 ≤ 3 * n) (h : n ≤ exponent) :
    (⟨digits, exponent⟩ : Decimal).read negative = infinity negative := by
  refine (isRounded_read negative ⟨digits, exponent⟩).overflow ?_
  have hone : (1 : ℚ) ≤ digits := by exact_mod_cast hdigits
  calc (2 : ℚ) ^ 1024 - 2 ^ 970
      ≤ 2 ^ 1024 := sub_le_self _ (pow_nonneg zero_le_two 970)
    _ ≤ 2 ^ (3 * n) := pow_le_pow_right₀ one_le_two hn
    _ = (2 ^ 3) ^ n := pow_mul 2 3 n
    _ ≤ 10 ^ n := pow_le_pow_left₀ (by norm_num) (by norm_num) n
    _ = 10 ^ (n : ℤ) := (zpow_natCast 10 n).symm
    _ ≤ 10 ^ exponent := zpow_le_zpow_right₀ (by decide) h
    _ ≤ digits * 10 ^ exponent := le_mul_of_one_le_left (by positivity) hone

/-- Behind some place every decimal is less than half a unit. -/
theorem read_of_leading_lt (negative : Bool) {decimal : Decimal} {n : Nat}
    (hn : 2 * unitsPerOne < 10 ^ n) (h : decimal.leading < -n) :
    decimal.read negative = zero negative := by
  have hvalue : decimal.value * 10 ^ n < 1 := by
    have hpower : (10 : ℚ) ^ (decimal.leading + 1) * 10 ^ n ≤ 1 := by
      rw [← zpow_natCast 10 n, ← zpow_add₀ (by decide)]
      exact zpow_le_one_of_nonpos₀ (by decide) (by omega)
    refine lt_of_lt_of_le ?_ hpower
    exact mul_lt_mul_of_pos_right (Decimal.value_lt_zpow decimal) (by positivity)
  have hunits : 2 * (unitsPerOne : ℚ) ≤ 10 ^ n := by exact_mod_cast hn.le
  have hnonneg : 0 ≤ decimal.value := mul_nonneg (Nat.cast_nonneg _) (by positivity)
  refine (isRounded_read negative decimal).eq_zero hnonneg ?_
  calc 2 * decimal.value * unitsPerOne
      = decimal.value * (2 * unitsPerOne) := by ring
    _ ≤ decimal.value * 10 ^ n := mul_le_mul_of_nonneg_left hunits hnonneg
    _ < 1 := hvalue

/-- What is answered without raising ten to the exponent is what rounding would give. -/
theorem ofScientific_eq_read (negative : Bool) (digits : Nat) (exponent : Int) :
    ofScientific negative digits exponent = (⟨digits, exponent⟩ : Decimal).read negative := by
  unfold ofScientific
  split
  · next hzero =>
    rw [hzero, read_zero_digits]
  next hpos =>
  split
  · next hlarge =>
    exact (read_of_exponent_ge negative (n := 400) (Nat.pos_of_ne_zero hpos) (by decide)
      (Int.le_of_lt hlarge)).symm
  split
  · next hsmall =>
    refine (read_of_leading_lt negative (n := 400) (by decide +kernel) ?_).symm
    change exponent + (Text.ofNat digits).length - 1 < -400
    omega
  · rfl

/-! ### Digits, a point and an exponent -/

/-- Digits that nothing but an exponent follows are read as the decimal they stand for. -/
theorem ofDigits?_eq (negative : Bool) {whole point fraction tail : Text} {exponent : Int}
    (hwhole : IsDigits whole) (hpoint : Fraction point fraction)
    (htail : ∀ c more, tail = c :: more → Text.isDigit c = false ∧ c ≠ '.')
    (hexponent : exponent? tail = some exponent) :
    ofDigits? negative (whole ++ (point ++ tail)) =
      some ((⟨Text.digitsValue (whole ++ fraction), exponent - fraction.length⟩ : Decimal).read
        negative) := by
  have hnonempty : whole.isEmpty = false := by simpa using hwhole.1
  cases hpoint with
  | none =>
    have hall := digits_run_of_end hwhole.2 fun c more hmore => (htail c more hmore).1
    have hnoPoint : ∀ after, tail ≠ '.' :: after := fun after heq => (htail _ _ heq).2 rfl
    simp [ofDigits?, hall, hnonempty, hexponent, ofScientific_eq_read]
  | point hdigits =>
    have hall := digits_run_of_point hwhole.2 (fraction ++ tail)
    have hfraction := digits_run_of_end hdigits.2 fun c more hmore => (htail c more hmore).1
    simp [ofDigits?, hall, hfraction, hnonempty, hexponent, ofScientific_eq_read]

theorem ofDigits?_of_end (negative : Bool) {whole point fraction : Text} (hwhole : IsDigits whole)
    (hpoint : Fraction point fraction) :
    ofDigits? negative (whole ++ point) =
      some ((⟨Text.digitsValue (whole ++ fraction), -fraction.length⟩ : Decimal).read negative) := by
  have hend : ∀ (c : Char) (more : Text), [] = c :: more → Text.isDigit c = false ∧ c ≠ '.' :=
    fun _ _ hmore => nomatch hmore
  have hread := ofDigits?_eq negative hwhole hpoint hend rfl
  rwa [List.append_nil, Int.zero_sub] at hread

theorem isDigits_ofNatPadded (width n : Nat) : IsDigits (Text.ofNatPadded width n) := by
  refine ⟨List.append_ne_nil_of_right_ne_nil _ (isDigits_ofNat n).1, fun c hc => ?_⟩
  rcases List.mem_append.mp hc with hc | hc
  · exact isDigit_of_mem_zeros hc
  · exact (isDigits_ofNat n).2 c hc

theorem digitsValue_ofNatPadded (width n : Nat) :
    Text.digitsValue (Text.ofNatPadded width n) = n := by
  rw [Text.ofNatPadded, Text.digitsValue_append, Text.digitsValue_zeros, Text.digitsValue_ofNat,
    Nat.zero_mul, Nat.zero_add]

theorem exponent?_exponentText (x : Int) : exponent? (exponentText x) = some x := by
  obtain ⟨hne, hdigits⟩ := isDigits_ofNatPadded 2 x.natAbs
  have hnonempty : (Text.ofNatPadded 2 x.natAbs).isEmpty = false := by simpa using hne
  have hall : (Text.ofNatPadded 2 x.natAbs).all Text.isDigit = true := List.all_eq_true.mpr hdigits
  have hsign : Text.splitSign ((if x < 0 then '-' else '+') :: Text.ofNatPadded 2 x.natAbs) =
      (decide (x < 0), Text.ofNatPadded 2 x.natAbs) := by
    by_cases hnegative : x < 0
    · simp [hnegative, Text.splitSign]
    · simp [hnegative, Text.splitSign]
  have hmagnitude : (if x < 0 then -(x.natAbs : Int) else x.natAbs) = x := by
    split <;> omega
  simp only [exponentText, exponent?, hsign, hall, hnonempty, digitsValue_ofNatPadded,
    decide_eq_true_eq, hmagnitude]
  rfl

/-- The mark of an exponent is neither a digit nor a point. -/
theorem exponentText_ends (x : Int) (c : Char) (more : Text) (h : exponentText x = c :: more) :
    Text.isDigit c = false ∧ c ≠ '.' := by
  obtain rfl := (List.cons.inj h).1
  decide

theorem ofDigits?_scientificText (negative : Bool) (decimal : Decimal) :
    ofDigits? negative (scientificText (Text.ofNat decimal.digits) decimal.leading) =
      some (decimal.read negative) := by
  have hleading : decimal.leading = decimal.exponent + (Text.ofNat decimal.digits).length - 1 := rfl
  obtain ⟨whole, point, fraction, htext, hwhole, hpoint, hdigits, hone⟩ :=
    scientificText_eq (isDigits_ofNat decimal.digits) decimal.leading
  have hlength := congrArg List.length hdigits
  rw [List.length_append, hone] at hlength
  have hexponent : decimal.leading - fraction.length = decimal.exponent := by omega
  rw [htext, ofDigits?_eq negative hwhole hpoint (exponentText_ends _) (exponent?_exponentText _),
    hdigits, Text.digitsValue_ofNat, hexponent]

theorem ofDigits?_decimalText (negative : Bool) (decimal : Decimal) :
    ofDigits? negative (decimalText decimal) = some (decimal.read negative) := by
  rw [decimalText_eq]
  split
  · obtain ⟨whole, fraction, htext, hwhole, hfraction, hvalue⟩ := positionalText_writesOut decimal
    rw [htext, ofDigits?_of_end negative hwhole (.point hfraction),
      Decimal.read_congr negative hvalue]
  · exact ofDigits?_scientificText negative decimal

/-! ### Signs and words -/

theorem dropWhile_isBlank {text : Text} (h : text ⊆ printedCharacters) :
    text.dropWhile Text.isBlank = text := by
  have hcharacters : printedCharacters.all (!Text.isBlank ·) = true := by decide
  cases text with
  | nil => rfl
  | cons c rest =>
    have hc := List.all_eq_true.mp hcharacters c (h List.mem_cons_self)
    rw [List.dropWhile_cons_of_neg (by simpa using hc)]

theorem trim_printed {text : Text} (h : text ⊆ printedCharacters) : Text.trim text = text := by
  have hreverse : text.reverse ⊆ printedCharacters := fun c hc => h (List.mem_reverse.mp hc)
  rw [Text.trim, dropWhile_isBlank h, dropWhile_isBlank hreverse, List.reverse_reverse]

theorem ungrouped?_printed {text : Text} (h : text ⊆ printedCharacters) :
    Text.ungrouped? text = some text := by
  have hgo : ∀ afterDigit, Text.ungrouped?.go afterDigit text = some text := by
    induction text with
    | nil => exact fun _ => rfl
    | cons c rest ih =>
      intro afterDigit
      rw [List.cons_subset] at h
      have hc : c ≠ '_' := by
        rintro rfl
        exact absurd h.1 (by decide)
      simp [Text.ungrouped?.go, hc, ih h.2]
  exact hgo false

/-- No word starts with a digit. -/
theorem ofWord?_of_isDigit (negative : Bool) {c : Char} {rest : Text} (hc : c ∈ printedCharacters)
    (hdigit : Text.isDigit c = true) : ofWord? negative (c :: rest) = none := by
  have hcharacters : printedCharacters.all (fun c => !Text.isDigit c ||
      (c.toLower != 'n' && c.toLower != 'i')) = true := by decide
  have hletter : c.toLower ≠ 'n' ∧ c.toLower ≠ 'i' := by
    simpa [hdigit] using List.all_eq_true.mp hcharacters c hc
  have hlower : (String.ofList (c :: rest)).toLower.toList = c.toLower :: rest.map Char.toLower := by
    show ((String.ofList (c :: rest)).map Char.toLower).toList = _
    rw [String.toList_map, String.toList_ofList, List.map_cons]
  unfold ofWord?
  split
  · next hword =>
    rw [hword] at hlower
    exact absurd (List.cons.inj hlower).1.symm hletter.1
  · next hword =>
    rw [hword] at hlower
    exact absurd (List.cons.inj hlower).1.symm hletter.2
  · next hword =>
    rw [hword] at hlower
    exact absurd (List.cons.inj hlower).1.symm hletter.2
  · rfl

theorem splitSign_signText (negative : Bool) {c : Char} {rest : Text}
    (hdigit : Text.isDigit c = true) :
    Text.splitSign (signText negative ++ c :: rest) = (negative, c :: rest) := by
  have hdigits : IsDigits [c] := ⟨List.cons_ne_nil _ _, by simpa using hdigit⟩
  exact splitSign_append (sign_signText negative) hdigits rest

/-- With a digit first, the sign is all that is not left to the digits. -/
theorem read?_signText (negative : Bool) {body : Text} (hbody : body ⊆ printedCharacters)
    (hfirst : ∃ c rest, body = c :: rest ∧ Text.isDigit c = true) :
    read? (signText negative ++ body) = ofDigits? negative body := by
  obtain ⟨c, rest, rfl, hdigit⟩ := hfirst
  have hprinted := List.append_subset.mpr ⟨signText_subset negative, hbody⟩
  have hc : c ∈ printedCharacters := hbody List.mem_cons_self
  simp [read?, trim_printed hprinted, splitSign_signText negative hdigit,
    ofWord?_of_isDigit negative hc hdigit, ungrouped?_printed hbody]

theorem startsWithDigit_of_isDigits {whole : Text} (h : IsDigits whole) (rest : Text) :
    ∃ c more, whole ++ rest = c :: more ∧ Text.isDigit c = true := by
  obtain ⟨hne, hdigits⟩ := h
  obtain ⟨c, more, rfl⟩ := List.exists_cons_of_ne_nil hne
  exact ⟨c, more ++ rest, rfl, hdigits c List.mem_cons_self⟩

theorem startsWithDigit_decimalText (decimal : Decimal) :
    ∃ c more, decimalText decimal = c :: more ∧ Text.isDigit c = true := by
  rw [decimalText_eq]
  split
  · obtain ⟨whole, fraction, htext, hwhole, -⟩ := positionalText_writesOut decimal
    rw [htext]
    exact startsWithDigit_of_isDigits hwhole _
  · obtain ⟨whole, point, fraction, htext, hwhole, -⟩ :=
      scientificText_eq (isDigits_ofNat decimal.digits) decimal.leading
    rw [htext]
    exact startsWithDigit_of_isDigits hwhole _

/-! ### Reading back -/

/-- A number printed in full reads back to itself. -/
theorem read?_fullText (x : Double) : read? x.fullText = some x := by
  cases x with
  | nan => decide +kernel
  | infinity negative =>
    cases negative with
    | false => decide +kernel
    | true => decide +kernel
  | finite negative m e hcanonical =>
    rw [fullText]
    split
    · next hzero =>
      have hunits : (finite negative m e hcanonical).units = 0 := by rw [units, hzero, Nat.zero_mul]
      rw [eq_zero_of_units_eq_zero hunits]
      cases negative with
      | false => decide +kernel
      | true => decide +kernel
    · rw [read?_signText negative (decimalText_subset _) (startsWithDigit_decimalText _),
        ofDigits?_decimalText, read_shortest negative hcanonical]

/-- A whole number reads as the decimal without an exponent. -/
theorem read?_whole (negative : Bool) (n : Nat) :
    read? (signText negative ++ Text.ofNat n) = some ((⟨n, 0⟩ : Decimal).read negative) := by
  have hwhole := isDigits_ofNat n
  have hfirst := startsWithDigit_of_isDigits hwhole []
  have hread := ofDigits?_of_end negative hwhole .none
  rw [List.append_nil] at hfirst hread
  rw [Text.digitsValue_ofNat] at hread
  rw [read?_signText negative (ofNat_subset n) hfirst]
  exact hread

/-- The number without the sign of a zero, which is all that a printed literal does not show. -/
def plain (x : Double) : Double := if x.isZero then zero false else x

theorem natAbs_signedUnits (x : Double) : x.signedUnits.natAbs = x.units := by
  rw [signedUnits]
  split
  · rw [Int.natAbs_neg, Int.natAbs_natCast]
  · rw [Int.natAbs_natCast]

theorem plain_eq_of_equals {x y : Double} (h : x.equals y = true) : x.plain = y.plain := by
  cases x with
  | nan => cases h
  | infinity negative =>
    cases y with
    | nan => cases h
    | infinity negative' => rw [beq_iff_eq.mp h]
    | finite => cases h
  | finite negative m e hcanonical =>
    cases y with
    | nan => cases h
    | infinity => cases h
    | finite negative' m' e' hcanonical' =>
      have hsigned : (finite negative m e hcanonical).signedUnits =
          (finite negative' m' e' hcanonical').signedUnits := beq_iff_eq.mp h
      have hunits : m * Nat.pow 2 e = m' * Nat.pow 2 e' := by
        have habs := congrArg Int.natAbs hsigned
        rwa [natAbs_signedUnits, natAbs_signedUnits] at habs
      obtain ⟨rfl, rfl⟩ := eq_of_units_eq hcanonical hcanonical' hunits
      rcases Nat.eq_zero_or_pos m with rfl | hpos
      · rfl
      · have hpositive : 0 < m * Nat.pow 2 e := Nat.mul_pos hpos (Nat.two_pow_pos e)
        obtain rfl : negative = negative' := by
          simp only [signedUnits, isNegative, units] at hsigned
          generalize m * Nat.pow 2 e = magnitude at hsigned hpositive
          cases negative <;> cases negative' <;> simp at hsigned ⊢ <;> omega
        rfl

/-- What the sign of a zero does not change. -/
theorem plain_finite (negative : Bool) {m e : Nat} (hcanonical : Canonical m e) :
    ∃ negative', (finite negative m e hcanonical).plain = finite negative' m e hcanonical ∧
      (finite negative' m e hcanonical).signedUnits =
        (finite negative m e hcanonical).signedUnits := by
  rw [plain]
  split
  · next hzero =>
    have hunits : ∀ sign, (finite sign m e hcanonical).units = 0 := by
      intro sign
      rw [units, beq_iff_eq.mp hzero, Nat.zero_mul]
    refine ⟨false, (eq_zero_of_units_eq_zero (hunits false)).symm, ?_⟩
    simp [signedUnits, hunits]
  · exact ⟨negative, rfl, rfl⟩

/-- Numbers are equal exactly if they are the same up to the sign of zeros and not `nan`. -/
theorem equals_iff_plain_eq {x y : Double} (hnumber : x.isNaN = false) :
    x.equals y = true ↔ x.plain = y.plain := by
  refine ⟨plain_eq_of_equals, fun h => ?_⟩
  cases x with
  | nan => cases hnumber
  | infinity negative =>
    cases y with
    | nan => cases h
    | infinity negative' => exact beq_iff_eq.mpr (infinity.inj h)
    | finite negative' m' e' h' =>
      obtain ⟨sign, hplain, -⟩ := plain_finite negative' h'
      rw [hplain] at h
      cases h
  | finite negative m e hcanonical =>
    obtain ⟨sign, hplain, hsigned⟩ := plain_finite negative hcanonical
    rw [hplain] at h
    cases y with
    | nan => cases h
    | infinity negative' => cases h
    | finite negative' m' e' h' =>
      obtain ⟨sign', hplain', hsigned'⟩ := plain_finite negative' h'
      rw [hplain'] at h
      obtain ⟨rfl, rfl, rfl⟩ := finite.inj h
      exact equals_of_signedUnits (hsigned.symm.trans hsigned')

theorem read?_literalText (x : Double) :
    ∃ y, read? x.literalText = some y ∧ y.plain = x.plain := by
  cases hintegral : x.isIntegral with
  | false =>
    rw [literalText, hintegral, if_neg (by decide)]
    exact ⟨x, read?_fullText x, rfl⟩
  | true =>
    obtain ⟨negative, n, htext, hequals⟩ := literalText_of_isIntegral hintegral
    exact ⟨_, by rw [htext, read?_whole], plain_eq_of_equals hequals⟩

theorem literalText_plain (x : Double) : x.plain.literalText = x.literalText := by
  rw [plain]
  split
  · next hzero =>
    cases x with
    | nan => cases hzero
    | infinity negative => cases hzero
    | finite negative m e hcanonical =>
      have hunits : (finite negative m e hcanonical).units = 0 := by
        rw [units, beq_iff_eq.mp hzero, Nat.zero_mul]
      rw [eq_zero_of_units_eq_zero hunits]
      cases negative with
      | false => rfl
      | true => decide +kernel
  · rfl

/-- Printed literals are the same exactly if the numbers are, up to the sign of zeros. -/
theorem literalText_eq_iff {x y : Double} : x.literalText = y.literalText ↔ x.plain = y.plain := by
  constructor
  · intro h
    obtain ⟨x', hx, hplain⟩ := read?_literalText x
    obtain ⟨y', hy, hplain'⟩ := read?_literalText y
    rw [h, hy] at hx
    obtain rfl := Option.some.inj hx
    rw [← hplain, hplain']
  · intro h
    rw [← literalText_plain, h, literalText_plain]

end Reckoner.Double
