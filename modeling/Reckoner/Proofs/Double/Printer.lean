import Mathlib.Data.List.Basic
import Reckoner.Expression.Printer
import Reckoner.Proofs.Double.Shortest
import Reckoner.Proofs.Grammar.Derivation

/-!
# Printed numbers

Numbers are printed with few characters, so that whatever holds of each of these holds of every
printed number. A decimal that is written out has digits, a point and digits, and these stand for
the decimal; one that is written with an exponent has a digit right before its mark.
-/

namespace Reckoner.Double

/-! ### The characters -/

/-- The characters that numbers are printed with: digits, signs, the point, the mark of the exponent
and the letters of the two words. -/
def printedCharacters : Text := "0123456789+-.einfa".toList

theorem ofNat_subset (n : Nat) : Text.ofNat n ⊆ printedCharacters := by
  have hcharacters : ∀ code < 58, 48 ≤ code → Char.ofNat code ∈ printedCharacters := by decide
  intro c hc
  obtain ⟨hlow, hhigh⟩ := Text.toNat_of_isDigit (Text.char_isDigit_of_mem_ofNat hc)
  rw [← Char.ofNat_toNat c]
  exact hcharacters c.toNat (by omega) hlow

theorem zeros_subset (count : Nat) : List.replicate count '0' ⊆ printedCharacters := by
  intro c hc
  obtain rfl := List.eq_of_mem_replicate hc
  decide

theorem ofNatPadded_subset (width n : Nat) : Text.ofNatPadded width n ⊆ printedCharacters :=
  List.append_subset.mpr ⟨zeros_subset _, ofNat_subset n⟩

theorem signText_subset (negative : Bool) : signText negative ⊆ printedCharacters := by
  cases negative with
  | false => exact List.nil_subset _
  | true => decide

theorem positionalText_subset {digits : Text} (h : digits ⊆ printedCharacters) (x : Int) :
    positionalText digits x ⊆ printedCharacters := by
  have hzero : '0' ∈ printedCharacters := by decide
  have hpoint : '.' ∈ printedCharacters := by decide
  cases x with
  | ofNat n =>
    have hwhole := List.Subset.trans (List.take_subset (n + 1) digits) h
    have hfraction := List.Subset.trans (List.drop_subset (n + 1) digits) h
    rw [positionalText]
    split
    · simp [hwhole, zeros_subset, hpoint, hzero]
    · simp [hwhole, zeros_subset, hpoint, hfraction]
  | negSucc n => simp [positionalText, hzero, hpoint, zeros_subset, h]

theorem exponentText_subset (x : Int) : exponentText x ⊆ printedCharacters := by
  have hmark : 'e' ∈ printedCharacters := by decide
  have hsign : (if x < 0 then '-' else '+') ∈ printedCharacters := by
    split
    · decide
    · decide
  exact List.cons_subset.mpr ⟨hmark, List.cons_subset.mpr ⟨hsign, ofNatPadded_subset _ _⟩⟩

theorem scientificText_subset {digits : Text} (h : digits ⊆ printedCharacters) (x : Int) :
    scientificText digits x ⊆ printedCharacters := by
  have hpoint : '.' ∈ printedCharacters := by decide
  unfold scientificText
  split
  · exact exponentText_subset x
  · next d =>
    rw [List.cons_subset] at h ⊢
    exact ⟨h.1, exponentText_subset x⟩
  · next d rest _ =>
    rw [List.cons_subset] at h
    simp [h.1, h.2, hpoint, exponentText_subset]

theorem decimalText_subset (decimal : Decimal) : decimalText decimal ⊆ printedCharacters := by
  unfold decimalText
  dsimp only
  split
  · exact positionalText_subset (ofNat_subset _) _
  · exact scientificText_subset (ofNat_subset _) _

theorem fullText_subset (x : Double) : x.fullText ⊆ printedCharacters := by
  cases x with
  | nan => decide
  | infinity negative => exact List.append_subset.mpr ⟨signText_subset negative, by decide⟩
  | finite negative m e h =>
    refine List.append_subset.mpr ⟨signText_subset negative, ?_⟩
    split
    · decide
    · exact decimalText_subset _

theorem placesText_subset (places scaled : Nat) :
    placesText places scaled ⊆ printedCharacters := by
  have hdigits := ofNatPadded_subset (places + 1) scaled
  unfold placesText
  dsimp only
  split
  · exact List.Subset.trans (List.take_subset _ _) hdigits
  · refine List.append_subset.mpr ⟨List.Subset.trans (List.take_subset _ _) hdigits, ?_⟩
    exact List.cons_subset.mpr ⟨by decide, List.Subset.trans (List.drop_subset _ _) hdigits⟩

theorem fixedText?_subset {places : Nat} {x : Double} {text : Text}
    (h : x.fixedText? places = some text) : text ⊆ printedCharacters := by
  unfold fixedText? at h
  split at h
  · cases h
  · obtain rfl := Option.some.inj h
    split
    · decide
    · exact List.append_subset.mpr ⟨signText_subset _, by decide⟩
    · exact List.append_subset.mpr ⟨signText_subset _, placesText_subset _ _⟩

theorem shown?_subset {places : Option Nat} {x : Double} {text : Text}
    (h : x.shown? places = some text) : text ⊆ printedCharacters := by
  cases places with
  | none =>
    obtain rfl := Option.some.inj h
    exact fullText_subset x
  | some places => exact fixedText?_subset h

theorem literalText_subset (x : Double) : x.literalText ⊆ printedCharacters := by
  rw [literalText]
  split
  · exact List.append_subset.mpr ⟨signText_subset _, ofNat_subset _⟩
  · exact fullText_subset x

/-! ### Decimals written out -/

open Grammar (IsDigits Fraction Sign)

theorem sign_signText (negative : Bool) : Sign (signText negative) negative := by
  cases negative with
  | false => exact .none
  | true => exact .minus

/-- The text has digits, a point and digits, which together stand for the decimal. -/
def WritesOut (text : Text) (decimal : Decimal) : Prop :=
  ∃ whole fraction, text = whole ++ '.' :: fraction ∧ IsDigits whole ∧ IsDigits fraction ∧
    (⟨Text.digitsValue (whole ++ fraction), -fraction.length⟩ : Decimal).value = decimal.value

theorem isDigits_append {before after : Text} (hbefore : IsDigits before)
    (hafter : ∀ c ∈ after, Text.isDigit c = true) : IsDigits (before ++ after) := by
  refine ⟨fun hnil => hbefore.1 (List.append_eq_nil_iff.mp hnil).1, fun c hc => ?_⟩
  rcases List.mem_append.mp hc with hc | hc
  · exact hbefore.2 c hc
  · exact hafter c hc

theorem isDigit_of_mem_zeros {count : Nat} {c : Char} (h : c ∈ List.replicate count '0') :
    Text.isDigit c = true := by
  obtain rfl := List.eq_of_mem_replicate h
  decide

theorem isDigits_ofNat (n : Nat) : IsDigits (Text.ofNat n) :=
  ⟨Nat.toDigits_ne_nil, fun _ => Text.isDigit_of_mem_ofNat⟩

section

variable (decimal : Decimal) {n : Nat}

/-- With the point among the digits, none are added. -/
theorem writesOut_inside (hleading : decimal.leading = n)
    (hlength : n + 1 < (Text.ofNat decimal.digits).length) :
    WritesOut (positionalText (Text.ofNat decimal.digits) (.ofNat n)) decimal := by
  have hwhole : ((Text.ofNat decimal.digits).take (n + 1)).length = n + 1 := by
    rw [List.length_take]
    omega
  have hfraction : (Text.ofNat decimal.digits).drop (n + 1) ≠ [] := by
    rw [ne_eq, List.drop_eq_nil_iff]
    omega
  refine ⟨(Text.ofNat decimal.digits).take (n + 1), (Text.ofNat decimal.digits).drop (n + 1),
    ?_, ⟨?_, fun c hc => ?_⟩, ⟨hfraction, fun c hc => ?_⟩, ?_⟩
  · simp [positionalText, hwhole, hfraction]
  · rw [← List.length_pos_iff, hwhole]
    exact Nat.succ_pos n
  · exact Text.isDigit_of_mem_ofNat (List.mem_of_mem_take hc)
  · exact Text.isDigit_of_mem_ofNat (List.mem_of_mem_drop hc)
  · have hexponent : -(((Text.ofNat decimal.digits).length - (n + 1) : ℕ) : ℤ) =
        decimal.exponent := by
      rw [Decimal.leading] at hleading
      omega
    rw [List.take_append_drop, Text.digitsValue_ofNat, List.length_drop, hexponent]

/-- With the point behind the digits, zeros lead up to it and one follows. -/
theorem writesOut_behind (hleading : decimal.leading = n)
    (hlength : (Text.ofNat decimal.digits).length ≤ n + 1) :
    WritesOut (positionalText (Text.ofNat decimal.digits) (.ofNat n)) decimal := by
  obtain ⟨zeros, hzeros⟩ := Nat.exists_eq_add_of_le hlength
  have hexponent : decimal.exponent = zeros := by
    rw [Decimal.leading] at hleading
    omega
  refine ⟨Text.ofNat decimal.digits ++ List.replicate zeros '0', ['0'], ?_,
    isDigits_append (isDigits_ofNat _) fun _ => isDigit_of_mem_zeros,
    ⟨List.cons_ne_nil _ _, fun c hc => ?_⟩, ?_⟩
  · simp [positionalText, hzeros]
  · obtain rfl := List.mem_singleton.mp hc
    decide
  · rw [List.append_assoc, ← List.replicate_succ', Text.digitsValue_append,
      Text.digitsValue_ofNat, Text.digitsValue_zeros, List.length_replicate, Decimal.value,
      Decimal.value, hexponent]
    simp [pow_succ, mul_assoc]

/-- With the point before the digits, zeros lead from it. -/
theorem writesOut_before (hleading : decimal.leading = .negSucc n) :
    WritesOut (positionalText (Text.ofNat decimal.digits) (.negSucc n)) decimal := by
  refine ⟨['0'], List.replicate n '0' ++ Text.ofNat decimal.digits, rfl,
    ⟨List.cons_ne_nil _ _, fun c hc => ?_⟩, ⟨?_, fun c hc => ?_⟩, ?_⟩
  · obtain rfl := List.mem_singleton.mp hc
    decide
  · exact List.append_ne_nil_of_right_ne_nil _ Nat.toDigits_ne_nil
  · rcases List.mem_append.mp hc with hc | hc
    · exact isDigit_of_mem_zeros hc
    · exact Text.isDigit_of_mem_ofNat hc
  · have hexponent : -((n + (Text.ofNat decimal.digits).length : ℕ) : ℤ) = decimal.exponent := by
      rw [Decimal.leading] at hleading
      omega
    have hzero : ['0'] ++ (List.replicate n '0' ++ Text.ofNat decimal.digits) =
        List.replicate (n + 1) '0' ++ Text.ofNat decimal.digits := rfl
    rw [hzero, Text.digitsValue_append, Text.digitsValue_zeros, Text.digitsValue_ofNat,
      Nat.zero_mul, Nat.zero_add, List.length_append, List.length_replicate, hexponent]

end

theorem positionalText_writesOut (decimal : Decimal) :
    WritesOut (positionalText (Text.ofNat decimal.digits) decimal.leading) decimal := by
  cases hleading : decimal.leading with
  | ofNat n =>
    rcases Nat.lt_or_ge (n + 1) (Text.ofNat decimal.digits).length with hinside | hbehind
    · exact writesOut_inside decimal hleading hinside
    · exact writesOut_behind decimal hleading hbehind
  | negSucc n => exact writesOut_before decimal hleading

/-- With an exponent, one digit stands before the point, which is there if there are more. -/
theorem scientificText_eq {digits : Text} (h : IsDigits digits) (x : Int) :
    ∃ whole point fraction, scientificText digits x = whole ++ (point ++ exponentText x) ∧
      IsDigits whole ∧ Fraction point fraction ∧ whole ++ fraction = digits ∧
      whole.length = 1 := by
  unfold scientificText
  split
  · exact absurd rfl h.1
  · next d => exact ⟨[d], [], [], rfl, h, .none, rfl, rfl⟩
  · next d rest hmore =>
    have hwhole : IsDigits [d] := ⟨List.cons_ne_nil _ _, by simpa using h.2 d (by simp)⟩
    have hfraction : IsDigits rest := ⟨hmore, fun c hc => h.2 c (by simp [hc])⟩
    exact ⟨[d], '.' :: rest, rest, rfl, hwhole, .point hfraction, rfl, rfl⟩

/-- With an exponent, a digit stands right before its mark. -/
theorem scientificText_mark {digits : Text} (h : IsDigits digits) (x : Int) :
    ∃ before c after, scientificText digits x = before ++ c :: 'e' :: after ∧
      Text.isDigit c = true := by
  unfold scientificText
  split
  · exact absurd rfl h.1
  · next d => exact ⟨[], d, _, rfl, h.2 d List.mem_cons_self⟩
  · next d rest hmore =>
    have hrest : rest ≠ [] := hmore
    have hlast := List.dropLast_append_getLast hrest
    refine ⟨d :: '.' :: rest.dropLast, rest.getLast hrest,
      (if x < 0 then '-' else '+') :: Text.ofNatPadded 2 x.natAbs, ?_,
      h.2 _ (List.mem_cons_of_mem _ (List.getLast_mem hrest))⟩
    conv_lhs => rw [← hlast]
    simp [exponentText]

/-! ### Printed literals -/

theorem equals_of_signedUnits {negative negative' : Bool} {m e m' e' : Nat}
    {h : Canonical m e} {h' : Canonical m' e'}
    (heq : (finite negative m e h).signedUnits = (finite negative' m' e' h').signedUnits) :
    (finite negative m e h).equals (finite negative' m' e' h') = true :=
  beq_iff_eq.mpr heq

theorem isIntegral_iff {x : Double} :
    x.isIntegral = true ↔ x.isFinite = true ∧ x.units % unitsPerOne = 0 := by
  rw [isIntegral, Bool.and_eq_true, beq_iff_eq]

/-- A whole number is printed exactly, though without the sign of a negative zero. -/
theorem literalText_of_isIntegral {x : Double} (h : x.isIntegral = true) :
    ∃ negative n, x.literalText = signText negative ++ Text.ofNat n ∧
      ((⟨n, 0⟩ : Decimal).read negative).equals x = true := by
  have hprinted : x.literalText = x.wholeText := if_pos h
  obtain ⟨hfinite, hwhole⟩ := isIntegral_iff.mp h
  have hunits : x.units / unitsPerOne * unitsPerOne = x.units :=
    Nat.div_mul_cancel (Nat.dvd_of_mod_eq_zero hwhole)
  refine ⟨x.isNegative && x.units != 0, x.units / unitsPerOne, hprinted, ?_⟩
  cases x with
  | nan => cases hfinite
  | infinity negative => cases hfinite
  | finite negative m e hcanonical =>
    rw [units] at hunits
    have hread : ∀ sign, (⟨m * Nat.pow 2 e / unitsPerOne, 0⟩ : Decimal).read sign =
        finite sign m e hcanonical := by
      intro sign
      rw [Decimal.read, ofDecimal_eq]
      refine nearest_exact sign hcanonical Nat.one_pos ?_
      show m * Nat.pow 2 e / unitsPerOne * 1 * unitsPerOne = m * Nat.pow 2 e * 1
      rw [Nat.mul_one, Nat.mul_one, hunits]
    rw [units, hread]
    apply equals_of_signedUnits
    by_cases hzero : m = 0
    · simp [signedUnits, units, hzero]
    · simp [signedUnits, units, isNegative, hzero]

theorem exponent_lt_of_mod_ne_zero {m e k one : Nat} (hone : one = Nat.pow 2 k)
    (h : m * Nat.pow 2 e % one ≠ 0) : e < k := by
  by_contra hlarge
  have hdvd : Nat.pow 2 k ∣ Nat.pow 2 e := Nat.pow_dvd_pow 2 (Nat.le_of_not_lt hlarge)
  rw [hone] at h
  exact h (Nat.mod_eq_zero_of_dvd (Nat.dvd_trans hdvd (Nat.dvd_mul_left _ _)))

/-- A number with a fraction has no digit at the sixteenth power of ten or above. -/
theorem pos_and_lt_of_not_isIntegral {negative : Bool} {m e : Nat} {hcanonical : Canonical m e}
    (h : (finite negative m e hcanonical).isIntegral = false) :
    0 < m ∧ m * Nat.pow 2 e < Nat.pow 10 16 * unitsPerOne := by
  have hfraction : m * Nat.pow 2 e % unitsPerOne ≠ 0 := by
    intro hwhole
    exact Bool.false_ne_true (h.symm.trans (isIntegral_iff.mpr ⟨rfl, hwhole⟩))
  constructor
  · by_contra hzero
    rw [Nat.eq_zero_of_not_pos hzero, Nat.zero_mul] at hfraction
    exact hfraction (Nat.zero_mod _)
  · have hexponent : e < 1074 := exponent_lt_of_mod_ne_zero (by decide +kernel) hfraction
    have hlargest : largestUnits 1073 < Nat.pow 10 16 * unitsPerOne := by decide +kernel
    exact Nat.lt_of_le_of_lt
      (mul_pow_le_largestUnits hcanonical.1 (Nat.le_of_lt_succ hexponent)) hlargest

theorem decimalText_eq (decimal : Decimal) :
    decimalText decimal = if -4 ≤ decimal.leading ∧ decimal.leading < 16 then
      positionalText (Text.ofNat decimal.digits) decimal.leading
    else scientificText (Text.ofNat decimal.digits) decimal.leading :=
  rfl

section

variable {negative : Bool} {m e : Nat} {hcanonical : Canonical m e}

theorem literalText_of_not_isIntegral (h : (finite negative m e hcanonical).isIntegral = false) :
    (finite negative m e hcanonical).literalText =
      signText negative ++ decimalText (shortest m e) := by
  have hnonzero : ¬ m = 0 := Nat.pos_iff_ne_zero.mp (pos_and_lt_of_not_isIntegral h).1
  rw [literalText, h, if_neg (by decide), fullText, if_neg hnonzero]

/-- A number with a fraction that is not below a ten-thousandth is written out. -/
theorem literalText_writesOut (h : (finite negative m e hcanonical).isIntegral = false)
    (hunits : ((⟨1, -4⟩ : Decimal).read false).units ≤ m * Nat.pow 2 e) :
    ∃ text decimal, (finite negative m e hcanonical).literalText = signText negative ++ text ∧
      WritesOut text decimal ∧ decimal.read negative = finite negative m e hcanonical := by
  obtain ⟨hpos, hlarge⟩ := pos_and_lt_of_not_isIntegral h
  have hleading : -4 ≤ (shortest m e).leading ∧ (shortest m e).leading < 16 :=
    ⟨(neg_four_le_leading_iff hcanonical hpos).mpr hunits,
      leading_shortest_lt hcanonical hpos hlarge⟩
  refine ⟨decimalText (shortest m e), shortest m e, literalText_of_not_isIntegral h, ?_,
    read_shortest negative hcanonical⟩
  rw [decimalText_eq, if_pos hleading]
  exact positionalText_writesOut _

/-- Any other number with a fraction has an exponent, behind a digit. -/
theorem literalText_mark (h : (finite negative m e hcanonical).isIntegral = false)
    (hunits : m * Nat.pow 2 e < ((⟨1, -4⟩ : Decimal).read false).units) :
    ∃ before c after, (finite negative m e hcanonical).literalText =
      before ++ c :: 'e' :: after ∧ Text.isDigit c = true := by
  have hpos := (pos_and_lt_of_not_isIntegral h).1
  have hleading : ¬ (-4 ≤ (shortest m e).leading ∧ (shortest m e).leading < 16) := by
    rintro ⟨hle, -⟩
    exact absurd ((neg_four_le_leading_iff hcanonical hpos).mp hle) (Nat.not_le.mpr hunits)
  obtain ⟨before, c, after, htext, hc⟩ :=
    scientificText_mark (isDigits_ofNat (shortest m e).digits) (shortest m e).leading
  refine ⟨signText negative ++ before, c, after, ?_, hc⟩
  rw [literalText_of_not_isIntegral h, decimalText_eq, if_neg hleading, htext, List.append_assoc]

end

end Reckoner.Double
