import Reckoner.Proofs.Grammar.Derivation
import Reckoner.Proofs.Grammar.Within
/-!
# The longest number

The scanner of numbers takes a sign, all digits there are, and a point with all digits there are
behind it, unless there are none. A number that ends earlier therefore ends before a digit or before
a point.
-/

namespace Reckoner.Grammar

/-- The characters that can follow a number that is shorter than it could be. -/
def extendsNumber (c : Char) : Bool := Text.isDigit c || c == '.'

/-- Digits at the front of a text are all there are, or one more follows them. -/
theorem digits_run {digits : Text} (hdigits : ∀ c ∈ digits, Text.isDigit c = true)
    (rest : Text) :
    (digits = (digits ++ rest).takeWhile Text.isDigit ∧
      rest = (digits ++ rest).dropWhile Text.isDigit) ∨
      ((digits ++ rest).dropWhile Text.isDigit).length < rest.length ∧
        ∃ c more, rest = c :: more ∧ Text.isDigit c = true := by
  rw [List.takeWhile_append_of_pos hdigits, List.dropWhile_append_of_pos hdigits]
  cases rest with
  | nil => exact .inl ⟨by simp, rfl⟩
  | cons c more =>
    by_cases hc : Text.isDigit c = true
    · have hlength := (List.dropWhile_suffix (l := more) Text.isDigit).length_le
      refine .inr ⟨?_, c, more, rfl, hc⟩
      rw [List.dropWhile_cons_of_pos hc, List.length_cons]
      omega
    · exact .inl ⟨by simp [hc], by simp [hc]⟩

/-- Digits that no digit follows are all there are. -/
theorem digits_run_of_end {digits : Text} (hdigits : ∀ c ∈ digits, Text.isDigit c = true)
    {rest : Text} (hrest : ∀ c more, rest = c :: more → Text.isDigit c = false) :
    (digits ++ rest).takeWhile Text.isDigit = digits ∧
      (digits ++ rest).dropWhile Text.isDigit = rest := by
  rcases digits_run hdigits rest with ⟨htake, hdrop⟩ | ⟨-, c, more, hmore, hc⟩
  · exact ⟨htake.symm, hdrop.symm⟩
  · rw [hrest c more hmore] at hc
    cases hc

theorem digits_run_of_point {digits : Text} (hdigits : ∀ c ∈ digits, Text.isDigit c = true)
    (after : Text) :
    (digits ++ '.' :: after).takeWhile Text.isDigit = digits ∧
      (digits ++ '.' :: after).dropWhile Text.isDigit = '.' :: after := by
  refine digits_run_of_end hdigits fun c more hmore => ?_
  obtain rfl := (List.cons.inj hmore).1
  decide

/-! ### The sign -/

theorem splitSign_sign (text : Text) :
    ∃ sign, text = sign ++ (Text.splitSign text).2 ∧ Sign sign (Text.splitSign text).1 := by
  unfold Text.splitSign
  split
  · exact ⟨['-'], rfl, .minus⟩
  · exact ⟨['+'], rfl, .plus⟩
  · exact ⟨[], rfl, .none⟩

/-- A sign is not a digit, so there is only one way to take it off the front of a number. -/
theorem splitSign_append {sign whole : Text} {negative : Bool} (hsign : Sign sign negative)
    (hwhole : IsDigits whole) (rest : Text) :
    Text.splitSign (sign ++ (whole ++ rest)) = (negative, whole ++ rest) := by
  cases hsign with
  | plus => rfl
  | minus => rfl
  | none =>
    obtain ⟨hne, hdigits⟩ := hwhole
    cases whole with
    | nil => exact absurd rfl hne
    | cons c more =>
      have hc : Text.isDigit c = true := hdigits c List.mem_cons_self
      have hminus : c ≠ '-' := by
        rintro rfl
        exact absurd hc (by decide)
      have hplus : c ≠ '+' := by
        rintro rfl
        exact absurd hc (by decide)
      simp [Text.splitSign, hminus, hplus]

/-! ### The fraction -/

theorem isDigits_takeWhile {text : Text} (h : (text.takeWhile Text.isDigit).isEmpty = false) :
    IsDigits (text.takeWhile Text.isDigit) :=
  ⟨by simpa using h, List.all_eq_true.mp List.all_takeWhile⟩

theorem scanFraction_point (after : Text) :
    scanFraction ('.' :: after) =
      if (after.takeWhile Text.isDigit).isEmpty then ([], '.' :: after)
      else (after.takeWhile Text.isDigit, after.dropWhile Text.isDigit) :=
  rfl

theorem scanFraction_fraction (text : Text) :
    ∃ point, text = point ++ (scanFraction text).2 ∧ Fraction point (scanFraction text).1 := by
  unfold scanFraction
  split
  · next after =>
    cases hdigits : (after.takeWhile Text.isDigit).isEmpty with
    | true => exact ⟨[], by simp [hdigits], by simpa [hdigits] using .none⟩
    | false =>
      refine ⟨'.' :: after.takeWhile Text.isDigit, by simp [hdigits], ?_⟩
      simpa [hdigits] using .point (isDigits_takeWhile hdigits)
  · exact ⟨[], rfl, .none⟩

theorem scanFraction_longest {point fraction : Text} (h : Fraction point fraction)
    (rest : Text) :
    (fraction = (scanFraction (point ++ rest)).1 ∧ rest = (scanFraction (point ++ rest)).2) ∨
      (scanFraction (point ++ rest)).2.length < rest.length ∧
        ∃ c more, rest = c :: more ∧ extendsNumber c = true := by
  cases h with
  | none =>
    by_cases hpoint : ∃ after, rest = '.' :: after
    · obtain ⟨after, rfl⟩ := hpoint
      rw [List.nil_append, scanFraction_point]
      cases hdigits : (after.takeWhile Text.isDigit).isEmpty with
      | true => exact .inl ⟨by simp, by simp⟩
      | false =>
        have hlength := (List.dropWhile_suffix (l := after) Text.isDigit).length_le
        refine .inr ⟨?_, '.', after, rfl, by decide⟩
        simp only [Bool.false_eq_true, if_false, List.length_cons]
        omega
    · have hscan : scanFraction rest = ([], rest) := by
        unfold scanFraction
        split
        · next after => exact absurd ⟨after, rfl⟩ hpoint
        · rfl
      rw [List.nil_append, hscan]
      exact .inl ⟨rfl, rfl⟩
  | point hdigits =>
    have hsome : ((fraction ++ rest).takeWhile Text.isDigit).isEmpty = false := by
      rw [List.takeWhile_append_of_pos hdigits.2]
      simp [hdigits.1]
    have hscan : scanFraction ('.' :: fraction ++ rest) =
        ((fraction ++ rest).takeWhile Text.isDigit, (fraction ++ rest).dropWhile Text.isDigit) := by
      rw [List.cons_append, scanFraction_point, hsome]
      rfl
    rw [hscan]
    rcases digits_run hdigits.2 rest with hall | ⟨hlonger, c, more, hrest, hc⟩
    · exact .inl hall
    · exact .inr ⟨hlonger, c, more, hrest, by simp [extendsNumber, hc]⟩

/-! ### The number -/

theorem scanNumber_eq (text : Text) :
    scanNumber text =
      let whole := (Text.splitSign text).2.takeWhile Text.isDigit
      let after := scanFraction ((Text.splitSign text).2.dropWhile Text.isDigit)
      if whole.isEmpty then none
      else some (.ofDecimal (Text.splitSign text).1 (Text.digitsValue (whole ++ after.1))
        (-after.1.length), after.2) :=
  rfl

theorem starts_number_of_scanNumber {text rest : Text} {x : Double}
    (h : scanNumber text = some (x, rest)) : Starts .number text (.literal x) rest := by
  obtain ⟨sign, htext, hsign⟩ := splitSign_sign text
  obtain ⟨point, hafter, hpoint⟩ :=
    scanFraction_fraction ((Text.splitSign text).2.dropWhile Text.isDigit)
  cases hwhole : ((Text.splitSign text).2.takeWhile Text.isDigit).isEmpty with
  | true => simp [scanNumber_eq, hwhole] at h
  | false =>
    simp only [scanNumber_eq, hwhole, Bool.false_eq_true, if_false, Option.some.injEq,
      Prod.mk.injEq] at h
    obtain ⟨rfl, rfl⟩ := h
    refine ⟨_, ?_, .numeral hsign (isDigits_takeWhile hwhole) hpoint⟩
    rw [List.append_assoc, List.append_assoc, ← hafter, List.takeWhile_append_dropWhile]
    exact htext

/-- A number that the scanner does not find is there only if the scanner finds a longer one. -/
theorem scanNumber_longest {text tree' rest'} (h : Starts .number text tree' rest') :
    ∃ x rest, scanNumber text = some (x, rest) ∧
      ((tree' = .literal x ∧ rest' = rest) ∨
        rest.length < rest'.length ∧ ∃ c more, rest' = c :: more ∧ extendsNumber c = true) := by
  obtain ⟨w, rfl, hw⟩ := h
  cases hw with
  | @numeral sign whole point fraction negative hsign hwhole hpoint =>
    have hsplit : Text.splitSign (sign ++ whole ++ point ++ rest') =
        (negative, whole ++ (point ++ rest')) := by
      simpa using splitSign_append hsign hwhole (point ++ rest')
    have hsome : ((whole ++ (point ++ rest')).takeWhile Text.isDigit).isEmpty = false := by
      rw [List.takeWhile_append_of_pos hwhole.2]
      simp [hwhole.1]
    simp only [scanNumber_eq, hsplit, hsome, Bool.false_eq_true, if_false]
    refine ⟨_, _, rfl, ?_⟩
    rcases digits_run hwhole.2 (point ++ rest') with
      ⟨hall, hafter⟩ | ⟨hlonger, c, more, hmore, hc⟩
    · rw [← hall, ← hafter]
      rcases scanFraction_longest hpoint rest' with ⟨hfraction, hrest⟩ | hlonger
      · rw [← hfraction, ← hrest]
        exact .inl ⟨rfl, rfl⟩
      · exact .inr hlonger
    · -- One more digit follows, so the word ends here: a point is not a digit.
      cases hpoint with
      | none =>
        have hsuffix := (scanFraction_suffix
          ((whole ++ ([] ++ rest')).dropWhile Text.isDigit)).length_le
        exact .inr ⟨Nat.lt_of_le_of_lt hsuffix hlonger, c, more, hmore, by simp [extendsNumber, hc]⟩
      | point hdigits =>
        obtain rfl := (List.cons.inj hmore).1
        exact absurd hc (by decide)

end Reckoner.Grammar
