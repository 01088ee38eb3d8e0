import Reckoner.Grammar.Rule
import Reckoner.Proofs.Double.Nearest
import Reckoner.Proofs.Grammar.Number

/-!
# What a number means

The rule for numbers against the written numeral and the exact value it stands for. The value is read
off place by place, so it does not depend on how the scanner groups the digits or on the decimal that
is rounded. The rule takes the longest numeral at the front of a text, and the literal is the number
nearest to its value.
-/

namespace Reckoner.Grammar

/-- The value of the digits after a point: each place counts a tenth of the one before. -/
def fractionValue : Text → ℚ
  | [] => 0
  | c :: rest => (Text.digitValue c + fractionValue rest) / 10

/-- The word is a numeral: whether it is negative, and its exact magnitude. -/
inductive Numeral : Text → Bool → ℚ → Prop where
  | intro {sign whole point fraction : Text} {negative : Bool} (hsign : Sign sign negative)
      (hwhole : IsDigits whole) (hpoint : Fraction point fraction) :
      Numeral (sign ++ whole ++ point) negative
        (Text.digitsValue whole + fractionValue fraction)

/-- The text starts with a digit, or with a sign and a digit. -/
def StartsWithDigit (text : Text) : Prop :=
  ∃ sign negative c more, Sign sign negative ∧ Text.isDigit c = true ∧ text = sign ++ c :: more

/-! ### The exact value -/

theorem fractionValue_eq (fraction : Text) :
    fractionValue fraction = Text.digitsValue fraction / 10 ^ fraction.length := by
  induction fraction with
  | nil => simp [fractionValue, Text.digitsValue]
  | cons c rest ih =>
    have hfirst : Text.digitsValue [c] = Text.digitValue c := by simp [Text.digitsValue]
    have hdigits : Text.digitsValue (c :: rest) =
        Text.digitValue c * 10 ^ rest.length + Text.digitsValue rest := by
      rw [← hfirst]
      exact Text.digitsValue_append [c] rest
    rw [fractionValue, ih, hdigits, List.length_cons, pow_succ]
    push_cast
    field_simp

/-- All the digits together, with the point moved behind them. -/
theorem digitsValue_add_fractionValue (whole fraction : Text) :
    Text.digitsValue whole + fractionValue fraction =
      (⟨Text.digitsValue (whole ++ fraction), -fraction.length⟩ : Double.Decimal).value := by
  rw [Double.Decimal.value, fractionValue_eq, Text.digitsValue_append, zpow_neg, zpow_natCast]
  push_cast
  field_simp

theorem numeral_of_derives {w : Text} {x : Double} (h : Derives .number w (.literal x)) :
    ∃ negative magnitude, Numeral w negative magnitude ∧ x.IsRounded negative magnitude := by
  cases h with
  | @numeral sign whole point fraction negative hsign hwhole hpoint =>
    refine ⟨negative, _, .intro hsign hwhole hpoint, ?_⟩
    rw [digitsValue_add_fractionValue]
    exact Double.isRounded_read negative ⟨Text.digitsValue (whole ++ fraction), -fraction.length⟩

theorem Numeral.starts {w : Text} {negative : Bool} {magnitude : ℚ}
    (h : Numeral w negative magnitude) (rest : Text) :
    ∃ tree, Starts .number (w ++ rest) tree rest := by
  cases h with
  | intro hsign hwhole hpoint => exact ⟨_, _, rfl, .numeral hsign hwhole hpoint⟩

/-! ### The front of a text -/

theorem startsWithDigit_of_numeral {w rest : Text} {negative : Bool} {magnitude : ℚ}
    (h : Numeral w negative magnitude) : StartsWithDigit (w ++ rest) := by
  cases h with
  | @intro sign whole point fraction negative hsign hwhole hpoint =>
    obtain ⟨hne, hdigits⟩ := hwhole
    obtain ⟨c, more, rfl⟩ := List.exists_cons_of_ne_nil hne
    exact ⟨sign, negative, c, more ++ point ++ rest, hsign, hdigits c List.mem_cons_self, by simp⟩

theorem numeral_of_startsWithDigit {text : Text} (h : StartsWithDigit text) :
    ∃ w rest negative magnitude, text = w ++ rest ∧ Numeral w negative magnitude := by
  obtain ⟨sign, negative, c, more, hsign, hc, rfl⟩ := h
  have hdigits : IsDigits [c] := ⟨List.cons_ne_nil _ _, by simpa using hc⟩
  exact ⟨sign ++ [c] ++ [], more, negative, _, by simp, .intro hsign hdigits .none⟩

/-- With no digit behind it, a point is not part of the numeral. -/
theorem scanNumber_point {sign whole after : Text} {negative : Bool} (hsign : Sign sign negative)
    (hwhole : IsDigits whole) (hafter : ∀ c more, after = c :: more → Text.isDigit c = false) :
    ∃ x, scanNumber (sign ++ whole ++ '.' :: after) = some (x, '.' :: after) := by
  have hnone : after.takeWhile Text.isDigit = [] := by
    cases after with
    | nil => rfl
    | cons c more => simp [hafter c more rfl]
  have hsplit : Text.splitSign (sign ++ whole ++ '.' :: after) =
      (negative, whole ++ '.' :: after) := by
    simpa using splitSign_append hsign hwhole ('.' :: after)
  have hrun := digits_run_of_point hwhole.2 after
  have hsome : whole.isEmpty = false := by simpa using hwhole.1
  rw [scanNumber_eq, hsplit]
  simp only [hrun, scanFraction_point, hnone, hsome]
  exact ⟨_, rfl⟩

/-! ### The rule -/

theorem run_number (text : Text) :
    Rule.number.run text = match scanNumber text with
      | some (x, rest) => .success (.tree (.literal x)) rest
      | none => .failure ⟨"No match for regex: " ++ numberPattern, ["/" ++ numberPattern ++ "/"],
          some text⟩ := by
  have hrun : Rule.number.run text =
      (((Parser.matching numberPattern scanNumber : Parser Id Double) text).map .literal).map
        .tree := rfl
  rw [hrun, Parser.matching]
  cases scanNumber text <;> rfl

/-- A number is the longest numeral at the front of a text, with the nearest number to its exact
value; without a digit there the rule fails. -/
theorem number_reads_longest_numeral (text : Text) :
    (¬ StartsWithDigit text ∧ Rule.number.run text = .failure
      ⟨"No match for regex: " ++ numberPattern, ["/" ++ numberPattern ++ "/"], some text⟩) ∨
    StartsWithDigit text ∧ ∃ w rest negative magnitude x, text = w ++ rest ∧
      Rule.number.run text = .success (.tree (.literal x)) rest ∧
      Numeral w negative magnitude ∧ x.IsRounded negative magnitude ∧
      (magnitude = 0 → x = .zero negative) ∧
      (∀ w' rest' negative' magnitude', text = w' ++ rest' →
        Numeral w' negative' magnitude' → w'.length ≤ w.length) ∧
      ∀ sign negative' whole after, Sign sign negative' → IsDigits whole →
        (∀ c more, after = c :: more → Text.isDigit c = false) →
        text = sign ++ whole ++ '.' :: after → rest = '.' :: after := by
  rw [run_number]
  cases hscan : scanNumber text with
  | none =>
    refine .inl ⟨fun hstarts => ?_, rfl⟩
    obtain ⟨w, rest, negative, magnitude, rfl, hnumeral⟩ := numeral_of_startsWithDigit hstarts
    obtain ⟨tree, hway⟩ := hnumeral.starts rest
    obtain ⟨x, left, hfound, -⟩ := scanNumber_longest hway
    rw [hscan] at hfound
    cases hfound
  | some found =>
    obtain ⟨x, rest⟩ := found
    obtain ⟨w, htext, hderives⟩ := starts_number_of_scanNumber hscan
    obtain ⟨negative, magnitude, hnumeral, hrounded⟩ := numeral_of_derives hderives
    refine .inr ⟨htext ▸ startsWithDigit_of_numeral hnumeral, w, rest, negative, magnitude, x, htext,
      rfl, hnumeral, hrounded, ?_, ?_, ?_⟩
    · rintro rfl
      exact hrounded.zero
    · intro w' rest' negative' magnitude' htext' hnumeral'
      obtain ⟨tree, hway⟩ := hnumeral'.starts rest'
      rw [← htext'] at hway
      obtain ⟨x', left, hfound, hbest⟩ := scanNumber_longest hway
      obtain ⟨rfl, rfl⟩ : x = x' ∧ rest = left := by simpa [hscan] using hfound
      have hlengths : w.length + rest.length = w'.length + rest'.length := by
        rw [← List.length_append, ← List.length_append, ← htext, ← htext']
      rcases hbest with ⟨-, rfl⟩ | ⟨hshorter, -⟩ <;> omega
    · intro sign negative' whole after hsign hwhole hafter htext'
      obtain ⟨x', hpoint⟩ := scanNumber_point hsign hwhole hafter
      rw [← htext', hscan] at hpoint
      exact (Prod.mk.inj (Option.some.inj hpoint)).2

end Reckoner.Grammar
