import Mathlib.Data.List.Basic
import Mathlib.Tactic.Ring
import Reckoner.Text.Numeral

/-!
# Numerals that read back

The digits that a natural number is written in are decimal digits, they read back to the number, and
how many there are says between which powers of ten it lies.
-/

namespace Reckoner.Text

theorem toNat_of_isDigit {c : Char} (h : c.isDigit = true) : 48 ≤ c.toNat ∧ c.toNat ≤ 57 := by
  simpa [Char.isDigit, UInt32.le_iff_toNat_le] using h

theorem digitValue?_of_isDigit {c : Char} (h : c.isDigit = true) :
    digitValue? c = some (c.toNat - 48) := by
  have hcode := toNat_of_isDigit h
  have hfind : digitZeros.find? (fun first => first ≤ c.toNat && c.toNat < first + 10) =
      some 0x30 := by
    apply List.find?_cons_of_pos
    simp only [Bool.and_eq_true, decide_eq_true_eq]
    omega
  rw [digitValue?, hfind]
  rfl

theorem char_isDigit_of_mem_ofNat {n : Nat} {c : Char} (h : c ∈ ofNat n) : c.isDigit = true :=
  Nat.isDigit_of_mem_toDigits (by decide) (by decide) h

theorem isDigit_of_mem_ofNat {n : Nat} {c : Char} (h : c ∈ ofNat n) : isDigit c = true := by
  rw [isDigit, digitValue?_of_isDigit (char_isDigit_of_mem_ofNat h)]
  rfl

theorem length_ofNat_pos (n : Nat) : 0 < (ofNat n).length := Nat.length_toDigits_pos

/-- A positive number is written without zeros in front. -/
theorem exists_leading_digit {n : Nat} (h : 0 < n) :
    ∃ c rest, ofNat n = c :: rest ∧ c ≠ '0' := by
  induction n using Nat.strongRecOn with
  | ind n ih =>
    rw [ofNat, Nat.toDigits_eq_if (by decide)]
    split
    · next hsmall =>
      have hdigit : ∀ k < 10, 0 < k → Nat.digitChar k ≠ '0' := by decide
      exact ⟨_, [], rfl, hdigit n hsmall h⟩
    · next hlarge =>
      obtain ⟨c, rest, hdigits, hc⟩ := ih (n / 10) (by omega) (by omega)
      rw [ofNat] at hdigits
      exact ⟨c, rest ++ [Nat.digitChar (n % 10)], by rw [hdigits, List.cons_append], hc⟩

/-! ### Reading digits -/

theorem foldl_digits (digits : Text) (n : Nat) :
    digits.foldl (fun n c => 10 * n + digitValue c) n =
      n * 10 ^ digits.length + digitsValue digits := by
  induction digits generalizing n with
  | nil => simp [digitsValue]
  | cons c rest ih =>
    rw [digitsValue, List.foldl_cons, List.foldl_cons, ih, ih (10 * 0 + digitValue c),
      List.length_cons, Nat.pow_succ]
    ring

theorem digitsValue_append (before after : Text) :
    digitsValue (before ++ after) =
      digitsValue before * 10 ^ after.length + digitsValue after := by
  rw [digitsValue, List.foldl_append, foldl_digits after]
  rfl

theorem digitsValue_zeros (count : Nat) : digitsValue (List.replicate count '0') = 0 := by
  induction count with
  | zero => rfl
  | succ count ih =>
    have hzero : digitsValue ['0'] = 0 := by decide
    rw [List.replicate_succ', digitsValue_append, ih, hzero, Nat.zero_mul]

theorem digitsValue_ofNat (n : Nat) : digitsValue (ofNat n) = n := by
  have hread : digitsValue (ofNat n) = Nat.ofDigitChars 10 (ofNat n) 0 := by
    apply List.foldl_ext
    intro value c hc
    rw [digitValue, digitValue?_of_isDigit (char_isDigit_of_mem_ofNat hc)]
    rfl
  rw [hread]
  exact Nat.ofDigitChars_toDigits (by decide) (by decide)

theorem lt_pow_length_ofNat (n : Nat) : n < 10 ^ (ofNat n).length :=
  (Nat.length_toDigits_le_iff (by decide) (length_ofNat_pos n)).mp (Nat.le_refl _)

theorem pow_length_ofNat_le {n : Nat} (h : 0 < n) : 10 ^ ((ofNat n).length - 1) ≤ n := by
  rcases Nat.eq_zero_or_pos ((ofNat n).length - 1) with hone | hmore
  · rw [hone]
    exact h
  · by_contra hlt
    have hshort : (ofNat n).length ≤ (ofNat n).length - 1 :=
      (Nat.length_toDigits_le_iff (by decide) hmore).mpr (Nat.lt_of_not_le hlt)
    omega

end Reckoner.Text
