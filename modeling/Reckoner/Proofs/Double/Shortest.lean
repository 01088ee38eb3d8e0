import Mathlib.Algebra.Order.Field.Power
import Mathlib.Data.Rat.Cast.Order
import Mathlib.Tactic.Positivity
import Reckoner.Double.Printer
import Reckoner.Proofs.Double.Rounding
import Reckoner.Proofs.Text.Numeral

/-!
# Decimals that read back

A decimal is read by rounding the number it stands for, so what is read depends on that number alone
and grows with it. The search for a short decimal ends with one that lies between the ends of the
number it started from, and such a decimal reads back to that number. How the decimal is written
depends on the power of ten that its first digit stands for.
-/

namespace Reckoner.Double

/-- The number that a decimal stands for. -/
def Decimal.value (decimal : Decimal) : ℚ := decimal.digits * 10 ^ decimal.exponent

def Decimal.read (negative : Bool) (decimal : Decimal) : Double :=
  ofDecimal negative decimal.digits decimal.exponent

/-! ### Reading a decimal -/

theorem ofDecimal_eq (negative : Bool) (digits : Nat) (exponent : Int) :
    ofDecimal negative digits exponent =
      nearest negative (digits * Nat.pow 10 exponent.toNat * unitsPerOne)
        (Nat.pow 10 (-exponent).toNat) := by
  cases exponent with
  | ofNat e =>
    have hzero : (-Int.ofNat e).toNat = 0 := by
      rw [Int.ofNat_eq_natCast]
      omega
    rw [ofDecimal, hzero]
    rfl
  | negSucc e =>
    show nearest negative (digits * unitsPerOne) (Nat.pow 10 (e + 1)) =
      nearest negative (digits * 1 * unitsPerOne) (Nat.pow 10 (e + 1))
    rw [Nat.mul_one]

theorem zpow_eq_div (x : ℤ) : (10 : ℚ) ^ x = (10 ^ x.toNat : ℕ) / (10 ^ (-x).toNat : ℕ) := by
  have hsplit : x = (x.toNat : ℤ) - ((-x).toNat : ℤ) := by omega
  conv_lhs => rw [hsplit]
  rw [zpow_sub₀ (by decide), zpow_natCast, zpow_natCast]
  push_cast
  rfl

theorem Decimal.value_le_iff {a b : Decimal} :
    a.value ≤ b.value ↔
      a.digits * Nat.pow 10 a.exponent.toNat * Nat.pow 10 (-b.exponent).toNat ≤
        b.digits * Nat.pow 10 b.exponent.toNat * Nat.pow 10 (-a.exponent).toNat := by
  rw [value, value, zpow_eq_div, zpow_eq_div, ← mul_div_assoc, ← mul_div_assoc,
    div_le_div_iff₀ (by positivity) (by positivity)]
  exact_mod_cast Iff.rfl

theorem Decimal.mul_units_le {a b : Decimal} (h : a.value ≤ b.value) :
    a.digits * Nat.pow 10 a.exponent.toNat * unitsPerOne * Nat.pow 10 (-b.exponent).toNat ≤
      b.digits * Nat.pow 10 b.exponent.toNat * unitsPerOne * Nat.pow 10 (-a.exponent).toNat := by
  rw [Nat.mul_right_comm _ unitsPerOne, Nat.mul_right_comm _ unitsPerOne]
  exact Nat.mul_le_mul_right _ (value_le_iff.mp h)

theorem Decimal.read_congr (negative : Bool) {a b : Decimal} (h : a.value = b.value) :
    a.read negative = b.read negative := by
  rw [read, read, ofDecimal_eq, ofDecimal_eq]
  exact nearest_congr negative (Nat.pow_pos (by decide)) (Nat.pow_pos (by decide))
    (Nat.le_antisymm (mul_units_le (le_of_eq h)) (mul_units_le (le_of_eq h.symm)))

theorem Decimal.units_read_le (negative negative' : Bool) {a b : Decimal}
    (hfinite : (a.read negative).isFinite = true) (hfinite' : (b.read negative').isFinite = true)
    (h : a.value ≤ b.value) : (a.read negative).units ≤ (b.read negative').units := by
  rw [read, ofDecimal_eq] at hfinite hfinite' ⊢
  rw [read, ofDecimal_eq]
  exact units_nearest_le negative negative' (Nat.pow_pos (by decide)) (Nat.pow_pos (by decide))
    hfinite hfinite' (mul_units_le h)

/-! ### The search -/

theorem read_of_multipleAt? (negative : Bool) {m e : Nat} (hcanonical : Canonical m e) {x : Int}
    {c : Nat} (h : multipleAt? m e x = some c) :
    (⟨c, x⟩ : Decimal).read negative = finite negative m e hcanonical := by
  have hrounds : roundsTo m e (c * (4 * unitsPerOne * Nat.pow 10 x.toNat))
      (Nat.pow 2 e * Nat.pow 10 (-x).toNat) = true := by
    unfold multipleAt? at h
    dsimp only at h
    split at h
    · next hnear =>
      obtain rfl := Option.some.inj h
      exact hnear
    · split at h
      · next hfar =>
        obtain rfl := Option.some.inj h
        exact hfar
      · cases h
  have hnumerator : c * (4 * unitsPerOne * Nat.pow 10 x.toNat) =
      4 * (c * Nat.pow 10 x.toNat * unitsPerOne) := by ring
  rw [hnumerator, Nat.mul_comm (Nat.pow 2 e)] at hrounds
  rw [Decimal.read, ofDecimal_eq]
  exact nearest_of_roundsTo negative hcanonical (Nat.pow_pos (by decide)) hrounds

/-- A unit divides into powers of ten. -/
theorem pow_ten_eq_mul_unitsPerOne :
    Nat.pow 10 (- -1074 : Int).toNat = Nat.pow 5 1074 * unitsPerOne := by
  decide +kernel

theorem read_of_searchDown (negative : Bool) {m e : Nat} (hcanonical : Canonical m e)
    (steps : Nat) (x : Int) :
    (searchDown m e steps x).read negative = finite negative m e hcanonical := by
  induction steps generalizing x with
  | zero =>
    have hone : Nat.pow 10 (-1074 : Int).toNat = 1 := rfl
    rw [searchDown, Decimal.read, ofDecimal_eq, pow_ten_eq_mul_unitsPerOne, hone,
      Nat.mul_one]
    refine nearest_exact negative hcanonical (by decide +kernel) ?_
    rw [Nat.mul_assoc]
  | succ steps ih =>
    rw [searchDown]
    split
    · next c hmultiple => exact read_of_multipleAt? negative hcanonical hmultiple
    · exact ih (x - 1)

/-- The decimal that a number is printed as reads back to the number. -/
theorem read_shortest (negative : Bool) {m e : Nat} (hcanonical : Canonical m e) :
    (shortest m e).read negative = finite negative m e hcanonical :=
  read_of_searchDown negative hcanonical _ _

theorem digits_shortest_pos {m e : Nat} (hcanonical : Canonical m e) (hpos : 0 < m) :
    0 < (shortest m e).digits := by
  by_contra hzero
  have hread := read_shortest false hcanonical
  have hnone : nearest false 0 (Nat.pow 10 (-(shortest m e).exponent).toNat) =
      finite false 0 0 canonical_zero :=
    nearest_exact false canonical_zero (Nat.pow_pos (by decide)) (by simp)
  rw [Decimal.read, ofDecimal_eq, Nat.eq_zero_of_not_pos hzero, Nat.zero_mul, Nat.zero_mul,
    hnone] at hread
  have hsignificand : 0 = m := (finite.inj hread).2.1
  omega

/-! ### The leading digit -/

/-- The power of ten that the first digit stands for. -/
def Decimal.leading (decimal : Decimal) : Int :=
  decimal.exponent + (Text.ofNat decimal.digits).length - 1

namespace Decimal

variable {decimal : Decimal}

theorem zpow_leading_le (h : 0 < decimal.digits) : (10 : ℚ) ^ decimal.leading ≤ decimal.value := by
  have hlength := Text.length_ofNat_pos decimal.digits
  have hleading : decimal.leading =
      (((Text.ofNat decimal.digits).length - 1 : ℕ) : ℤ) + decimal.exponent := by
    rw [leading]
    omega
  have hdigits : (10 : ℚ) ^ ((Text.ofNat decimal.digits).length - 1) ≤ decimal.digits := by
    exact_mod_cast Text.pow_length_ofNat_le h
  rw [hleading, zpow_add₀ (by decide), zpow_natCast, value]
  exact mul_le_mul_of_nonneg_right hdigits (by positivity)

theorem value_lt_zpow (decimal : Decimal) : decimal.value < (10 : ℚ) ^ (decimal.leading + 1) := by
  have hleading : decimal.leading + 1 =
      ((Text.ofNat decimal.digits).length : ℤ) + decimal.exponent := by
    rw [leading]
    omega
  have hdigits : (decimal.digits : ℚ) < 10 ^ (Text.ofNat decimal.digits).length := by
    exact_mod_cast Text.lt_pow_length_ofNat decimal.digits
  rw [hleading, zpow_add₀ (by decide), zpow_natCast, value]
  exact mul_lt_mul_of_pos_right hdigits (by positivity)

theorem le_leading_iff (h : 0 < decimal.digits) (x : Int) :
    x ≤ decimal.leading ↔ (10 : ℚ) ^ x ≤ decimal.value := by
  constructor
  · intro hle
    exact le_trans (zpow_le_zpow_right₀ (by decide) hle) (zpow_leading_le h)
  · intro hle
    by_contra hlt
    have hnext : (10 : ℚ) ^ (decimal.leading + 1) ≤ 10 ^ x :=
      zpow_le_zpow_right₀ (by decide) (by omega)
    exact absurd (lt_of_lt_of_le (value_lt_zpow decimal) hnext) (not_lt.mpr hle)

theorem value_one (x : Int) : (⟨1, x⟩ : Decimal).value = 10 ^ x := by
  rw [value, Nat.cast_one, one_mul]

end Decimal

/-- The leading digit of a number's decimal reaches a power of ten only if the number itself is not
below what that power reads as. -/
theorem units_le_of_le_leading {m e : Nat} (hcanonical : Canonical m e) (hpos : 0 < m) {x : Int}
    (hfinite : ((⟨1, x⟩ : Decimal).read false).isFinite = true)
    (h : x ≤ (shortest m e).leading) :
    ((⟨1, x⟩ : Decimal).read false).units ≤ m * Nat.pow 2 e := by
  rw [Decimal.le_leading_iff (digits_shortest_pos hcanonical hpos), ← Decimal.value_one] at h
  have hread := read_shortest false hcanonical
  have hle := Decimal.units_read_le false false hfinite (by rw [hread]; rfl) h
  rw [hread] at hle
  exact hle

theorem leading_shortest_lt {m e : Nat} (hcanonical : Canonical m e) (hpos : 0 < m)
    (hunits : m * Nat.pow 2 e < Nat.pow 10 16 * unitsPerOne) : (shortest m e).leading < 16 := by
  have hsixteen : ((⟨1, 16⟩ : Decimal).read false).units = Nat.pow 10 16 * unitsPerOne := by
    decide +kernel
  by_contra hle
  have hreached := units_le_of_le_leading hcanonical hpos (by decide +kernel) (not_lt.mp hle)
  rw [hsixteen] at hreached
  exact absurd hunits (Nat.not_lt.mpr hreached)

/-! ### One ten-thousandth -/

theorem canonical_tenThousandth : Canonical 0x1a36e2eb1c432d 1008 := by decide

theorem read_tenThousandth : (⟨1, -4⟩ : Decimal).read false =
    finite false 0x1a36e2eb1c432d 1008 canonical_tenThousandth := by
  decide +kernel

theorem leading_tenThousandth : (shortest 0x1a36e2eb1c432d 1008).leading = -4 := by
  decide +kernel

theorem eq_of_units_eq {m e m' e' : Nat} (hcanonical : Canonical m e)
    (hcanonical' : Canonical m' e') (h : m * Nat.pow 2 e = m' * Nat.pow 2 e') : m = m' ∧ e = e' := by
  have hexact := nearest_exact false hcanonical Nat.one_pos rfl
  rw [h, nearest_exact false hcanonical' Nat.one_pos rfl] at hexact
  obtain ⟨-, rfl, rfl⟩ := finite.inj hexact
  exact ⟨rfl, rfl⟩

/-- A number's decimal starts before the fourth place exactly if the number is not below the one
nearest to a ten-thousandth, which is itself printed as that. -/
theorem neg_four_le_leading_iff {m e : Nat} (hcanonical : Canonical m e) (hpos : 0 < m) :
    -4 ≤ (shortest m e).leading ↔ ((⟨1, -4⟩ : Decimal).read false).units ≤ m * Nat.pow 2 e := by
  constructor
  · exact units_le_of_le_leading hcanonical hpos (by rw [read_tenThousandth]; rfl)
  · intro hunits
    by_contra hlt
    have hread := read_shortest false hcanonical
    have hbelow : (shortest m e).value ≤ (⟨1, -4⟩ : Decimal).value := by
      rw [Decimal.le_leading_iff (digits_shortest_pos hcanonical hpos),
        ← Decimal.value_one] at hlt
      exact le_of_not_ge hlt
    have hle := Decimal.units_read_le false false (by rw [hread]; rfl)
      (by rw [read_tenThousandth]; rfl) hbelow
    rw [hread, read_tenThousandth, units, units] at hle
    rw [read_tenThousandth, units] at hunits
    obtain ⟨rfl, rfl⟩ := eq_of_units_eq hcanonical canonical_tenThousandth
      (Nat.le_antisymm hle hunits)
    rw [leading_tenThousandth] at hlt
    exact hlt (le_refl _)

end Reckoner.Double
