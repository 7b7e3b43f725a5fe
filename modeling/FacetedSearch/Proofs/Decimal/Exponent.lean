import FacetedSearch.Decimal.Basic
import Mathlib.Algebra.Order.Field.Power
import Mathlib.Data.Nat.Log
import Mathlib.Data.Rat.Cast.Order
import Mathlib.Tactic.Positivity

/-!
# Leading exponents

The exponent that is read off the digits of a positive ratio is the one that places the ratio
between two consecutive powers of ten.
-/

namespace FacetedSearch.Decimal

theorem wholeExponent_eq_log (n : ℕ) : wholeExponent n = Nat.log 10 n := by
  rcases Nat.eq_zero_or_pos n with rfl | hn
  · rw [Nat.log_zero_right]
    rfl
  · have hlength : 0 < (Text.digits n).length := Nat.length_toDigits_pos
    have hupper : n < 10 ^ (Text.digits n).length :=
      (Nat.length_toDigits_le_iff (by decide) hlength).mp le_rfl
    have hlower : 10 ^ ((Text.digits n).length - 1) ≤ n := by
      rcases Nat.eq_zero_or_pos ((Text.digits n).length - 1) with hzero | hpos
      · rw [hzero, pow_zero]
        exact hn
      · by_contra hlt
        have hshort := (Nat.length_toDigits_le_iff (by decide) hpos).mpr (not_le.mp hlt)
        change (Text.digits n).length ≤ _ at hshort
        omega
    have hlog := (Nat.log_eq_iff (.inr ⟨by decide, hn.ne'⟩)).mpr
      ⟨hlower, by rwa [Nat.sub_add_cancel hlength]⟩
    exact hlog.symm

theorem leadingExponent_of_le {num den : ℕ} (hden : 0 < den) (h : den ≤ num) :
    ∃ k : ℕ, leadingExponent num den = k ∧ 10 ^ k * den ≤ num ∧ num < 10 ^ (k + 1) * den := by
  have hquot : num / den ≠ 0 := (Nat.div_pos h hden).ne'
  refine ⟨Nat.log 10 (num / den), ?_, ?_, ?_⟩
  · rw [leadingExponent, if_pos h, wholeExponent_eq_log]
  · exact (Nat.le_div_iff_mul_le hden).mp (Nat.pow_log_le_self 10 hquot)
  · exact (Nat.div_lt_iff_lt_mul hden).mp (Nat.lt_pow_succ_log_self (by decide) _)

/-- Below one the exponent counts the digits of the number before the inverse, so that the inverse
itself may be a power of ten. -/
theorem leadingExponent_of_lt {num den : ℕ} (hnum : 0 < num) (h : num < den) :
    ∃ k : ℕ, leadingExponent num den = -(k + 1 : ℕ) ∧
      10 ^ k * num < den ∧ den ≤ 10 ^ (k + 1) * num := by
  generalize hc : (den + num - 1) / num = c
  have hcmul : c * num ≤ den + num - 1 := hc ▸ Nat.div_mul_le_self _ _
  have hdenmul : den + num - 1 < c * num + num := hc ▸ Nat.lt_div_mul_add hnum
  have htwo : 2 ≤ c := by
    rw [← hc, Nat.le_div_iff_mul_le hnum]
    omega
  refine ⟨Nat.log 10 (c - 1), ?_, ?_, ?_⟩
  · rw [leadingExponent, if_neg (not_le.mpr h), hc, wholeExponent_eq_log]
  · have hpow : 10 ^ Nat.log 10 (c - 1) + 1 ≤ c := by
      have := Nat.pow_log_le_self 10 (show c - 1 ≠ 0 by omega)
      omega
    have hmul := Nat.mul_le_mul_right num hpow
    rw [Nat.add_mul, Nat.one_mul] at hmul
    omega
  · have hpow : c ≤ 10 ^ (Nat.log 10 (c - 1) + 1) := by
      have := Nat.lt_pow_succ_log_self (b := 10) (by decide) (c - 1)
      omega
    have hmul := Nat.mul_le_mul_right num hpow
    omega

theorem zpow_leadingExponent {num den : ℕ} (hnum : 0 < num) (hden : 0 < den) :
    (10 : ℚ) ^ leadingExponent num den ≤ num / den ∧
      (num / den : ℚ) < 10 ^ (leadingExponent num den + 1) := by
  have hnum' : (0 : ℚ) < num := Nat.cast_pos.mpr hnum
  have hden' : (0 : ℚ) < den := Nat.cast_pos.mpr hden
  rcases le_or_gt den num with h | h
  · obtain ⟨k, hk, hlower, hupper⟩ := leadingExponent_of_le hden h
    have hlower' : (10 : ℚ) ^ k * den ≤ num := by exact_mod_cast hlower
    have hupper' : (num : ℚ) < 10 ^ (k + 1) * den := by exact_mod_cast hupper
    rw [hk, le_div_iff₀ hden', div_lt_iff₀ hden']
    exact ⟨hlower', hupper'⟩
  · obtain ⟨k, hk, hlower, hupper⟩ := leadingExponent_of_lt hnum h
    have hlower' : (10 : ℚ) ^ k * num < den := by exact_mod_cast hlower
    have hupper' : (den : ℚ) ≤ 10 ^ (k + 1) * num := by exact_mod_cast hupper
    have hsucc : -((k + 1 : ℕ) : ℤ) + 1 = -(k : ℤ) := by omega
    rw [hk, hsucc, zpow_neg, zpow_neg, zpow_natCast, zpow_natCast, le_div_iff₀ hden',
      inv_mul_le_iff₀ (by positivity), lt_inv_comm₀ (by positivity) (by positivity), inv_div,
      lt_div_iff₀ hnum']
    exact ⟨hupper', hlower'⟩

end FacetedSearch.Decimal
