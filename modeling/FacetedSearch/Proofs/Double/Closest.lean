import FacetedSearch.Proofs.Double.Error

/-!
# The closest double

Rounding a ratio to 53 bits finds a number of units with no other double between it and the ratio.
So the double that a decimal is read as is one of those that are closest to it, and a closest
double is off by at most the share `2 ^ -53`, or by half of the least unit.
-/

namespace FacetedSearch

/-- No whole number is closer to a ratio than the rounded one. -/
theorem Decimal.abs_roundHalfEven_sub_le_abs_sub (num : ℕ) {den : ℕ} (h : 0 < den) (t : ℤ) :
    |(roundHalfEven num den : ℚ) - num / den| ≤ |(t : ℚ) - num / den| := by
  have herror := abs_roundHalfEven_sub_le num h
  rcases eq_or_ne t (roundHalfEven num den : ℕ) with heq | hne
  · rw [heq, Int.cast_natCast]
  · -- any other whole number is one away from the rounded one
    have hone : (1 : ℚ) ≤ |(t : ℚ) - (roundHalfEven num den : ℕ)| := by
      have hint : 1 ≤ |t - (roundHalfEven num den : ℕ)| := Int.one_le_abs (sub_ne_zero.mpr hne)
      exact_mod_cast hint
    have htriangle := abs_sub_le (t : ℚ) (num / den) (roundHalfEven num den : ℕ)
    rw [abs_sub_comm (num / den : ℚ)] at htriangle
    linarith

namespace Double

open Float.Model Float.Model.UnpackedFloat

/-! ## Rounding to 53 bits -/

theorem nearest_eq_mul (num : ℕ) {den : ℕ} (h : 0 < den) :
    (nearest num den : ℚ) - num / den =
      ((Decimal.roundHalfEven num (den * 2 ^ dropped num den) : ℚ) -
        num / (den * 2 ^ dropped num den : ℕ)) * 2 ^ dropped num den := by
  have hden : (den : ℚ) ≠ 0 := Nat.cast_ne_zero.mpr h.ne'
  unfold nearest significand
  push_cast
  field_simp

/-- On the grid of the bits that are kept, the rounded number is the closest one. -/
theorem abs_nearest_sub_le_of_grid (num : ℕ) {den : ℕ} (h : 0 < den) (t : ℤ) :
    |(nearest num den : ℚ) - num / den| ≤ |(t * 2 ^ dropped num den : ℚ) - num / den| := by
  have hpow : (0 : ℚ) < 2 ^ dropped num den := by positivity
  have hden : (den : ℚ) ≠ 0 := Nat.cast_ne_zero.mpr h.ne'
  have hround := Decimal.abs_roundHalfEven_sub_le_abs_sub num
    (Nat.mul_pos h (Nat.two_pow_pos (dropped num den))) t
  have hsplit : (t * 2 ^ dropped num den : ℚ) - num / den =
      ((t : ℚ) - num / (den * 2 ^ dropped num den : ℕ)) * 2 ^ dropped num den := by
    push_cast
    field_simp
  rw [nearest_eq_mul num h, hsplit, abs_mul, abs_mul, abs_of_pos hpow]
  exact mul_le_mul_of_nonneg_right hround hpow.le

/-- No whole number of 53 bits is closer to a ratio than the rounded one. -/
theorem abs_nearest_sub_le_abs_sub (num : ℕ) {den : ℕ} (h : 0 < den) {m j : ℕ}
    (hm : m < 2 ^ 53) :
    |(nearest num den : ℚ) - num / den| ≤ |((m * 2 ^ j : ℕ) : ℚ) - num / den| := by
  rcases le_or_gt (dropped num den) j with hle | hlt
  · have hgrid := abs_nearest_sub_le_of_grid num h ((m * 2 ^ (j - dropped num den) : ℕ) : ℤ)
    have hsplit : m * 2 ^ j = m * 2 ^ (j - dropped num den) * 2 ^ dropped num den := by
      rw [Nat.mul_assoc, ← Nat.pow_add, Nat.sub_add_cancel hle]
    rw [hsplit]
    exact_mod_cast hgrid
  · -- below the binade of the ratio the power of two that begins the binade is closer
    have hgrid := abs_nearest_sub_le_of_grid num h ((2 ^ 52 : ℕ) : ℤ)
    have hbinade : 2 ^ (52 + dropped num den) ≤ num / den :=
      two_pow_dropped_le_div (Nat.zero_lt_of_lt hlt)
    have hbelow : m * 2 ^ j ≤ 2 ^ (52 + dropped num den) := by
      calc m * 2 ^ j ≤ 2 ^ 53 * 2 ^ j := Nat.mul_le_mul_right _ hm.le
        _ = 2 ^ (53 + j) := (Nat.pow_add 2 53 j).symm
        _ ≤ 2 ^ (52 + dropped num den) := Nat.pow_le_pow_right two_pos (by omega)
    have hratio : ((num / den : ℕ) : ℚ) ≤ num / den := Nat.cast_div_le
    have hbinade' : (2 : ℚ) ^ 52 * 2 ^ dropped num den ≤ (num / den : ℕ) := by
      rw [← pow_add]
      exact_mod_cast hbinade
    have hbelow' : ((m * 2 ^ j : ℕ) : ℚ) ≤ 2 ^ 52 * 2 ^ dropped num den := by
      rw [← pow_add]
      exact_mod_cast hbelow
    rw [Int.cast_natCast, Nat.cast_pow, Nat.cast_ofNat] at hgrid
    rw [abs_of_nonpos (by linarith : (2 : ℚ) ^ 52 * 2 ^ dropped num den - num / den ≤ 0)] at hgrid
    rw [abs_of_nonpos (by linarith : ((m * 2 ^ j : ℕ) : ℚ) - num / den ≤ 0)]
    linarith

/-- Rounding changes a ratio by the share `2 ^ -53` of it, or by one half. -/
theorem abs_nearest_sub_le_max (num : ℕ) {den : ℕ} (h : 0 < den) :
    |(nearest num den : ℚ) - num / den| ≤ max (1 / 2) (roundoff * (num / den)) := by
  have hpow : (0 : ℚ) < 2 ^ dropped num den := by positivity
  have hhalf := Decimal.abs_roundHalfEven_sub_le num
    (Nat.mul_pos h (Nat.two_pow_pos (dropped num den)))
  have hscaled := mul_le_mul_of_nonneg_right hhalf hpow.le
  rw [nearest_eq_mul num h, abs_mul, abs_of_pos hpow]
  rcases Nat.eq_zero_or_pos (dropped num den) with hzero | hpos
  · refine le_max_of_le_left (hscaled.trans ?_)
    rw [hzero, pow_zero, mul_one]
  · refine le_max_of_le_right (hscaled.trans ?_)
    have hbinade : (2 : ℚ) ^ (52 + dropped num den) ≤ (num / den : ℕ) := by
      exact_mod_cast two_pow_dropped_le_div hpos
    have hratio : ((num / den : ℕ) : ℚ) ≤ num / den := Nat.cast_div_le
    calc (1 : ℚ) / 2 * 2 ^ dropped num den = roundoff * 2 ^ (52 + dropped num den) := by
          unfold roundoff
          rw [pow_add]
          ring
      _ ≤ roundoff * (num / den) :=
          mul_le_mul_of_nonneg_left (hbinade.trans hratio) roundoff_pos.le

/-! ## Doubles that are closest to a number -/

/-- No finite double is closer to the number than `x`. -/
structure IsClosest (x : Float) (q : ℚ) : Prop where
  isFinite : x.isFinite = true
  le : ∀ y : Float, y.isFinite = true → |toRat x - q| ≤ |toRat y - q|

theorem IsClosest.neg {x : Float} {q : ℚ} (h : IsClosest x q) : IsClosest (-x) (-q) where
  isFinite := by rw [isFinite_neg, h.isFinite]
  le y hy := by
    have hle := h.le (-y) (by rw [isFinite_neg, hy])
    rw [toRat_neg] at hle ⊢
    rw [← abs_neg, ← abs_neg (toRat y - -q)]
    calc |-(-toRat x - -q)| = |toRat x - q| := by ring_nf
      _ ≤ |-toRat y - q| := hle
      _ = |-(toRat y - -q)| := by ring_nf

/-- The units of a finite double, without their sign, are a number of 53 bits. -/
theorem exists_natAbs_units_eq {x : Float} (h : x.isFinite = true) :
    ∃ m j, (units x).natAbs = m * 2 ^ j ∧ m < 2 ^ 53 := by
  have hfin : x.toModel.unpack.isFinite = true := h
  have hcanonical := canonical_toModel x
  have habs : (units x).natAbs = magnitude x.toModel.unpack := by
    unfold units signedUnits
    cases signOf x.toModel.unpack <;> simp [Sign.apply]
  rw [habs]
  generalize x.toModel.unpack = u at hfin hcanonical
  cases u with
  | notANumber => cases hfin
  | infinity s => cases hfin
  | zero s => exact ⟨0, 0, rfl, by decide⟩
  | finite s m e hm => exact ⟨m, (e + 1074).toNat, rfl, hcanonical.1⟩

end Double

namespace Decimal

open Double

/-- What a decimal is read as, if that is finite, in units. -/
theorem units_nearest {d : Decimal} (h : d.nearest.isFinite = true) :
    ∃ num den, 0 < den ∧ (units d.nearest : ℚ) = Double.nearest num den ∧
      (num / den : ℚ) = d.value * unitsPerOne := by
  have hread := d.isNearest_nearest.units
  have hden : 0 < 10 ^ (-d.exponent).toNat := Nat.pow_pos (by decide)
  have hbounds := units_of_isFinite h
  rw [hread, roundUnits_natCast] at hbounds
  refine ⟨d.digits * 10 ^ d.exponent.toNat * unitsPerOne, _, hden, ?_, ?_⟩
  · rw [hread, roundUnits_natCast, Int.cast_natCast, Nat.min_eq_left (by omega)]
  · rw [d.value_eq_div]
    push_cast
    ring

/-- The double that a decimal is read as is closest to it, unless it is infinite. -/
theorem isClosest_nearest {d : Decimal} (h : d.nearest.isFinite = true) :
    IsClosest d.nearest d.value where
  isFinite := h
  le y hy := by
    obtain ⟨num, den, hden, hunits, hratio⟩ := units_nearest h
    obtain ⟨m, j, hgrid, hm⟩ := exists_natAbs_units_eq hy
    have hclosest := abs_nearest_sub_le_abs_sub num hden (j := j) hm
    have hnonneg : (0 : ℚ) ≤ num / den := by positivity
    have hscale (z : Float) : |toRat z - d.value| * unitsPerOne = |(units z : ℚ) - num / den| := by
      rw [hratio, units_eq_toRat_mul, ← sub_mul, abs_mul, abs_of_pos unitsPerOne_pos_rat]
    have hmagnitude : |((m * 2 ^ j : ℕ) : ℚ) - num / den| ≤ |(units y : ℚ) - num / den| := by
      rw [← hgrid, Nat.cast_natAbs, Int.cast_abs]
      have hself := abs_abs_sub_abs_le_abs_sub (units y : ℚ) (num / den)
      rwa [abs_of_nonneg hnonneg] at hself
    refine le_of_mul_le_mul_right ?_ unitsPerOne_pos_rat
    rw [hscale, hscale, hunits]
    exact hclosest.trans hmagnitude

/-- What a decimal is read as is off by a share of the decimal, or by half of the least unit. -/
theorem abs_toRat_nearest_sub_le {d : Decimal} (h : d.nearest.isFinite = true) :
    |toRat d.nearest - d.value| ≤ max (1 / (2 * unitsPerOne) : ℚ) (roundoff * d.value) := by
  obtain ⟨num, den, hden, hunits, hratio⟩ := units_nearest h
  have herror := abs_nearest_sub_le_max num hden
  have hpos := unitsPerOne_pos_rat
  rw [← hunits, hratio, units_eq_toRat_mul, ← sub_mul, abs_mul, abs_of_pos hpos] at herror
  rw [← le_div_iff₀ hpos] at herror
  refine herror.trans (le_of_eq ?_)
  rw [← max_div_div_right hpos.le, mul_div_assoc, mul_div_cancel_right₀ _ hpos.ne', div_div]

end Decimal

end FacetedSearch
