import FacetedSearch.Proofs.Double.Error
import FacetedSearch.Proofs.Scale.Intervals

/-!
# How exact the bounds are

Each bound is rounded twice, once as a multiple of the step and once as a sum with the start. As
long as the bounds lie within `2 ^ 40` steps of zero, both errors are small against the step, and
so every interval is about as wide as a step.
-/

namespace FacetedSearch.Scale

open Double

variable {start step : Float}

theorem isFinite_of_isFinite_lower {i : ℕ} (h : (interval start step i).lower.isFinite = true) :
    start.isFinite = true ∧ (Float.ofNat i * step).isFinite = true :=
  isFinite_of_isFinite_add h

/-- The first bound is the start. -/
theorem units_lower_zero (hstart : start.isFinite = true) (hstep : step.isFinite = true) :
    (interval start step 0).lower.isNaN = false ∧
      units (interval start step 0).lower = units start := by
  have hnat : (Float.ofNat 0).isFinite = true := isFinite_ofNat (by decide)
  have hzero : units (Float.ofNat 0) = 0 := by
    rw [(units_ofNat 0).2, Nat.zero_mul]
    exact roundUnits_zero 1
  have hprod : units (Float.ofNat 0 * step) = 0 := by
    rw [units_mul hnat hstep, hzero, Int.zero_mul, roundUnits_zero]
  have hfin : (Float.ofNat 0 * step).isFinite = true := by
    have hinf := infinityUnits_pos
    exact isFinite_of_units (isNaN_mul hnat hstep) (by omega) (by omega)
  refine ⟨isNaN_add hstart hfin, (units_add hstart hfin).trans ?_⟩
  rw [hprod, Int.add_zero]
  exact roundUnits_signedUnits (canonical_toModel start) hstart

theorem isFinite_lower_zero (hstart : start.isFinite = true) (hstep : step.isFinite = true) :
    (interval start step 0).lower.isFinite = true := by
  obtain ⟨hnum, hunits⟩ := units_lower_zero hstart hstep
  have hbounds := units_of_isFinite hstart
  exact isFinite_of_units hnum (by omega) (by omega)

theorem toRat_lower_zero (hstart : start.isFinite = true) (hstep : step.isFinite = true) :
    toRat (interval start step 0).lower = toRat start := by
  rw [toRat, toRat, (units_lower_zero hstart hstep).2]

/-- A bound that is not too far from zero is almost exact. -/
theorem abs_toRat_lower_sub_le (hpos : 0 < toRat step)
    (hstart : |toRat start| ≤ 2 ^ 40 * toRat step) {i : ℕ}
    (hfin : (interval start step i).lower.isFinite = true)
    (hle : |toRat (interval start step i).lower| ≤ 2 ^ 40 * toRat step) :
    |toRat (interval start step i).lower - (toRat start + i * toRat step)| ≤
      toRat step / 2 ^ 9 := by
  obtain ⟨hstartfin, hprodfin⟩ := isFinite_of_isFinite_lower hfin
  have hsum := abs_toRat_add_sub_le hfin
  have hprod := abs_toRat_mul_sub_le (whole_ofNat i) hprodfin
  have hnonneg : 0 ≤ toRat (Float.ofNat i) := (unsigned_ofNat i).toRat_nonneg
  have hexact : toRat (Float.ofNat i) ≤ 2 ^ 43 → toRat (Float.ofNat i) = i := by
    intro hc
    by_cases hi : i < 2 ^ 53
    · exact toRat_ofNat hi
    · have hmono := toRat_le_toRat (ofNat_le_ofNat (by omega : 1 * 2 ^ 44 ≤ i))
      rw [toRat_ofNat_mul_two_pow (by decide) (by decide), Nat.cast_one, one_mul] at hmono
      exact absurd (hmono.trans hc) (by norm_num)
  change |toRat (start + Float.ofNat i * step)| ≤ _ at hle
  change |toRat (start + Float.ofNat i * step) - _| ≤ _
  generalize toRat (start + Float.ofNat i * step) = x at hsum hle ⊢
  generalize toRat (Float.ofNat i * step) = p at hsum hprod
  generalize toRat (Float.ofNat i) = c at hprod hnonneg hexact
  generalize toRat start = l at hsum hstart ⊢
  generalize toRat step = s at *
  have hcs : 0 ≤ c * s := mul_nonneg hnonneg hpos.le
  rw [abs_of_nonneg hcs] at hprod
  have hsize : |l + p| ≤ 2 ^ 41 * s := by
    have htriangle := abs_sub_abs_le_abs_sub (l + p) x
    rw [abs_sub_comm] at htriangle
    unfold roundoff at hsum
    linarith
  have hmultiple : c * s ≤ 2 ^ 43 * s := by
    have hp := (abs_le.mp hsize).2
    have hl := (abs_le.mp hstart).1
    have herror := (abs_le.mp hprod).1
    unfold roundoff at herror
    linarith
  rw [← hexact (le_of_mul_le_mul_right hmultiple hpos)]
  unfold roundoff at hsum hprod
  have hsum' := abs_le.mp hsum
  have hprod' := abs_le.mp hprod
  rw [abs_le]
  constructor <;> linarith

/-- Intervals are about as wide as a step. -/
theorem abs_width_sub_le (hpos : 0 < toRat step) (hstart : |toRat start| ≤ 2 ^ 40 * toRat step)
    {i : ℕ} (hlower : (interval start step i).lower.isFinite = true)
    (hupper : (interval start step i).upper.isFinite = true)
    (hle : |toRat (interval start step i).lower| ≤ 2 ^ 40 * toRat step ∧
      |toRat (interval start step i).upper| ≤ 2 ^ 40 * toRat step) :
    |toRat (interval start step i).upper - toRat (interval start step i).lower - toRat step| ≤
      toRat step / 2 ^ 8 := by
  have hlow := abs_toRat_lower_sub_le hpos hstart hlower hle.1
  have hhigh : |toRat (interval start step i).upper -
      (toRat start + (i + 1 : ℕ) * toRat step)| ≤ toRat step / 2 ^ 9 :=
    abs_toRat_lower_sub_le (i := i + 1) hpos hstart hupper hle.2
  push_cast at hhigh
  rw [abs_le] at hlow hhigh ⊢
  constructor <;> linarith

end FacetedSearch.Scale
