import FacetedSearch.Proofs.Double.Value

/-!
# Doubles as rationals

The rational number that a finite double is. The order of doubles is that of these numbers, and
they are what the parts of the exact value say.
-/

namespace FacetedSearch.Double

open Float.Model Float.Model.UnpackedFloat

/-- The number that a finite double is. For infinite doubles and NaN it says nothing. -/
def toRat (x : Float) : ℚ := units x / unitsPerOne

theorem unitsPerOne_pos_rat : (0 : ℚ) < unitsPerOne := Nat.cast_pos.mpr unitsPerOne_pos

theorem units_eq_toRat_mul (x : Float) : (units x : ℚ) = toRat x * unitsPerOne :=
  (div_mul_cancel₀ _ unitsPerOne_pos_rat.ne').symm

theorem toRat_le_toRat_iff {x y : Float} : toRat x ≤ toRat y ↔ units x ≤ units y := by
  rw [toRat, toRat, div_le_div_iff_of_pos_right unitsPerOne_pos_rat, Int.cast_le]

theorem toRat_lt_toRat_iff {x y : Float} : toRat x < toRat y ↔ units x < units y := by
  rw [toRat, toRat, div_lt_div_iff_of_pos_right unitsPerOne_pos_rat, Int.cast_lt]

theorem toRat_le_toRat {x y : Float} (h : x ≤ y) : toRat x ≤ toRat y :=
  toRat_le_toRat_iff.mpr (le_iff.mp h).2.2

theorem toRat_lt_toRat {x y : Float} (h : x < y) : toRat x < toRat y :=
  toRat_lt_toRat_iff.mpr (lt_iff.mp h).2.2

theorem Unsigned.toRat_nonneg {x : Float} (h : Unsigned x) : 0 ≤ toRat x :=
  div_nonneg (Int.cast_nonneg h.units_nonneg) unitsPerOne_pos_rat.le

theorem units_neg (x : Float) : units (-x) = -units x := by
  unfold units signedUnits
  rw [unpack_neg]
  cases x.toModel.unpack with
  | notANumber => rfl
  | infinity s => cases s <;> simp [UnpackedFloat.neg, signOf, magnitude, Sign.apply]
  | zero s => cases s <;> rfl
  | finite s m e hm => cases s <;> simp [UnpackedFloat.neg, signOf, magnitude, Sign.apply]

/-- The number with the sign that the exact value of a double has. -/
def signedRat (negative : Bool) (q : ℚ) : ℚ := if negative then -q else q

theorem units_withSign (negative : Bool) (x : Float) :
    (units (withSign negative x) : ℚ) = signedRat negative (units x) := by
  cases negative with
  | false => rfl
  | true =>
      change (units (-x) : ℚ) = -units x
      rw [units_neg, Int.cast_neg]

@[simp] theorem signedRat_signedRat (negative : Bool) (q : ℚ) :
    signedRat negative (signedRat negative q) = q := by
  cases negative <;> simp [signedRat]

theorem signedRat_mul (negative : Bool) (q r : ℚ) :
    signedRat negative (q * r) = signedRat negative q * r := by
  cases negative <;> simp [signedRat]

/-- The exact value of a finite double is its number. -/
theorem exists_value_eq {x : Float} (h : x.isFinite = true) :
    ∃ negative num k, value x = .finite negative num (2 ^ k) ∧
      toRat x = signedRat negative ((num : ℚ) / (2 ^ k : ℕ)) := by
  obtain ⟨negative, num, k, hvalue, -, hunits⟩ := value_of_isFinite h
  refine ⟨negative, num, k, hvalue, ?_⟩
  have hden : (0 : ℚ) < (2 ^ k : ℕ) := Nat.cast_pos.mpr (Nat.two_pow_pos k)
  have hcast : signedRat negative (units x) * (2 ^ k : ℕ) = num * unitsPerOne := by
    rw [← units_withSign]
    exact_mod_cast hunits
  have hsize : signedRat negative (toRat x) = num / (2 ^ k : ℕ) := by
    rw [eq_div_iff hden.ne']
    rw [units_eq_toRat_mul, signedRat_mul] at hcast
    refine mul_right_cancel₀ unitsPerOne_pos_rat.ne' ?_
    rw [← hcast]
    ring
  rw [← hsize, signedRat_signedRat]

end FacetedSearch.Double
