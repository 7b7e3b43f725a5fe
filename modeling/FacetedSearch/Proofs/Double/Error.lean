import FacetedSearch.Proofs.Double.Whole

/-!
# Rounding errors

A finite sum is off by at most the share `2 ^ -53` of the exact one, and so is a finite product
with a whole factor, which has no bits below the least unit. Whether a result is finite is
decided by the size of the exact one.
-/

namespace FacetedSearch.Double

/-- The share of a number by which it can be off after it has been rounded. -/
def roundoff : ℚ := 1 / 2 ^ 53

theorem roundoff_pos : 0 < roundoff := by
  unfold roundoff
  positivity

theorem abs_nearest_sub_le (n : ℕ) : |(nearest n 1 : ℚ) - n| ≤ roundoff * n := by
  rcases Nat.eq_zero_or_pos (dropped n 1) with hzero | hpos
  · have hexact : nearest n 1 = n := by
      have hself := Decimal.roundHalfEven_mul_self n Nat.one_pos
      rw [nearest, significand, hzero, Nat.pow_zero, Nat.mul_one, Nat.mul_one]
      rwa [Nat.mul_one] at hself
    rw [hexact, sub_self, abs_zero]
    exact mul_nonneg roundoff_pos.le (Nat.cast_nonneg n)
  · have hpow : 0 < 1 * 2 ^ dropped n 1 := by positivity
    have hhalf := Decimal.abs_roundHalfEven_sub_le n hpow
    have hbits := two_pow_dropped_le_div hpos
    rw [Nat.div_one] at hbits
    have hsplit : (nearest n 1 : ℚ) - n =
        ((Decimal.roundHalfEven n (1 * 2 ^ dropped n 1) : ℚ) - n / (1 * 2 ^ dropped n 1 : ℕ)) *
          2 ^ dropped n 1 := by
      unfold nearest significand
      push_cast
      field_simp
    have hbits' : (2 : ℚ) ^ (52 + dropped n 1) ≤ n := by exact_mod_cast hbits
    rw [hsplit, abs_mul, abs_of_pos (by positivity : (0 : ℚ) < 2 ^ dropped n 1)]
    calc _ ≤ 1 / 2 * (2 : ℚ) ^ dropped n 1 := mul_le_mul_of_nonneg_right hhalf (by positivity)
      _ = roundoff * 2 ^ (52 + dropped n 1) := by
          unfold roundoff
          rw [pow_add]
          ring
      _ ≤ roundoff * n := mul_le_mul_of_nonneg_left hbits' roundoff_pos.le

theorem abs_roundUnits_sub_le {z : ℤ} (hlow : -(infinityUnits : ℤ) < roundUnits z 1)
    (hhigh : roundUnits z 1 < infinityUnits) :
    |(roundUnits z 1 : ℚ) - z| ≤ roundoff * |(z : ℚ)| := by
  have hnearest := abs_nearest_sub_le z.natAbs
  have habs : (z.natAbs : ℚ) = |(z : ℚ)| := by
    rw [← Int.cast_natCast, Int.natCast_natAbs, Int.cast_abs]
  rw [habs] at hnearest
  unfold roundUnits at hlow hhigh ⊢
  split_ifs at hlow hhigh ⊢ with hz
  · have hmin : min (nearest z.natAbs 1) infinityUnits = nearest z.natAbs 1 := by omega
    have hzneg : (z : ℚ) < 0 := Int.cast_lt_zero.mpr hz
    rw [hmin]
    rw [abs_of_neg hzneg] at hnearest ⊢
    push_cast
    rw [abs_sub_comm] at hnearest
    convert hnearest using 2
    ring
  · have hmin : min (nearest z.natAbs 1) infinityUnits = nearest z.natAbs 1 := by omega
    have hznonneg : (0 : ℚ) ≤ z := by exact_mod_cast Int.not_lt.mp hz
    rw [hmin]
    rw [abs_of_nonneg hznonneg] at hnearest ⊢
    exact_mod_cast hnearest

theorem toRat_neg (x : Float) : toRat (-x) = -toRat x := by
  unfold toRat
  rw [units_neg]
  push_cast
  ring

theorem toRat_ofNat_mul_two_pow {m j : ℕ} (hm : m < 2 ^ 53) (hj : j ≤ 900) :
    toRat (Float.ofNat (m * 2 ^ j)) = m * 2 ^ j := by
  rw [toRat, units_ofNat_mul_two_pow hm hj]
  push_cast
  exact mul_div_cancel_right₀ _ unitsPerOne_pos_rat.ne'

theorem toRat_ofNat {n : ℕ} (h : n < 2 ^ 53) : toRat (Float.ofNat n) = n := by
  have hexact := toRat_ofNat_mul_two_pow (j := 0) h (by decide)
  simpa using hexact

/-- What is rounded to `z` units is off by the same share as a number. -/
theorem abs_toRat_sub_le {x : Float} (h : x.isFinite = true) {z : ℤ}
    (hunits : units x = roundUnits z 1) {q : ℚ} (hq : (z : ℚ) = q * unitsPerOne) :
    |toRat x - q| ≤ roundoff * |q| := by
  obtain ⟨hlow, hhigh⟩ := units_of_isFinite h
  rw [hunits] at hlow hhigh
  have herror := abs_roundUnits_sub_le hlow hhigh
  rw [← hunits, units_eq_toRat_mul, hq, ← sub_mul, abs_mul, abs_mul,
    abs_of_pos unitsPerOne_pos_rat, ← mul_assoc] at herror
  exact le_of_mul_le_mul_right herror unitsPerOne_pos_rat

theorem abs_toRat_add_sub_le {x y : Float} (h : (x + y).isFinite = true) :
    |toRat (x + y) - (toRat x + toRat y)| ≤ roundoff * |toRat x + toRat y| := by
  obtain ⟨hx, hy⟩ := isFinite_of_isFinite_add h
  refine abs_toRat_sub_le h (units_add hx hy) ?_
  rw [Int.cast_add, units_eq_toRat_mul, units_eq_toRat_mul, add_mul]

theorem toRat_sub_toRat (x y : Float) : toRat x - toRat y = toRat x + toRat (-y) := by
  rw [toRat_neg]
  ring

theorem abs_toRat_sub_sub_le {x y : Float} (h : (x - y).isFinite = true) :
    |toRat (x - y) - (toRat x - toRat y)| ≤ roundoff * |toRat x - toRat y| := by
  rw [sub_eq_add_neg] at h ⊢
  rw [toRat_sub_toRat]
  exact abs_toRat_add_sub_le h

theorem abs_toRat_mul_sub_le {x y : Float} (hx : Whole x) (h : (x * y).isFinite = true) :
    |toRat (x * y) - toRat x * toRat y| ≤ roundoff * |toRat x * toRat y| := by
  obtain ⟨hxfin, hyfin⟩ := isFinite_of_isFinite_mul h
  obtain ⟨a, ha⟩ := hx
  refine abs_toRat_sub_le h (units_mul_of_whole hxfin hyfin ha) ?_
  have hrat : toRat x = a := by
    rw [toRat, ha, Int.cast_mul, Int.cast_natCast]
    exact mul_div_cancel_left₀ _ unitsPerOne_pos_rat.ne'
  rw [Int.cast_mul, units_eq_toRat_mul, hrat, mul_assoc]

/-! ## Results that are finite -/

theorem isFinite_of_abs_toRat_le {x : Float} (hnum : x.isNaN = false) {j : ℕ} (hj : j ≤ 1000)
    (h : |toRat x| ≤ 2 ^ j) : x.isFinite = true := by
  obtain ⟨k, hk⟩ : ∃ k, k = 1074 := ⟨_, rfl⟩
  have hunits : ((units x).natAbs : ℚ) ≤ 2 ^ j * unitsPerOne := by
    have hscaled := mul_le_mul_of_nonneg_right h unitsPerOne_pos_rat.le
    rwa [← abs_of_pos unitsPerOne_pos_rat, ← abs_mul, ← units_eq_toRat_mul,
      abs_of_pos unitsPerOne_pos_rat, ← Int.cast_abs, ← Int.natCast_natAbs, Int.cast_natCast]
      at hscaled
  have hnat : (units x).natAbs ≤ 2 ^ (j + k) := by
    rw [Nat.pow_add, ← unitsPerOne_eq hk]
    exact_mod_cast hunits
  exact isFinite_of_natAbs_units_le hnum hnat (by omega)

/-- Powers of two bound what is rounded as they bound what it is rounded from. -/
theorem abs_toRat_le {x : Float} {z : ℤ} {den : ℕ} (hden : 0 < den)
    (hunits : units x = roundUnits z den) {q : ℚ} (hq : (z : ℚ) = q * unitsPerOne * den)
    {j : ℕ} (h : |q| ≤ 2 ^ j) : |toRat x| ≤ 2 ^ j := by
  obtain ⟨k, hk⟩ : ∃ k, k = 1074 := ⟨_, rfl⟩
  have hden' : (0 : ℚ) < den := Nat.cast_pos.mpr hden
  have hz : |(z : ℚ)| ≤ 2 ^ j * unitsPerOne * den := by
    rw [hq, abs_mul, abs_mul, abs_of_pos unitsPerOne_pos_rat, abs_of_pos hden']
    exact mul_le_mul_of_nonneg_right
      (mul_le_mul_of_nonneg_right h unitsPerOne_pos_rat.le) hden'.le
  have hnat : z.natAbs ≤ 2 ^ (j + k) * den := by
    rw [← Int.cast_abs, ← Int.natCast_natAbs, unitsPerOne_eq hk] at hz
    rw [Nat.pow_add]
    exact_mod_cast hz
  have hround := natAbs_roundUnits_le hden hnat
  rw [← hunits, Nat.pow_add, ← unitsPerOne_eq hk] at hround
  rw [toRat, abs_div, abs_of_pos unitsPerOne_pos_rat, div_le_iff₀ unitsPerOne_pos_rat,
    ← Int.cast_abs, ← Int.natCast_natAbs]
  exact_mod_cast hround

section

variable {x y : Float} {j : ℕ}

theorem abs_toRat_add_le (hx : x.isFinite = true) (hy : y.isFinite = true)
    (h : |toRat x + toRat y| ≤ 2 ^ j) : |toRat (x + y)| ≤ 2 ^ j := by
  refine abs_toRat_le Nat.one_pos (units_add hx hy) ?_ h
  rw [Int.cast_add, units_eq_toRat_mul, units_eq_toRat_mul]
  push_cast
  ring

theorem abs_toRat_mul_le (hx : x.isFinite = true) (hy : y.isFinite = true)
    (h : |toRat x * toRat y| ≤ 2 ^ j) : |toRat (x * y)| ≤ 2 ^ j := by
  refine abs_toRat_le unitsPerOne_pos (units_mul hx hy) ?_ h
  rw [Int.cast_mul, units_eq_toRat_mul, units_eq_toRat_mul]
  ring

theorem isFinite_add (hx : x.isFinite = true) (hy : y.isFinite = true) (hj : j ≤ 1000)
    (h : |toRat x + toRat y| ≤ 2 ^ j) : (x + y).isFinite = true :=
  isFinite_of_abs_toRat_le (isNaN_add hx hy) hj (abs_toRat_add_le hx hy h)

theorem isFinite_sub (hx : x.isFinite = true) (hy : y.isFinite = true) (hj : j ≤ 1000)
    (h : |toRat x - toRat y| ≤ 2 ^ j) : (x - y).isFinite = true := by
  rw [toRat_sub_toRat] at h
  rw [sub_eq_add_neg]
  exact isFinite_add hx (by rwa [isFinite_neg]) hj h

theorem isFinite_mul (hx : x.isFinite = true) (hy : y.isFinite = true) (hj : j ≤ 1000)
    (h : |toRat x * toRat y| ≤ 2 ^ j) : (x * y).isFinite = true :=
  isFinite_of_abs_toRat_le (isNaN_mul hx hy) hj (abs_toRat_mul_le hx hy h)

/-- A greater factor does not make a smaller product. -/
theorem toRat_mul_le_toRat_mul {z : Float} (hx : x.isFinite = true) (hy : y.isFinite = true)
    (hz : z.isFinite = true) (hnonneg : 0 ≤ toRat x) (h : toRat y ≤ toRat z) :
    toRat (x * y) ≤ toRat (x * z) := by
  have hxunits : 0 ≤ units x := by
    have hscaled := mul_nonneg hnonneg unitsPerOne_pos_rat.le
    rw [← units_eq_toRat_mul] at hscaled
    exact_mod_cast hscaled
  rw [toRat_le_toRat_iff] at h ⊢
  rw [units_mul hx hy, units_mul hx hz]
  exact roundUnits_le_roundUnits unitsPerOne_pos (Int.mul_le_mul_of_nonneg_left h hxunits)

end

/-! ## Quotients -/

/-- A finite double is a rounded quotient of its own product. -/
theorem units_eq_roundUnits_mul {z : Float} (h : z.isFinite = true) {den : ℕ} (hden : 0 < den) :
    units z = roundUnits (units z * den) den := by
  have hscale := roundUnits_mul_right (units z) hden Nat.one_pos
  rw [Nat.one_mul] at hscale
  rw [hscale]
  exact (roundUnits_signedUnits (canonical_toModel z) h).symm

section

variable {x y z : Float}

/-- A quotient is on the same side of a double as the dividend is of its product. -/
theorem toRat_div_spec (hx : Unsigned x) (hxfin : x.isFinite = true) (hy : Unsigned y)
    (hyfin : y.isFinite = true) (hpos : 0 < units y) (hz : z.isFinite = true) :
    (toRat z * toRat y ≤ toRat x → toRat z ≤ toRat (x / y)) ∧
      (toRat x ≤ toRat z * toRat y → toRat (x / y) ≤ toRat z) := by
  have hden : 0 < (units y).toNat := by omega
  have hcast : ((units y).toNat : ℤ) = units y := by omega
  have hsquare := mul_pos unitsPerOne_pos_rat unitsPerOne_pos_rat
  have hne := unitsPerOne_pos_rat.ne'
  have hnum : toRat x = (units x * unitsPerOne : ℤ) / (unitsPerOne * unitsPerOne) := by
    unfold toRat
    push_cast
    field_simp
  have hprod : toRat z * toRat y = (units z * units y : ℤ) / (unitsPerOne * unitsPerOne) := by
    unfold toRat
    push_cast
    field_simp
  rw [hnum, hprod, div_le_div_iff_of_pos_right hsquare, div_le_div_iff_of_pos_right hsquare,
    Int.cast_le, Int.cast_le, toRat_le_toRat_iff, toRat_le_toRat_iff,
    (units_div hx hxfin hy hyfin hpos).2]
  have hround := units_eq_roundUnits_mul hz hden
  rw [hcast] at hround
  constructor
  · intro h
    rw [hround]
    exact roundUnits_le_roundUnits hden h
  · intro h
    rw [hround]
    exact roundUnits_le_roundUnits hden h

end

end FacetedSearch.Double
