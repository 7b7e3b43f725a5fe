import FacetedSearch.Proofs.Decimal.Fixed
import FacetedSearch.Proofs.Double.Closest

/-!
# Decimals of fifteen digits

A decimal of at most fifteen digits comes back from a double that is closest to it: printed with
its own number of places the double shows the decimal again. Doubles that are closest to such
decimals are in the order of the decimals, and no two of them that differ are closest to one.
-/

namespace FacetedSearch.Double

open Decimal

theorem toRat_withSign (negative : Bool) (x : Float) :
    toRat (withSign negative x) = signedRat negative (toRat x) := by
  cases negative with
  | false => rfl
  | true => exact toRat_neg x

theorem isFinite_nearest {d : Decimal} {j : ℕ} (hj : j ≤ 1000) (h : d.value ≤ 2 ^ j) :
    d.nearest.isFinite = true := by
  have hread := d.isNearest_nearest
  have hden : 0 < 10 ^ (-d.exponent).toNat := Nat.pow_pos (by decide)
  have hnonneg : 0 ≤ d.value := by
    rw [d.value_eq_div]
    positivity
  refine isFinite_of_abs_toRat_le hread.isNaN hj (abs_toRat_le hden hread.units ?_
    (q := d.value) (by rwa [abs_of_nonneg hnonneg]))
  rw [d.value_eq_div]
  push_cast
  field_simp

/-- Every number that a decimal stands for has a finite double close to it. -/
theorem IsClosest.abs_toRat_sub_le {x : Float} {negative : Bool} {d : Decimal}
    (h : IsClosest x (signedRat negative d.value)) (hd : d.nearest.isFinite = true) :
    |toRat x - signedRat negative d.value| ≤
      max (1 / (2 * unitsPerOne) : ℚ) (roundoff * d.value) := by
  refine (h.le (withSign negative d.nearest) (by rw [isFinite_withSign, hd])).trans ?_
  have herror := abs_toRat_nearest_sub_le hd
  rw [toRat_withSign]
  cases negative with
  | false => exact herror
  | true =>
      rw [abs_sub_comm] at herror
      simpa [signedRat, neg_add_eq_sub] using herror

/-- The decimal of `n` units of the last of some places, without its sign. -/
def magnitudeOf (n : ℤ) (places : ℕ) : Decimal := ⟨n.natAbs, -places⟩

theorem signedRat_magnitudeOf (n : ℤ) (places : ℕ) :
    signedRat (decide (n < 0)) (magnitudeOf n places).value = n / 10 ^ places := by
  have hvalue : (magnitudeOf n places).value = |(n : ℚ)| / 10 ^ places := by
    rw [magnitudeOf, Decimal.value, zpow_neg, zpow_natCast, Nat.cast_natAbs, Int.cast_abs,
      div_eq_mul_inv]
  rw [hvalue, signedRat]
  by_cases hn : n < 0
  · rw [if_pos (decide_eq_true hn), abs_of_neg (Int.cast_lt_zero.mpr hn)]
    ring
  · rw [if_neg (by simpa using hn), abs_of_nonneg (by exact_mod_cast not_lt.mp hn)]

theorem magnitudeOf_mul_pow (n : ℤ) (places : ℕ) :
    (magnitudeOf n places).value * 10 ^ places = n.natAbs := by
  rw [magnitudeOf, Decimal.value, zpow_neg, zpow_natCast]
  exact inv_mul_cancel_right₀ (by positivity) _

section

variable {n : ℤ} {places : ℕ}

theorem isFinite_magnitudeOf (hn : n.natAbs ≤ 2 ^ 51) (places : ℕ) :
    (magnitudeOf n places).nearest.isFinite = true := by
  refine isFinite_nearest (j := 51) (by decide) ?_
  have hten : (1 : ℚ) ≤ 10 ^ places := one_le_pow₀ (by norm_num)
  have hnonneg : 0 ≤ (magnitudeOf n places).value := by
    rw [Decimal.value_eq_div]
    positivity
  calc (magnitudeOf n places).value ≤ (magnitudeOf n places).value * 10 ^ places :=
        le_mul_of_one_le_right hnonneg hten
    _ = n.natAbs := magnitudeOf_mul_pow n places
    _ ≤ 2 ^ 51 := by exact_mod_cast hn

/-- A double that is closest to a decimal of fifteen digits is off by less than half a unit of
the last place. -/
theorem IsClosest.abs_toRat_mul_sub_lt {x : Float} (h : IsClosest x (n / 10 ^ places))
    (hn : n.natAbs ≤ 2 ^ 51) (hplaces : places ≤ 300) :
    |toRat x * 10 ^ places - n| ≤ 1 / 4 := by
  have hten : (0 : ℚ) < 10 ^ places := by positivity
  have hfin := isFinite_magnitudeOf hn places
  rw [← signedRat_magnitudeOf] at h
  have herror := mul_le_mul_of_nonneg_right (h.abs_toRat_sub_le hfin) hten.le
  rw [signedRat_magnitudeOf, ← abs_of_pos hten, ← abs_mul, abs_of_pos hten, sub_mul,
    div_mul_cancel₀ _ hten.ne', max_mul_of_nonneg _ _ hten.le, mul_assoc,
    magnitudeOf_mul_pow] at herror
  refine herror.trans (max_le ?_ ?_)
  · obtain ⟨k, hk⟩ : ∃ k, k = 1074 := ⟨_, rfl⟩
    have hsmall : 2 * 10 ^ places ≤ unitsPerOne := by
      obtain ⟨i, hi⟩ : ∃ i, i = 100 := ⟨_, rfl⟩
      calc 2 * 10 ^ places ≤ 2 * 10 ^ (3 * i) :=
            Nat.mul_le_mul_left 2 (Nat.pow_le_pow_right (by decide) (by omega))
        _ = 2 * (10 ^ 3) ^ i := by rw [Nat.pow_mul]
        _ ≤ 2 * (2 ^ 10) ^ i := Nat.mul_le_mul_left 2 (Nat.pow_le_pow_left (by decide) i)
        _ = 2 ^ (10 * i + 1) := by rw [← Nat.pow_mul, Nat.pow_succ']
        _ ≤ 2 ^ k := Nat.pow_le_pow_right two_pos (by omega)
        _ = unitsPerOne := (unitsPerOne_eq hk).symm
    have hsmall' : 2 * (10 : ℚ) ^ places ≤ unitsPerOne := by exact_mod_cast hsmall
    rw [one_div, inv_mul_le_iff₀ (mul_pos two_pos unitsPerOne_pos_rat)]
    linarith
  · have hn' : (n.natAbs : ℚ) ≤ 2 ^ 51 := by exact_mod_cast hn
    calc roundoff * n.natAbs ≤ roundoff * 2 ^ 51 :=
          mul_le_mul_of_nonneg_left hn' roundoff_pos.le
      _ = 1 / 4 := by
          unfold roundoff
          norm_num

/-- A decimal that a double can be exactly is what it is read as. -/
theorem toRat_nearest_of_grid {d : Decimal} (hd : d.nearest.isFinite = true) {m j : ℕ}
    (hm : m < 2 ^ 53) (h : d.value * unitsPerOne = (m * 2 ^ j : ℕ)) : toRat d.nearest = d.value := by
  obtain ⟨num, den, hden, hunits, hratio⟩ := units_nearest hd
  have hclosest := abs_nearest_sub_le_abs_sub num hden (j := j) hm
  rw [hratio, h, sub_self, abs_zero, abs_nonpos_iff, sub_eq_zero, ← hunits, ← h,
    units_eq_toRat_mul] at hclosest
  exact mul_right_cancel₀ unitsPerOne_pos_rat.ne' hclosest

/-- What is left of a decimal without its factors of five is a number of 53 bits. -/
theorem exists_toRat_eq_of_dvd (hn : n.natAbs ≤ 2 ^ 51) (hplaces : places ≤ 300)
    (h : 5 ^ places ∣ n.natAbs) :
    ∃ z : Float, z.isFinite = true ∧ toRat z = n / 10 ^ places := by
  obtain ⟨c, hc⟩ := h
  obtain ⟨k, hk⟩ : ∃ k, k = 1074 := ⟨_, rfl⟩
  have hfin := isFinite_magnitudeOf hn places
  have hgrid : (magnitudeOf n places).value * unitsPerOne = (c * 2 ^ (k - places) : ℕ) := by
    have hpow : unitsPerOne = 2 ^ (k - places) * 2 ^ places := by
      rw [unitsPerOne_eq hk, ← Nat.pow_add, Nat.sub_add_cancel (by omega)]
    have hvalue := magnitudeOf_mul_pow n places
    have hten : (10 : ℚ) ^ places = 5 ^ places * 2 ^ places := by
      rw [← mul_pow]
      norm_num
    rw [hc, hten] at hvalue
    push_cast at hvalue
    refine mul_left_cancel₀ (by positivity : (5 : ℚ) ^ places ≠ 0) ?_
    rw [hpow]
    push_cast
    linear_combination (2 : ℚ) ^ (k - places) * hvalue
  have hsmall : c < 2 ^ 53 := by
    have hle : c ≤ n.natAbs := hc ▸ Nat.le_mul_of_pos_left c (Nat.pow_pos (by decide))
    omega
  refine ⟨withSign (decide (n < 0)) (magnitudeOf n places).nearest,
    by rw [isFinite_withSign, hfin], ?_⟩
  rw [toRat_withSign, toRat_nearest_of_grid hfin hsmall hgrid, signedRat_magnitudeOf]

/-- Only a decimal that a double can be exactly lies in the middle between two doubles, so at
most one number is closest. -/
theorem IsClosest.toRat_eq {x y : Float} (hx : IsClosest x (n / 10 ^ places))
    (hy : IsClosest y (n / 10 ^ places)) (hn : n.natAbs ≤ 2 ^ 51) (hplaces : places ≤ 300) :
    toRat x = toRat y := by
  by_contra hne
  have hten : (10 : ℚ) ^ places ≠ 0 := by positivity
  -- two numbers at one distance have the decimal in their middle
  have hmiddle : toRat x + toRat y = 2 * (n / 10 ^ places) := by
    rcases abs_eq_abs.mp (le_antisymm (hx.le y hy.isFinite) (hy.le x hx.isFinite)) with h | h
    · exact absurd (sub_left_inj.mp h) hne
    · linarith
  have hdvd : 5 ^ places ∣ n.natAbs := by
    obtain ⟨k, hk⟩ : ∃ k, k = 1074 := ⟨_, rfl⟩
    have hunits : (units x + units y) * 10 ^ places = n * 2 ^ (k + 1) := by
      have hrat : ((units x : ℚ) + units y) * 10 ^ places = n * (2 * unitsPerOne) := by
        rw [units_eq_toRat_mul, units_eq_toRat_mul, ← add_mul, hmiddle]
        field_simp
      rw [unitsPerOne_eq hk] at hrat
      rw [pow_succ']
      exact_mod_cast hrat
    have hfive : (5 : ℤ) ^ places ∣ n * 2 ^ (k + 1) :=
      hunits ▸ (pow_dvd_pow_of_dvd (by decide) places).mul_left _
    have hcoprime : IsCoprime ((5 : ℤ) ^ places) (2 ^ (k + 1)) :=
      IsCoprime.pow (Int.isCoprime_iff_gcd_eq_one.mpr (by decide))
    have hint := hcoprime.dvd_of_dvd_mul_right hfive
    exact Int.natCast_dvd.mp (by exact_mod_cast hint)
  obtain ⟨z, hz, hexact⟩ := exists_toRat_eq_of_dvd hn hplaces hdvd
  have hxle := hx.le z hz
  have hyle := hy.le z hz
  rw [hexact, sub_self, abs_zero, abs_nonpos_iff, sub_eq_zero] at hxle hyle
  exact hne (hxle.trans hyle.symm)

/-- There is a double that is closest to a decimal of fifteen digits. -/
theorem exists_isClosest (hn : n.natAbs ≤ 2 ^ 51) (places : ℕ) :
    ∃ x, IsClosest x (n / 10 ^ places) := by
  have hclosest := isClosest_nearest (isFinite_magnitudeOf hn places)
  have hsigned := signedRat_magnitudeOf n places
  refine ⟨withSign (decide (n < 0)) (magnitudeOf n places).nearest, ?_⟩
  rw [← hsigned]
  cases decide (n < 0) with
  | false => exact hclosest
  | true => exact hclosest.neg

/-! ## The order of decimals -/

/-- Doubles that are closest to two decimals are in the order of the decimals. -/
theorem IsClosest.toRat_lt {x y : Float} {m : ℤ} (hx : IsClosest x (m / 10 ^ places))
    (hy : IsClosest y (n / 10 ^ places)) (hm : m.natAbs < 2 ^ 51) (hplaces : places ≤ 300)
    (h : m < n) : toRat x < toRat y := by
  have hten : (0 : ℚ) < 10 ^ places := by positivity
  obtain ⟨z, hz⟩ := exists_isClosest (n := m + 1) (by omega) places
  have hxerror := abs_le.mp (hx.abs_toRat_mul_sub_lt hm.le hplaces)
  have hzerror := abs_le.mp (hz.abs_toRat_mul_sub_lt (by omega) hplaces)
  have hyz := mul_le_mul_of_nonneg_right (hy.le z hz.isFinite) hten.le
  rw [← abs_of_pos hten, ← abs_mul, ← abs_mul, abs_of_pos hten, sub_mul, sub_mul,
    div_mul_cancel₀ _ hten.ne'] at hyz
  have hn : (m : ℚ) + 1 ≤ n := by exact_mod_cast h
  push_cast at hzerror
  refine lt_of_mul_lt_mul_right ?_ hten.le
  by_contra hle
  rw [not_lt] at hle
  -- otherwise the double of the next decimal would be closer than `y`
  rw [abs_of_nonpos (by linarith : toRat y * 10 ^ places - n ≤ 0)] at hyz
  rcases abs_cases (toRat z * 10 ^ places - n) with ⟨hcase, -⟩ | ⟨hcase, -⟩ <;>
    rw [hcase] at hyz <;> linarith

theorem IsClosest.toRat_lt_of_bounded {x y : Float} {m : ℤ} (hx : IsClosest x (m / 10 ^ places))
    (hy : IsClosest y (n / 10 ^ places)) (hn : n.natAbs < 2 ^ 51) (hplaces : places ≤ 300)
    (h : m < n) : toRat x < toRat y := by
  have hxneg := hx.neg
  have hyneg := hy.neg
  rw [← neg_div, ← Int.cast_neg] at hxneg hyneg
  have hlt := hyneg.toRat_lt hxneg (by omega) hplaces (by omega)
  rw [toRat_neg, toRat_neg] at hlt
  linarith

/-- Of two decimals one has at most fifteen digits: the doubles that are closest to them compare
as the decimals do. -/
theorem IsClosest.toRat_lt_iff {x y : Float} {m : ℤ} (hx : IsClosest x (m / 10 ^ places))
    (hy : IsClosest y (n / 10 ^ places)) (hm : m.natAbs < 2 ^ 51) (hplaces : places ≤ 300) :
    (toRat x < toRat y ↔ m < n) ∧ (toRat y < toRat x ↔ n < m) := by
  rcases lt_trichotomy m n with h | rfl | h
  · have hlt := hx.toRat_lt hy hm hplaces h
    exact ⟨iff_of_true hlt h, iff_of_false hlt.le.not_gt (by omega)⟩
  · have heq := hx.toRat_eq hy hm.le hplaces
    exact ⟨iff_of_false heq.not_lt (lt_irrefl m), iff_of_false heq.not_gt (lt_irrefl m)⟩
  · have hlt := hy.toRat_lt_of_bounded hx hm hplaces h
    exact ⟨iff_of_false hlt.le.not_gt (by omega), iff_of_true hlt h⟩

end

end FacetedSearch.Double

namespace FacetedSearch.Decimal

open Double

/-! ## Printing -/

/-- A decimal of fifteen digits is what is printed for a double that is closest to it. -/
theorem printedUnits_of_isClosest {x : Float} {n : ℤ} {places : ℕ}
    (h : IsClosest x (n / 10 ^ places)) (hn : n.natAbs ≤ 2 ^ 51) (hplaces : places ≤ 300) :
    printedUnits places x = n := by
  have hprinted := abs_printedUnits_sub_le h.isFinite places
  have herror := h.abs_toRat_mul_sub_lt hn hplaces
  have htriangle := abs_sub_le (printedUnits places x : ℚ) (toRat x * 10 ^ places) n
  have hlt : |(printedUnits places x : ℚ) - n| < 1 := by linarith
  have hint : |printedUnits places x - n| < 1 := by exact_mod_cast hlt
  rw [Int.abs_lt_one_iff] at hint
  omega

/-- The number that a numeral with a sign and a point stands for. Nothing is rounded. -/
def numberOf? (cs : List Char) : Option ℚ :=
  let (negative, cs) := splitSign cs
  (unsigned? cs).map fun d => signedRat negative d.value

/-- A printed double stands for the number of units that were printed. -/
theorem numberOf?_fixedChars {x : Float} (h : x.isFinite = true) (places : ℕ) :
    numberOf? (fixedChars places x) = some ((printedUnits places x : ℚ) / 10 ^ places) := by
  obtain ⟨negative, num, k, hvalue, -⟩ := exists_value_eq h
  obtain ⟨whole, fraction, htext, hne, hdigits, hlength, hunits⟩ :=
    placesText_eq places (roundHalfEven (num * Nat.pow 10 places) (2 ^ k))
  have hread := unsigned?_pointText hne (fun c hc => hdigits c (List.mem_append_left _ hc))
    (fun c hc => hdigits c (List.mem_append_right _ hc))
  obtain ⟨c, cs, rfl⟩ := List.exists_cons_of_ne_nil hne
  have hsign := splitSign_signText negative (hdigits c List.mem_cons_self)
    (cs ++ pointText fraction)
  have hchars : fixedChars places x = signText negative ++ (c :: cs ++ pointText fraction) := by
    rw [fixedChars, hvalue]
    dsimp only
    rw [htext]
  rw [numberOf?, hchars, List.cons_append, hsign]
  dsimp only
  rw [← List.cons_append, hread, hunits, hlength, Option.map_some, printedUnits_eq hvalue]
  congr 1
  rw [Decimal.value, zpow_neg, zpow_natCast, signedRat_mul, div_eq_mul_inv]

end FacetedSearch.Decimal
