import FacetedSearch.Proofs.Decimal.Exponent
import FacetedSearch.Scale.Exact
import Mathlib.Data.Rat.Floor
import Mathlib.Order.Bounds.Basic
import Mathlib.Tactic.Linarith
import Mathlib.Tactic.Ring

/-!
# Nice numbers in exact arithmetic

A nice number is 1, 2 or 5 times a power of ten. Rounding up gives the least one that is not below
a value, and it is less than five halves of the value. Rounding to a close one gives a nice number
between two thirds and five thirds of the value. Bounds are the multiples of a step that enclose a
number most closely.
-/

namespace FacetedSearch

/-- The floor of the decimal logarithm is what its name says. -/
theorem zpow_ratLogFloor {v : ℚ} (hv : 0 < v) :
    (10 : ℚ) ^ ratLogFloor v ≤ v ∧ v < 10 ^ (ratLogFloor v + 1) := by
  have hnum : 0 < v.num := Rat.num_pos.mpr hv
  have hcast : ((v.num.toNat : ℕ) : ℚ) / v.den = v := by
    rw [← Int.cast_natCast, Int.toNat_of_nonneg hnum.le, Rat.num_div_den]
  have h := Decimal.zpow_leadingExponent (by omega : 0 < v.num.toNat) v.pos
  rw [hcast] at h
  rw [ratLogFloor, if_neg (not_le.mpr hv)]
  exact h

namespace Scale

/-- The numbers that steps are: 1, 2 or 5 times a power of ten. -/
def Nice (x : ℚ) : Prop :=
  ∃ (d : ℕ) (k : ℤ), (d = 1 ∨ d = 2 ∨ d = 5) ∧ x = d * 10 ^ k

theorem nice_mul_zpow {d : ℕ} (hd : d = 1 ∨ d = 2 ∨ d = 5 ∨ d = 10) (k : ℤ) :
    Nice (d * 10 ^ k) := by
  rcases hd with rfl | rfl | rfl | rfl
  · exact ⟨1, k, by decide, rfl⟩
  · exact ⟨2, k, by decide, rfl⟩
  · exact ⟨5, k, by decide, rfl⟩
  · refine ⟨1, k + 1, by decide, ?_⟩
    rw [zpow_add_one₀ (by norm_num), Nat.cast_one, one_mul, mul_comm]
    norm_num

/-! ## The digit -/

section

variable {f : ℚ}

theorem niceDigit_up (f : ℚ) :
    niceDigit .up f = if f ≤ 1 then 1 else if f ≤ 2 then 2 else if f ≤ 5 then 5 else 10 := rfl

theorem niceDigit_close (f : ℚ) :
    niceDigit .close f =
      if f < 3 / 2 then 1 else if f < 3 then 2 else if f < 7 then 5 else 10 := rfl

theorem niceDigit_cases (rounding : Rounding) (f : ℚ) :
    niceDigit rounding f = 1 ∨ niceDigit rounding f = 2 ∨ niceDigit rounding f = 5 ∨
      niceDigit rounding f = 10 := by
  cases rounding with
  | up => rw [niceDigit_up]; split_ifs <;> simp
  | close => rw [niceDigit_close]; split_ifs <;> simp

theorem le_niceDigit_up (hf : f < 10) : f ≤ niceDigit .up f := by
  rw [niceDigit_up]
  split_ifs <;> norm_num <;> linarith

/-- No smaller digit is large enough. -/
theorem niceDigit_up_le {d : ℕ} (hd : d = 1 ∨ d = 2 ∨ d = 5) (h : f ≤ d) :
    niceDigit .up f ≤ d := by
  rw [niceDigit_up]
  rcases hd with rfl | rfl | rfl <;> split_ifs <;> norm_num at h ⊢ <;> linarith

theorem niceDigit_up_lt (hf : 1 ≤ f) : 2 * (niceDigit .up f : ℚ) < 5 * f := by
  rw [niceDigit_up]
  split_ifs <;> norm_num <;> linarith

theorem niceDigit_close_bounds (h₁ : 1 ≤ f) (h₁₀ : f < 10) :
    2 * f < 3 * (niceDigit .close f : ℚ) ∧ 3 * (niceDigit .close f : ℚ) ≤ 5 * f := by
  rw [niceDigit_close]
  split_ifs <;> norm_num <;> constructor <;> linarith

end

/-! ## The number -/

theorem powerOfTen_eq (e : ℤ) : (powerOfTen e : ℚ) = 10 ^ e := by
  change mkRat (10 ^ e.toNat : ℕ) (10 ^ (-e).toNat) = _
  rw [Rat.mkRat_eq_div]
  rcases Int.eq_nat_or_neg e with ⟨n, rfl | rfl⟩
  · rw [Int.toNat_natCast, Int.toNat_neg_natCast]
    norm_num
  · rw [neg_neg, Int.toNat_natCast, Int.toNat_neg_natCast, zpow_neg]
    norm_num

variable {v : ℚ}

/-- A positive number is split into a factor from one to ten and a power of ten, and the factor
decides on the digit. -/
theorem niceNumber_eq (rounding : Rounding) (hv : 0 < v) :
    ∃ (f : ℚ) (e : ℤ), 1 ≤ f ∧ f < 10 ∧ v = f * 10 ^ e ∧
      niceNumber rounding v = .ok (niceDigit rounding f * 10 ^ e) := by
  obtain ⟨hlower, hupper⟩ := zpow_ratLogFloor hv
  have hpos : (0 : ℚ) < 10 ^ ratLogFloor v := by positivity
  rw [zpow_add_one₀ (by norm_num)] at hupper
  refine ⟨v / 10 ^ ratLogFloor v, ratLogFloor v, ?_, ?_, ?_, ?_⟩
  · rwa [one_le_div hpos]
  · rwa [div_lt_iff₀ hpos, mul_comm]
  · rw [div_mul_cancel₀ _ hpos.ne']
  · have hvalid : ¬ ((!isFinite v || decide (v ≤ ofNat 0)) = true) := by
      change ¬ (decide (v ≤ 0) = true)
      simpa using hv
    rw [niceNumber, if_neg hvalid, ← powerOfTen_eq]
    rfl

/-- A nice number with a smaller power of ten is below the value, and one with a greater power is
above all digits. With the same power the digits decide. -/
theorem niceDigit_up_mul_le {f : ℚ} {e : ℤ} (h₁ : 1 ≤ f) {d : ℕ} {k : ℤ}
    (hd : d = 1 ∨ d = 2 ∨ d = 5) (hle : f * 10 ^ e ≤ d * 10 ^ k) :
    (niceDigit .up f : ℚ) * 10 ^ e ≤ d * 10 ^ k := by
  have hpos : (0 : ℚ) < 10 ^ e := by positivity
  have hpos' : (0 : ℚ) < 10 ^ k := by positivity
  have hpow {a b : ℤ} (hab : a < b) : (10 : ℚ) ^ a * 10 ≤ 10 ^ b := by
    rw [← zpow_add_one₀ (by norm_num)]
    exact zpow_le_zpow_right₀ (by norm_num) hab
  have hdigit : 1 ≤ (d : ℚ) ∧ (d : ℚ) ≤ 5 := by
    rcases hd with rfl | rfl | rfl <;> norm_num
  rcases lt_trichotomy k e with hlt | rfl | hgt
  · refine absurd hle (not_le.mpr ?_)
    calc (d : ℚ) * 10 ^ k ≤ 5 * 10 ^ k := mul_le_mul_of_nonneg_right hdigit.2 hpos'.le
      _ < 10 ^ k * 10 := by linarith
      _ ≤ 10 ^ e := hpow hlt
      _ ≤ f * 10 ^ e := le_mul_of_one_le_left hpos.le h₁
  · have hf : f ≤ d := le_of_mul_le_mul_right hle hpos
    exact mul_le_mul_of_nonneg_right (Nat.cast_le.mpr (niceDigit_up_le hd hf)) hpos.le
  · have hup : (niceDigit .up f : ℚ) ≤ 10 := by
      rcases niceDigit_cases .up f with h | h | h | h <;> rw [h] <;> norm_num
    calc (niceDigit .up f : ℚ) * 10 ^ e ≤ 10 * 10 ^ e := mul_le_mul_of_nonneg_right hup hpos.le
      _ = 10 ^ e * 10 := mul_comm _ _
      _ ≤ 10 ^ k := hpow hgt
      _ ≤ d * 10 ^ k := le_mul_of_one_le_left hpos'.le hdigit.1

/-- Rounding up gives the least nice number that is not below the value. -/
theorem niceNumber_up (hv : 0 < v) :
    ∃ s, niceNumber .up v = .ok s ∧ IsLeast {x | Nice x ∧ v ≤ x} s ∧ 2 * s < 5 * v := by
  obtain ⟨f, e, h₁, h₁₀, rfl, hs⟩ := niceNumber_eq .up hv
  have hpos : (0 : ℚ) < 10 ^ e := by positivity
  refine ⟨_, hs, ⟨⟨nice_mul_zpow (niceDigit_cases .up f) e, ?_⟩, ?_⟩, ?_⟩
  · exact mul_le_mul_of_nonneg_right (le_niceDigit_up h₁₀) hpos.le
  · rintro _ ⟨⟨d, k, hd, rfl⟩, hle⟩
    exact niceDigit_up_mul_le h₁ hd hle
  · rw [← mul_assoc, ← mul_assoc]
    exact mul_lt_mul_of_pos_right (niceDigit_up_lt h₁) hpos

/-- The thresholds of a close nice number move a value by bounded factors. -/
theorem niceNumber_close (hv : 0 < v) :
    ∃ s, niceNumber .close v = .ok s ∧ Nice s ∧ 2 * v < 3 * s ∧ 3 * s ≤ 5 * v := by
  obtain ⟨f, e, h₁, h₁₀, rfl, hs⟩ := niceNumber_eq .close hv
  have hpos : (0 : ℚ) < 10 ^ e := by positivity
  obtain ⟨hlower, hupper⟩ := niceDigit_close_bounds h₁ h₁₀
  refine ⟨_, hs, nice_mul_zpow (niceDigit_cases .close f) e, ?_, ?_⟩
  · rw [← mul_assoc, ← mul_assoc]
    exact mul_lt_mul_of_pos_right hlower hpos
  · rw [← mul_assoc, ← mul_assoc]
    exact mul_le_mul_of_nonneg_right hupper hpos.le

/-! ## Multiples of a step -/

/-- Multiples of a step that enclose a range, with less than a step to spare on either side. -/
structure Encloses (step bottom top lower upper : ℚ) : Prop where
  multiples : ∃ j k : ℤ, bottom = j * step ∧ top = k * step
  bottom_le : bottom ≤ lower
  lt_bottom_add : lower < bottom + step
  top_sub_lt : top - step < upper
  le_top : upper ≤ top

section

variable {step bottom top lower upper : ℚ}

theorem Encloses.range_le (h : Encloses step bottom top lower upper) :
    upper - lower ≤ top - bottom := by
  linarith [h.bottom_le, h.le_top]

theorem Encloses.lt_range_add (h : Encloses step bottom top lower upper) :
    top - bottom < upper - lower + 2 * step := by
  linarith [h.lt_bottom_add, h.top_sub_lt]

/-- Dividing by the step and rounding outwards gives such multiples. -/
theorem encloses (hstep : 0 < step) (lower upper : ℚ) :
    Encloses step (floor (lower / step) * step) (ceil (upper / step) * step) lower upper := by
  have hfloor : floor (lower / step) = ((⌊lower / step⌋ : ℤ) : ℚ) := rfl
  have hceil : ceil (upper / step) = ((⌈upper / step⌉ : ℤ) : ℚ) := by
    change (((upper / step).ceil : ℤ) : ℚ) = _
    rw [Rat.ceil_eq_neg_floor_neg]
    rfl
  rw [hfloor, hceil]
  refine ⟨⟨_, _, rfl, rfl⟩, ?_, ?_, ?_, ?_⟩
  · exact (le_div_iff₀ hstep).mp (Int.floor_le _)
  · have h := (div_lt_iff₀ hstep).mp (Int.lt_floor_add_one (lower / step))
    rwa [add_mul, one_mul] at h
  · have h := (lt_div_iff₀ hstep).mp
      (sub_lt_iff_lt_add.mpr (Int.ceil_lt_add_one (upper / step)))
    rwa [sub_mul, one_mul] at h
  · exact (div_le_iff₀ hstep).mp (Int.le_ceil _)

end

end Scale

end FacetedSearch
