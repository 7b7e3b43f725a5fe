import FacetedSearch.Decimal.Layout
import Mathlib

/-!
# Rounding to 53 bits

Rounding a ratio to a whole number with ties to even, and rounding it to 53 significant bits but
never below whole numbers. Both depend on the ratio alone and keep the order of ratios. Doubles
are counted in units of the least positive one, so the second is how operations on doubles round.
-/

namespace FacetedSearch

namespace Decimal

theorem roundHalfEven_eq (num den : ℕ) :
    roundHalfEven num den =
      if 2 * (num % den) < den then num / den
      else if 2 * (num % den) = den then num / den + num / den % 2
      else num / den + 1 := by
  unfold roundHalfEven
  dsimp only
  rcases Nat.lt_trichotomy (2 * (num % den)) den with h | h | h
  · simp only [Nat.compare_eq_lt.mpr h, if_pos h]
  · rw [Nat.compare_eq_eq.mpr h]
    simp only [h, lt_irrefl, if_false, if_true]
    split_ifs <;> omega
  · simp only [Nat.compare_eq_gt.mpr h, if_neg (Nat.not_lt_of_gt h), if_neg (Nat.ne_of_gt h)]

theorem div_le_roundHalfEven (num den : ℕ) : num / den ≤ roundHalfEven num den := by
  rw [roundHalfEven_eq]
  split_ifs <;> omega

theorem roundHalfEven_le_succ (num den : ℕ) : roundHalfEven num den ≤ num / den + 1 := by
  rw [roundHalfEven_eq]
  split_ifs <;> omega

/-- Rounding changes a ratio by one half at most. -/
theorem two_mul_roundHalfEven_mul (num : ℕ) {den : ℕ} (h : 0 < den) :
    2 * (roundHalfEven num den * den) ≤ 2 * num + den ∧
      2 * num ≤ 2 * (roundHalfEven num den * den) + den := by
  have hdiv := Nat.div_add_mod num den
  have hlt := Nat.mod_lt num h
  have hsucc : (num / den + 1) * den = den * (num / den) + den := by ring
  have hself : num / den * den = den * (num / den) := Nat.mul_comm _ _
  rw [roundHalfEven_eq]
  split_ifs with hbelow hhalf
  · omega
  · rcases Nat.mod_two_eq_zero_or_one (num / den) with heven | hodd
    · rw [heven, Nat.add_zero]
      omega
    · rw [hodd]
      omega
  · omega

/-- Rounding changes a ratio by one half at most. -/
theorem abs_roundHalfEven_sub_le (num : ℕ) {den : ℕ} (h : 0 < den) :
    |(roundHalfEven num den : ℚ) - num / den| ≤ 1 / 2 := by
  obtain ⟨hhigh, hlow⟩ := two_mul_roundHalfEven_mul num h
  have hden : (0 : ℚ) < den := Nat.cast_pos.mpr h
  have hhigh' : 2 * ((roundHalfEven num den : ℚ) * den) ≤ 2 * num + den := by
    exact_mod_cast hhigh
  have hlow' : 2 * (num : ℚ) ≤ 2 * (roundHalfEven num den * den) + den := by
    exact_mod_cast hlow
  have hquot : (roundHalfEven num den : ℚ) - num / den =
      (roundHalfEven num den * den - num) / den := by
    field_simp
  rw [hquot, abs_le, le_div_iff₀ hden, div_le_iff₀ hden]
  constructor <;> linarith

theorem div_le_div_of_mul_le_mul {a b c d : ℕ} (hb : 0 < b) (hd : 0 < d) (h : a * d ≤ c * b) :
    a / b ≤ c / d := by
  rw [Nat.le_div_iff_mul_le hd]
  refine Nat.le_of_mul_le_mul_right ?_ hb
  calc a / b * d * b = a / b * b * d := Nat.mul_right_comm _ _ _
    _ ≤ a * d := Nat.mul_le_mul_right d (Nat.div_mul_le_self a b)
    _ ≤ c * b := h

theorem roundHalfEven_le_roundHalfEven {a b c d : ℕ} (hb : 0 < b) (hd : 0 < d)
    (h : a * d ≤ c * b) : roundHalfEven a b ≤ roundHalfEven c d := by
  rcases Nat.lt_or_eq_of_le (div_le_div_of_mul_le_mul hb hd h) with hlt | heq
  · exact (roundHalfEven_le_succ a b).trans (hlt.trans_le (div_le_roundHalfEven c d))
  · -- with equal quotients the remainders are in the order of the ratios
    have hrem : a % b * d ≤ c % d * b := by
      have ha : a * d = a / b * (b * d) + a % b * d := by
        conv_lhs => rw [← Nat.div_add_mod a b]
        ring
      have hc : c * b = c / d * (b * d) + c % d * b := by
        conv_lhs => rw [← Nat.div_add_mod c d]
        ring
      rw [ha, hc, heq] at h
      omega
    have hdouble : 2 * (a % b) * d ≤ 2 * (c % d) * b := by
      rw [Nat.mul_assoc, Nat.mul_assoc]
      exact Nat.mul_le_mul_left 2 hrem
    have hhalf (h : b ≤ 2 * (a % b)) : d ≤ 2 * (c % d) := by
      refine Nat.le_of_mul_le_mul_right ?_ hb
      calc d * b = b * d := Nat.mul_comm d b
        _ ≤ 2 * (a % b) * d := Nat.mul_le_mul_right d h
        _ ≤ 2 * (c % d) * b := hdouble
    have hover (h : b < 2 * (a % b)) : d < 2 * (c % d) := by
      refine Nat.lt_of_mul_lt_mul_right (a := b) ?_
      calc d * b = b * d := Nat.mul_comm d b
        _ < 2 * (a % b) * d := Nat.mul_lt_mul_of_pos_right h hd
        _ ≤ 2 * (c % d) * b := hdouble
    rw [roundHalfEven_eq, roundHalfEven_eq, heq]
    split_ifs <;> omega

/-- Only the ratio matters. -/
theorem roundHalfEven_congr {a b c d : ℕ} (hb : 0 < b) (hd : 0 < d) (h : a * d = c * b) :
    roundHalfEven a b = roundHalfEven c d :=
  (roundHalfEven_le_roundHalfEven hb hd h.le).antisymm (roundHalfEven_le_roundHalfEven hd hb h.ge)

@[simp] theorem roundHalfEven_mul_self (n : ℕ) {den : ℕ} (h : 0 < den) :
    roundHalfEven (n * den) den = n := by
  rw [roundHalfEven_eq, Nat.mul_mod_left, Nat.mul_div_cancel n h]
  simp [h]

end Decimal

namespace Double

/-- How many of the last bits of a ratio a significand of 53 bits has no room for. -/
def dropped (num den : ℕ) : ℕ := (num / den).log2 - 52

def significand (num den : ℕ) : ℕ :=
  Decimal.roundHalfEven num (den * 2 ^ dropped num den)

/-- The whole number with a significand of 53 bits that is nearest to a ratio, a half going to
the even neighbour. -/
def nearest (num den : ℕ) : ℕ := significand num den * 2 ^ dropped num den

theorem div_lt_two_pow_dropped (num den : ℕ) : num / den < 2 ^ (53 + dropped num den) := by
  refine (Nat.lt_log2_self (n := num / den)).trans_le (Nat.pow_le_pow_right two_pos ?_)
  unfold dropped
  omega

theorem two_pow_dropped_le_div {num den : ℕ} (h : 0 < dropped num den) :
    2 ^ (52 + dropped num den) ≤ num / den := by
  unfold dropped at h ⊢
  have hne : num / den ≠ 0 := fun h0 => by simp [h0] at h
  have hlog : 52 + ((num / den).log2 - 52) = (num / den).log2 := by omega
  rw [hlog]
  exact Nat.log2_self_le hne

theorem significand_le (num den : ℕ) : significand num den ≤ 2 ^ 53 := by
  have hquot : num / (den * 2 ^ dropped num den) < 2 ^ 53 := by
    rw [← Nat.div_div_eq_div_mul, Nat.div_lt_iff_lt_mul (Nat.two_pow_pos _), ← Nat.pow_add]
    exact div_lt_two_pow_dropped num den
  have hround := Decimal.roundHalfEven_le_succ num (den * 2 ^ dropped num den)
  unfold significand
  omega

/-- Where bits are dropped, none of the 53 is idle. -/
theorem le_significand {num den : ℕ} (h : 0 < dropped num den) : 2 ^ 52 ≤ significand num den := by
  have hquot : 2 ^ 52 ≤ num / (den * 2 ^ dropped num den) := by
    rw [← Nat.div_div_eq_div_mul, Nat.le_div_iff_mul_le (Nat.two_pow_pos _), ← Nat.pow_add]
    exact two_pow_dropped_le_div h
  exact hquot.trans (Decimal.div_le_roundHalfEven _ _)

theorem nearest_le_nearest {a b c d : ℕ} (hb : 0 < b) (hd : 0 < d) (h : a * d ≤ c * b) :
    nearest a b ≤ nearest c d := by
  have hquot := Decimal.div_le_div_of_mul_le_mul hb hd h
  have hdropped : dropped a b ≤ dropped c d := by
    have hlog : (a / b).log2 ≤ (c / d).log2 := by
      rw [Nat.log2_eq_log_two, Nat.log2_eq_log_two]
      exact Nat.log_mono_right hquot
    unfold dropped
    omega
  rcases Nat.lt_or_eq_of_le hdropped with hlt | heq
  · -- the power of two that separates the binades lies between both sides
    calc nearest a b ≤ 2 ^ 53 * 2 ^ dropped a b := Nat.mul_le_mul_right _ (significand_le a b)
      _ = 2 ^ (53 + dropped a b) := (Nat.pow_add 2 53 _).symm
      _ ≤ 2 ^ (52 + dropped c d) := Nat.pow_le_pow_right two_pos (by omega)
      _ = 2 ^ 52 * 2 ^ dropped c d := Nat.pow_add 2 52 _
      _ ≤ nearest c d := Nat.mul_le_mul_right _ (le_significand (by omega))
  · unfold nearest significand
    rw [heq]
    refine Nat.mul_le_mul_right _ ?_
    refine Decimal.roundHalfEven_le_roundHalfEven (Nat.mul_pos hb (Nat.two_pow_pos _))
      (Nat.mul_pos hd (Nat.two_pow_pos _)) ?_
    calc a * (d * 2 ^ dropped c d) = a * d * 2 ^ dropped c d := (Nat.mul_assoc _ _ _).symm
      _ ≤ c * b * 2 ^ dropped c d := Nat.mul_le_mul_right _ h
      _ = c * (b * 2 ^ dropped c d) := Nat.mul_assoc _ _ _

theorem nearest_congr {a b c d : ℕ} (hb : 0 < b) (hd : 0 < d) (h : a * d = c * b) :
    nearest a b = nearest c d :=
  (nearest_le_nearest hb hd h.le).antisymm (nearest_le_nearest hd hb h.ge)

theorem nearest_zero_left (den : ℕ) : nearest 0 den = 0 := by
  have hround : Decimal.roundHalfEven 0 (den * 2 ^ dropped 0 den) = 0 := by
    rw [Decimal.roundHalfEven_eq]
    split_ifs <;> simp_all
  unfold nearest significand
  rw [hround, Nat.zero_mul]

/-- What has a significand of 53 bits already is not changed. -/
theorem nearest_of_lt {m : ℕ} (h : m < 2 ^ 53) (k : ℕ) : nearest (m * 2 ^ k) 1 = m * 2 ^ k := by
  by_cases hm : m = 0
  · rw [hm, Nat.zero_mul, nearest_zero_left]
  have hdropped : dropped (m * 2 ^ k) 1 ≤ k := by
    have hlog : (m * 2 ^ k).log2 < 53 + k := by
      rw [Nat.log2_lt (Nat.mul_ne_zero hm (Nat.two_pow_pos k).ne'), Nat.pow_add]
      exact Nat.mul_lt_mul_of_pos_right h (Nat.two_pow_pos k)
    unfold dropped
    rw [Nat.div_one]
    omega
  have hsplit : m * 2 ^ k = m * 2 ^ (k - dropped (m * 2 ^ k) 1) * 2 ^ dropped (m * 2 ^ k) 1 := by
    rw [Nat.mul_assoc, ← Nat.pow_add, Nat.sub_add_cancel hdropped]
  unfold nearest significand
  rw [Nat.one_mul]
  generalize dropped (m * 2 ^ k) 1 = j at hsplit
  rw [hsplit, Decimal.roundHalfEven_mul_self _ (Nat.two_pow_pos j)]

end Double

end FacetedSearch
