import FacetedSearch.Proofs.Double.Quotient

/-!
# The double nearest to a decimal

A decimal is read as the exact ratio that it stands for, rounded once, whichever way it is
computed: small decimals by one operation on doubles, others on unpacked numbers, and those far
outside the doubles at once. So decimals of one value are read as one double.
-/

namespace FacetedSearch.Double

open Float.Model Float.Model.UnpackedFloat

/-- The double without a minus sign that is nearest to a ratio. -/
structure IsNearest (x : Float) (num den : ℕ) : Prop where
  isNaN : x.isNaN = false
  unsigned : Unsigned x
  units : units x = roundUnits (num * unitsPerOne : ℕ) den

theorem roundUnits_natCast (n den : ℕ) :
    roundUnits (n : ℤ) den = (min (nearest n den) infinityUnits : ℕ) := by
  rw [roundUnits, if_neg (by omega), Int.natAbs_natCast]

theorem roundUnits_congr {a b c d : ℕ} (hb : 0 < b) (hd : 0 < d) (h : a * d = c * b) :
    roundUnits (a : ℤ) b = roundUnits (c : ℤ) d := by
  rw [roundUnits_natCast, roundUnits_natCast, nearest_congr hb hd h]

/-- Ratios of one value have the same nearest double. -/
theorem IsNearest.congr {x : Float} {a b c d : ℕ} (h : IsNearest x a b) (hb : 0 < b) (hd : 0 < d)
    (heq : a * d = c * b) : IsNearest x c d where
  isNaN := h.isNaN
  unsigned := h.unsigned
  units := by
    rw [h.units]
    refine roundUnits_congr hb hd ?_
    rw [Nat.mul_right_comm, heq, Nat.mul_right_comm]

theorem isNearest_of_represents {x : Float} {u : UnpackedFloat} {num den : ℕ}
    (hx : x.toModel.unpack = unpack .binary64 (pack .binary64 u))
    (h : Represents u .positive (nearest (num * unitsPerOne) den)) : IsNearest x num den where
  isNaN := by
    rw [isNaN_eq_false_iff, hx]
    exact h.unpack_pack.1
  unsigned := by
    rw [Unsigned, hx]
    exact h.unpack_pack.2.1
  units := by
    rw [Double.units, hx]
    exact h.signedUnits_unpack_pack.2

theorem isNearest_of_zero {x : Float} (hx : x.toModel.unpack = .zero .positive) {num den : ℕ}
    (h : nearest (num * unitsPerOne) den = 0) : IsNearest x num den where
  isNaN := by
    rw [isNaN_eq_false_iff, hx]
    simp
  unsigned := by
    rw [Unsigned, hx]
    rfl
  units := by
    rw [Double.units, hx, signedUnits_zero, roundUnits_natCast, h, Nat.zero_min]
    rfl

theorem isNearest_of_infinity {x : Float} (hx : x.toModel.unpack = .infinity .positive)
    {num den : ℕ} (h : infinityUnits ≤ nearest (num * unitsPerOne) den) :
    IsNearest x num den where
  isNaN := by
    rw [isNaN_eq_false_iff, hx]
    simp
  unsigned := by
    rw [Unsigned, hx]
    rfl
  units := by
    rw [Double.units, hx, roundUnits_natCast, Nat.min_eq_right h]
    rfl

/-- What is below half a unit is rounded to nothing. -/
theorem nearest_of_two_mul_lt {num den : ℕ} (h : 2 * num < den) : nearest num den = 0 := by
  have hquot : num / den = 0 := Nat.div_eq_of_lt (by omega)
  have hdropped : dropped num den = 0 := by
    unfold dropped
    rw [hquot]
    rfl
  have hround : Decimal.roundHalfEven num den = 0 := by
    rw [Decimal.roundHalfEven_eq, if_pos (by rw [Nat.mod_eq_of_lt (by omega)]; exact h), hquot]
  unfold nearest significand
  simp only [hdropped, Nat.pow_zero, Nat.mul_one, hround]

theorem two_pow_le_nearest {num k : ℕ} (h : 2 ^ k ≤ num) : 2 ^ k ≤ nearest num 1 := by
  have hpow : nearest (2 ^ k) 1 = 2 ^ k := by
    have hone := nearest_of_lt (m := 1) (by decide) k
    rwa [Nat.one_mul] at hone
  calc 2 ^ k = nearest (2 ^ k) 1 := hpow.symm
    _ ≤ nearest num 1 := nearest_le_nearest Nat.one_pos Nat.one_pos (by omega)

/-! ## Small decimals -/

theorem units_toUInt64_toFloat {m : ℕ} (h : m < 2 ^ 53) :
    m.toUInt64.toFloat.isFinite = true ∧ units m.toUInt64.toFloat = (m * unitsPerOne : ℕ) := by
  obtain ⟨k, hk⟩ : ∃ k, k = 1074 := ⟨_, rfl⟩
  have hword : m.toUInt64.toNat = m := by
    change m % 2 ^ 64 = m
    omega
  have hinf := mul_two_pow_lt_infinityUnits h (k := k) (by omega)
  refine ⟨isFinite_toFloat (by rwa [hword]), ?_⟩
  rw [(units_toFloat m.toUInt64).2, hword, roundUnits_natCast, unitsPerOne_eq hk, nearest_of_lt h,
    Nat.min_eq_left hinf.le]

/-- Whether an unpacked double is the power of ten with exponent `k`. -/
def isTenPow (k : ℕ) : UnpackedFloat → Bool
  | .finite .positive m e _ => decide (-52 ≤ e) && decide (m * 2 ^ (e + 52).toNat = 10 ^ k * 2 ^ 52)
  | _ => false

theorem isTenPow_table :
    ∀ k : Fin 23, isTenPow k (Float.exactlyRepresentablePowersOfTen[k]).toModel.unpack = true := by
  decide +kernel

theorem units_of_isTenPow {k : ℕ} {x : Float} (h : isTenPow k x.toModel.unpack = true) :
    x.isFinite = true ∧ Unsigned x ∧ units x = (10 ^ k * unitsPerOne : ℕ) := by
  unfold Float.isFinite Float.Model.isFinite Unsigned units
  generalize x.toModel.unpack = u at h ⊢
  cases u with
  | notANumber => simp [isTenPow] at h
  | infinity s => simp [isTenPow] at h
  | zero s => simp [isTenPow] at h
  | finite s m e hm =>
      cases s with
      | negative => simp [isTenPow] at h
      | positive =>
          simp only [isTenPow, Bool.and_eq_true, decide_eq_true_eq] at h
          refine ⟨rfl, rfl, ?_⟩
          obtain ⟨j, hj⟩ : ∃ j, j = 1074 := ⟨_, rfl⟩
          have hexp : (e + 1074).toNat = (e + 52).toNat + (j - 52) := by omega
          have hsplit : j = 52 + (j - 52) := by omega
          change ((m * 2 ^ (e + 1074).toNat : ℕ) : ℤ) = _
          rw [hexp, Nat.pow_add, ← Nat.mul_assoc, h.2, unitsPerOne_eq hj, Nat.mul_assoc,
            ← Nat.pow_add, ← hsplit]

theorem isNearest_mul_tenPow {m k : ℕ} (hm : m < 2 ^ 53) {y : Float}
    (hy : isTenPow k y.toModel.unpack = true) :
    IsNearest (m.toUInt64.toFloat * y) (m * 10 ^ k) 1 := by
  obtain ⟨hmfin, hmunits⟩ := units_toUInt64_toFloat hm
  obtain ⟨hyfin, hyunsigned, hyunits⟩ := units_of_isTenPow hy
  refine ⟨isNaN_mul hmfin hyfin, (unsigned_toFloat _).mul hyunsigned, ?_⟩
  rw [units_mul hmfin hyfin, hmunits, hyunits]
  have hscale := roundUnits_mul_right (m * 10 ^ k * unitsPerOne : ℕ) unitsPerOne_pos Nat.one_pos
  rw [Nat.one_mul] at hscale
  rw [← hscale]
  push_cast
  ring_nf

theorem isNearest_div_tenPow {m k : ℕ} (hm : m < 2 ^ 53) {y : Float}
    (hy : isTenPow k y.toModel.unpack = true) :
    IsNearest (m.toUInt64.toFloat / y) m (10 ^ k) := by
  obtain ⟨hmfin, hmunits⟩ := units_toUInt64_toFloat hm
  obtain ⟨hyfin, hyunsigned, hyunits⟩ := units_of_isTenPow hy
  have hten : 0 < 10 ^ k := Nat.pow_pos (by decide)
  have hpos : 0 < units y := by
    rw [hyunits]
    exact Int.natCast_pos.mpr (Nat.mul_pos hten unitsPerOne_pos)
  obtain ⟨hnum, hunits⟩ := units_div (unsigned_toFloat _) hmfin hyunsigned hyfin hpos
  refine ⟨hnum, (unsigned_toFloat _).div hyunsigned, ?_⟩
  rw [hunits, hmunits, hyunits, Int.toNat_natCast,
    roundUnits_mul_right _ unitsPerOne_pos hten]

/-! ## Other decimals -/

theorem unpack_ofModel_ofScientific (m : ℕ) (e : ℤ) :
    (Float.ofModel (Float.Model.ofScientific m e)).toModel.unpack =
      unpack .binary64 (pack .binary64 (UnpackedFloat.ofScientific .binary64 m e)) := rfl

theorem isNearest_ofModel_zero (e : ℤ) (den : ℕ) :
    IsNearest (Float.ofModel (Float.Model.ofScientific 0 e)) 0 den := by
  refine isNearest_of_zero ?_ (by rw [Nat.zero_mul, nearest_zero_left])
  rw [unpack_ofModel_ofScientific, UnpackedFloat.ofScientific, dif_pos rfl, unpack_pack_zero]

theorem two_pow_le_ten_pow (k : ℕ) : 2 ^ k ≤ 10 ^ k := Nat.pow_le_pow_left (by decide) k

theorem isNearest_ofModel_of_nonneg {m : ℕ} (hm : m ≠ 0) (e : ℕ) :
    IsNearest (Float.ofModel (Float.Model.ofScientific m e)) (m * 10 ^ e) 1 := by
  obtain ⟨k, hk⟩ : ∃ k, k = 1074 := ⟨_, rfl⟩
  have hbits : (2 : ℤ) ^ Format.binary64.exponentBits = 2048 := rfl
  have hunpack := unpack_ofModel_ofScientific m e
  unfold UnpackedFloat.ofScientific at hunpack
  rw [dif_neg hm] at hunpack
  by_cases hlarge : (e : ℤ) > 2 ^ Format.binary64.exponentBits
  · rw [if_pos hlarge, unpack_pack_infinity] at hunpack
    refine isNearest_of_infinity hunpack ?_
    have hinf : infinityUnits ≤ 2 ^ (e + k) := by
      obtain ⟨j, hj⟩ : ∃ j, j = 2098 := ⟨_, rfl⟩
      rw [infinityUnits_eq hj]
      exact Nat.pow_le_pow_right two_pos (by omega)
    refine hinf.trans (two_pow_le_nearest ?_)
    rw [unitsPerOne_eq hk, Nat.pow_add]
    refine Nat.mul_le_mul_right _ ((two_pow_le_ten_pow e).trans ?_)
    exact Nat.le_mul_of_pos_left _ (Nat.pos_of_ne_zero hm)
  · rw [if_neg hlarge, if_neg (by omega), if_pos (by omega)] at hunpack
    refine isNearest_of_represents hunpack ?_
    have henough : 2 ^ 52 ≤ m <<< 53 * 10 ^ e := by
      have hten : 0 < 10 ^ e := Nat.pow_pos (by decide)
      rw [Nat.shiftLeft_eq]
      calc 2 ^ 52 ≤ m * 2 ^ 53 := by omega
        _ ≤ m * 2 ^ 53 * 10 ^ e := Nat.le_mul_of_pos_right _ hten
    have hround := represents_roundWithAccuracy_exact (e := -53 + 0) (.inr henough) .positive
    have hnearest : nearest (scaledNum (m <<< 53 * 10 ^ e) (-53 + 0)) (scaledDen 1 (-53 + 0)) =
        nearest (m * 10 ^ e * unitsPerOne) 1 := by
      refine nearest_congr (scaledDen_pos Nat.one_pos _) Nat.one_pos ?_
      have hden : (-(-53 + 0 + 1074) : ℤ).toNat = 0 := by decide
      have hexp : 53 + (-53 + 0 + 1074 : ℤ).toNat = k := by omega
      rw [scaledNum, scaledDen, unitsPerOne_eq hk, hden, ← hexp, Nat.shiftLeft_eq, Nat.pow_add]
      ring
    rw [hnearest] at hround
    exact hround

theorem isNearest_ofModel_of_neg {m : ℕ} (hm : m ≠ 0) {e : ℕ} (he : 0 < e) :
    IsNearest (Float.ofModel (Float.Model.ofScientific m (-e))) m (10 ^ e) := by
  obtain ⟨k, hk⟩ : ∃ k, k = 1074 := ⟨_, rfl⟩
  have hbits : (2 : ℤ) ^ Format.binary64.exponentBits = 2048 := rfl
  have hunpack := unpack_ofModel_ofScientific m (-e)
  unfold UnpackedFloat.ofScientific at hunpack
  rw [dif_neg hm, if_neg (by omega)] at hunpack
  by_cases hsmall : -(e : ℤ) < -(2 ^ Format.binary64.exponentBits + m.log2)
  · rw [if_pos hsmall, unpack_pack_zero] at hunpack
    refine isNearest_of_zero hunpack (nearest_of_two_mul_lt ?_)
    calc 2 * (m * unitsPerOne) < 2 * (2 ^ (m.log2 + 1) * 2 ^ k) := by
          rw [unitsPerOne_eq hk]
          have hlt := Nat.mul_lt_mul_of_pos_right (Nat.lt_log2_self (n := m)) (Nat.two_pow_pos k)
          omega
      _ = 2 ^ (m.log2 + 1 + k + 1) := by ring
      _ ≤ 2 ^ e := Nat.pow_le_pow_right two_pos (by omega)
      _ ≤ 10 ^ e := two_pow_le_ten_pow e
  · rw [if_neg hsmall, if_neg (by omega)] at hunpack
    refine isNearest_of_represents hunpack ?_
    have hexp : (- -(e : ℤ)).toNat = e := by omega
    have hten : 0 < 10 ^ (- -(e : ℤ)).toNat := Nat.pow_pos (by decide)
    have hscale : ((k : ℕ) : ℤ) - ((0 : ℕ) : ℤ) = 0 - 0 + 1074 := by omega
    have hdiv := represents_div (Nat.pos_of_ne_zero hm) hten hscale .positive .positive
    have hnearest : nearest (m * unitsPerOne) (10 ^ e) =
        nearest (m * 2 ^ k) (10 ^ (- -(e : ℤ)).toNat * 2 ^ 0) := by
      rw [unitsPerOne_eq hk, hexp, Nat.pow_zero, Nat.mul_one]
    rw [hnearest]
    exact hdiv

theorem isNearest_ofScientific_of_nonneg (m e : ℕ) :
    IsNearest (Float.ofScientific m false e) (m * 10 ^ e) 1 := by
  unfold Float.ofScientific
  by_cases h : m < 2 ^ 53 ∧ e ≤ 22
  · rw [dif_pos h]
    exact isNearest_mul_tenPow h.1 (isTenPow_table ⟨e, by omega⟩)
  · rw [dif_neg h]
    change IsNearest (Float.ofModel (Float.Model.ofScientific m e)) _ _
    by_cases hm : m = 0
    · rw [hm, Nat.zero_mul]
      exact isNearest_ofModel_zero _ 1
    · exact isNearest_ofModel_of_nonneg hm e

theorem isNearest_ofScientific_of_neg (m : ℕ) {e : ℕ} (he : 0 < e) :
    IsNearest (Float.ofScientific m true e) m (10 ^ e) := by
  unfold Float.ofScientific
  by_cases h : m < 2 ^ 53 ∧ e ≤ 22
  · rw [dif_pos h]
    exact isNearest_div_tenPow h.1 (isTenPow_table ⟨e, by omega⟩)
  · rw [dif_neg h]
    change IsNearest (Float.ofModel (Float.Model.ofScientific m (Int.negOfNat e))) _ _
    rw [Int.negOfNat_eq]
    by_cases hm : m = 0
    · rw [hm]
      exact isNearest_ofModel_zero _ _
    · exact isNearest_ofModel_of_neg hm he

end FacetedSearch.Double

namespace FacetedSearch.Decimal

open Double

theorem isNearest_nearest (d : Decimal) :
    IsNearest d.nearest (d.digits * 10 ^ d.exponent.toNat) (10 ^ (-d.exponent).toNat) := by
  obtain ⟨m, e⟩ := d
  unfold nearest
  by_cases he : e < 0
  · have hnum : e.toNat = 0 := by omega
    have hden : (-e).toNat = e.natAbs := by omega
    rw [decide_eq_true he, hnum, hden, Nat.pow_zero, Nat.mul_one]
    exact isNearest_ofScientific_of_neg m (Int.natAbs_pos.mpr he.ne)
  · have hnum : e.toNat = e.natAbs := by omega
    have hden : (-e).toNat = 0 := by omega
    rw [decide_eq_false he, hnum, hden, Nat.pow_zero]
    exact isNearest_ofScientific_of_nonneg m _

/-- The number that a decimal stands for. -/
def value (d : Decimal) : ℚ := d.digits * 10 ^ d.exponent

theorem value_eq_div (d : Decimal) :
    d.value = (d.digits * 10 ^ d.exponent.toNat : ℕ) / (10 ^ (-d.exponent).toNat : ℕ) := by
  obtain ⟨m, e⟩ := d
  unfold value
  rcases Int.le_total 0 e with he | he
  · obtain ⟨n, rfl⟩ := Int.eq_ofNat_of_zero_le he
    simp
  · obtain ⟨n, rfl⟩ := Int.exists_eq_neg_ofNat he
    simp [div_eq_mul_inv]

end FacetedSearch.Decimal
