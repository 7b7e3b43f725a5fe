import FacetedSearch.Proofs.Double.Unsigned

/-!
# Quotients of doubles

A quotient of doubles is the exact one in units, rounded once. Before it is rounded it has bits
enough, unless its exponent is so low that they do not matter.
-/

namespace FacetedSearch.Double

open Float.Model Float.Model.UnpackedFloat

/-- The exponent that a quotient is computed with. -/
def quotientExponent (m : ℕ) (e : ℤ) (m' : ℕ) (e' : ℤ) : ℤ :=
  min (e - e') (max (m.log2 + e - (m'.log2 + e') - 53) (-1074))

theorem divCore_eq (m : ℕ) (e : ℤ) (m' : ℕ) (e' : ℤ) :
    divCore .binary64 m e m' e' =
      let t := quotientExponent m e m' e'
      let num := m * 2 ^ (e - e' - t).toNat
      (num / m', t, accuracyOfFraction (num % m') m') := by
  have htarget : Format.binary64.targetExponent (totalExponent m e - totalExponent m' e') =
      max (m.log2 + e - (m'.log2 + e') - 53) (-1074) := by
    simp only [Format.targetExponent, totalExponent, Format.mantissaBits, Format.minExponent]
    omega
  unfold divCore
  rw [htarget]
  simp only [Nat.shiftLeft_eq]
  rfl

theorem quotient_enough {m m' : ℕ} (hm : 0 < m) (hm' : 0 < m') (e e' : ℤ) :
    quotientExponent m e m' e' ≤ -1074 ∨
      2 ^ 52 ≤ m * 2 ^ (e - e' - quotientExponent m e m' e').toNat / m' := by
  unfold quotientExponent
  generalize ht : min (e - e') (max (m.log2 + e - (m'.log2 + e') - 53) (-1074)) = t
  by_cases hlow : t ≤ -1074
  · exact .inl hlow
  · right
    have hbits : 52 + (m'.log2 + 1) ≤ m.log2 + (e - e' - t).toNat := by omega
    rw [Nat.le_div_iff_mul_le hm']
    calc 2 ^ 52 * m' ≤ 2 ^ 52 * 2 ^ (m'.log2 + 1) :=
          Nat.mul_le_mul_left _ Nat.lt_log2_self.le
      _ = 2 ^ (52 + (m'.log2 + 1)) := (Nat.pow_add 2 52 _).symm
      _ ≤ 2 ^ (m.log2 + (e - e' - t).toNat) := Nat.pow_le_pow_right two_pos hbits
      _ = 2 ^ m.log2 * 2 ^ (e - e' - t).toNat := Nat.pow_add _ _ _
      _ ≤ m * 2 ^ (e - e' - t).toNat := Nat.mul_le_mul_right _ (Nat.log2_self_le hm.ne')

/-- The quotient of two significands with their exponents, in units, is rounded once. -/
theorem represents_div {m m' : ℕ} (hm : 0 < m) (hm' : 0 < m') {e e' : ℤ} {a b : ℕ}
    (hab : (a : ℤ) - b = e - e' + 1074) (s s' : Sign) :
    Represents ((UnpackedFloat.finite s m e hm).div .binary64 (.finite s' m' e' hm')) (s / s')
      (nearest (m * 2 ^ a) (m' * 2 ^ b)) := by
  have hdiv : (UnpackedFloat.finite s m e hm).div .binary64 (.finite s' m' e' hm') =
      roundWithAccuracy .binary64 (s / s') (divCore .binary64 m e m' e').1
        (divCore .binary64 m e m' e').2.1 (divCore .binary64 m e m' e').2.2 := rfl
  have hround := represents_roundWithAccuracy hm' (quotient_enough hm hm' e e') (s / s')
  rw [hdiv, divCore_eq]
  dsimp only
  have hle : quotientExponent m e m' e' ≤ e - e' := min_le_left _ _
  generalize quotientExponent m e m' e' = t at hround hle ⊢
  have hnearest : nearest (scaledNum (m * 2 ^ (e - e' - t).toNat) t) (scaledDen m' t) =
      nearest (m * 2 ^ a) (m' * 2 ^ b) := by
    refine nearest_congr (scaledDen_pos hm' t) (Nat.mul_pos hm' (Nat.two_pow_pos b)) ?_
    have hexp : (e - e' - t).toNat + (t + 1074).toNat + b = a + (-(t + 1074)).toNat := by omega
    unfold scaledNum scaledDen
    calc m * 2 ^ (e - e' - t).toNat * 2 ^ (t + 1074).toNat * (m' * 2 ^ b)
        = m * m' * 2 ^ ((e - e' - t).toNat + (t + 1074).toNat + b) := by
          rw [Nat.pow_add, Nat.pow_add]; ring
      _ = m * m' * 2 ^ (a + (-(t + 1074)).toNat) := by rw [hexp]
      _ = m * 2 ^ a * (m' * 2 ^ (-(t + 1074)).toNat) := by rw [Nat.pow_add]; ring
  rwa [hnearest] at hround

/-- A double without a minus sign divided by a positive one. -/
theorem units_div {x y : Float} (hx : Unsigned x) (hxfin : x.isFinite = true)
    (hy : Unsigned y) (hyfin : y.isFinite = true) (hpos : 0 < units y) :
    (x / y).isNaN = false ∧
      units (x / y) = roundUnits (units x * unitsPerOne) (units y).toNat := by
  rw [isNaN_eq_false_iff, units, units, units, unpack_div]
  have hxc := canonical_toModel x
  have hyc := canonical_toModel y
  unfold Unsigned at hx hy
  unfold Float.isFinite at hxfin hyfin
  unfold Float.Model.isFinite at hxfin hyfin
  unfold units at hpos
  generalize x.toModel.unpack = u at hx hxfin hxc ⊢
  generalize y.toModel.unpack = v at hy hyfin hyc hpos ⊢
  cases v with
  | notANumber => simp [UnpackedFloat.isFinite] at hyfin
  | infinity s => simp [UnpackedFloat.isFinite] at hyfin
  | zero s => rw [signedUnits_zero] at hpos; exact absurd hpos (lt_irrefl 0)
  | finite s' m' e' hm' =>
      obtain rfl : s' = .positive := hy
      cases u with
      | notANumber => simp [UnpackedFloat.isFinite] at hxfin
      | infinity s => simp [UnpackedFloat.isFinite] at hxfin
      | zero s =>
          have hzero : (UnpackedFloat.zero s).div .binary64 (.finite .positive m' e' hm') =
              .zero (s / .positive) := rfl
          rw [hzero, unpack_pack_zero, signedUnits_zero, signedUnits_zero, Int.zero_mul,
            roundUnits_zero]
          exact ⟨by simp, rfl⟩
      | finite s m e hm =>
          obtain rfl : s = .positive := hx
          obtain ⟨k, hk⟩ : ∃ k, k = 1074 := ⟨_, rfl⟩
          have hab : (((e + 1074).toNat + k : ℕ) : ℤ) - ((e' + 1074).toNat : ℕ) =
              e - e' + 1074 := by
            have hlow := hxc.2.1
            have hlow' := hyc.2.1
            omega
          have hunits := (represents_div hm hm' hab .positive .positive).signedUnits_unpack_pack
          refine ⟨hunits.1, hunits.2.trans ?_⟩
          rw [unitsPerOne_eq hk, Nat.pow_add, ← Nat.mul_assoc]
          rfl

end FacetedSearch.Double
