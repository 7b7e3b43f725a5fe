import FacetedSearch.Proofs.Double.Rounding

/-!
# Unpacked doubles

Operations on doubles compute a significand with two residual bits, round it, and pack the
result. Here all of this is one rounding of a ratio of units, a unit being the least positive
double `2 ^ -1074`, and packing keeps what has been rounded, up to the limit from which on
everything is infinite.
-/

namespace FacetedSearch.Double

open Float.Model Float.Model.UnpackedFloat

/-- A ratio as a mantissa with the residual bits that decide how it is rounded. -/
def extended (num den : ℕ) : ExtendedMantissa where
  mantissa := num / den
  roundBit := decide (den ≤ 2 * (num % den))
  stickyBit := decide (2 * (num % den) ≠ 0 ∧ 2 * (num % den) ≠ den)

theorem ofMantissaAndAccuracy_eq_extended {den : ℕ} (hden : 0 < den) (num : ℕ) :
    ExtendedMantissa.ofMantissaAndAccuracy (num / den) (accuracyOfFraction (num % den) den) =
      extended num den := by
  unfold accuracyOfFraction extended
  by_cases hzero : num % den = 0
  · rw [if_pos hzero, hzero]
    simp [ExtendedMantissa.ofMantissaAndAccuracy, hden.ne']
  · rw [if_neg hzero]
    rcases Nat.lt_trichotomy (2 * (num % den)) den with h | h | h
    · rw [Nat.compare_eq_lt.mpr h]
      simp [ExtendedMantissa.ofMantissaAndAccuracy, h, h.ne, hzero]
    · rw [Nat.compare_eq_eq.mpr h]
      simp [ExtendedMantissa.ofMantissaAndAccuracy, h]
    · rw [Nat.compare_eq_gt.mpr h]
      simp [ExtendedMantissa.ofMantissaAndAccuracy, h.le, h.ne', hzero]

theorem shiftRightOne_extended {den : ℕ} (hden : 0 < den) (num : ℕ) :
    (extended num den).shiftRightOne = extended num (den * 2) := by
  have hrem : num % (den * 2) = num % den + den * (num / den % 2) := Nat.mod_mul
  have hlt := Nat.mod_lt num hden
  have hquot : num / den / 2 = num / (den * 2) := Nat.div_div_eq_div_mul _ _ _
  simp only [extended, ExtendedMantissa.shiftRightOne, hquot, hrem, ExtendedMantissa.mk.injEq,
    true_and]
  rcases Nat.mod_two_eq_zero_or_one (num / den) with h | h
  · simp only [h, Nat.mul_zero, Nat.add_zero]
    constructor
    · simp
      omega
    · rw [Bool.eq_iff_iff]
      simp
      omega
  · simp only [h, Nat.mul_one]
    constructor
    · simp
      omega
    · rw [Bool.eq_iff_iff]
      simp
      omega

theorem shiftRight_extended {den : ℕ} (hden : 0 < den) (num n : ℕ) :
    extended num den >>> n = extended num (den * 2 ^ n) := by
  change n.repeat ExtendedMantissa.shiftRightOne (extended num den) = _
  induction n with
  | zero => rw [Nat.repeat, Nat.pow_zero, Nat.mul_one]
  | succ n ih =>
      rw [Nat.repeat, ih, shiftRightOne_extended (Nat.mul_pos hden (Nat.two_pow_pos n)),
        Nat.pow_succ, Nat.mul_assoc]

theorem roundedMantissa_extended {den : ℕ} (hden : 0 < den) (num : ℕ) :
    (extended num den).roundedMantissa = Decimal.roundHalfEven num den := by
  rw [Decimal.roundHalfEven_eq]
  unfold ExtendedMantissa.roundedMantissa extended
  rcases Nat.lt_trichotomy (2 * (num % den)) den with h | h | h
  · by_cases hzero : num % den = 0
    · simp [hzero, hden.ne', ExtendedMantissa.accuracy, Accuracy.roundToNearestEven]
    · simp [hzero, h, h.ne, Nat.not_le_of_gt h, ExtendedMantissa.accuracy,
        Accuracy.roundToNearestEven]
  · simp [h, ExtendedMantissa.accuracy, Accuracy.roundToNearestEven]
  · have hzero : num % den ≠ 0 := by omega
    simp [hzero, h.le, h.ne', Nat.not_lt_of_gt h, ExtendedMantissa.accuracy,
      Accuracy.roundToNearestEven]

/-- A finite double given by its significand, which may be zero. -/
def ofSignificand (s : Sign) (m : ℕ) (e : ℤ) : UnpackedFloat :=
  if h : m = 0 then .zero s else .finite s m e (Nat.pos_of_ne_zero h)

/-- The exponent to which `num / den * 2 ^ e` is rounded. -/
def target (num den : ℕ) (e : ℤ) : ℤ := max ((num / den).log2 + e - 52) (-1074)

theorem targetExponent_eq (num den : ℕ) (e : ℤ) :
    Format.binary64.targetExponent (totalExponent (num / den) e) = target num den e := by
  simp only [Format.targetExponent, totalExponent, Format.mantissaBits, Format.minExponent, target]
  omega

theorem shiftToTargetExponent_eq {den : ℕ} (hden : 0 < den) (num : ℕ) (e : ℤ) :
    shiftToTargetExponent .binary64 (num / den) e (accuracyOfFraction (num % den) den) =
      (extended num (den * 2 ^ (target num den e - e).toNat),
        e + (target num den e - e).toNat) := by
  unfold shiftToTargetExponent shiftToExponent
  rw [targetExponent_eq]
  dsimp only
  rw [ofMantissaAndAccuracy_eq_extended hden, shiftRight_extended hden]

/-- A significand that fits stays, and the one that is just too large loses a zero. -/
theorem shiftToTargetExponent_significand {r : ℕ} {t : ℤ} (hr : r ≤ 2 ^ 53) (ht : -1074 ≤ t) :
    (shiftToTargetExponent .binary64 r t .exact).1.mantissa =
        (if r = 2 ^ 53 then 2 ^ 52 else r) ∧
      (shiftToTargetExponent .binary64 r t .exact).2 = if r = 2 ^ 53 then t + 1 else t := by
  have hshift := shiftToTargetExponent_eq Nat.one_pos r t
  rw [Nat.div_one, Nat.mod_one, accuracyOfFraction, if_pos rfl] at hshift
  rw [hshift, extended]
  split_ifs with h
  · have htarget : (target r 1 t - t).toNat = 1 := by
      unfold target
      rw [h, Nat.div_one, Nat.log2_two_pow]
      omega
    rw [htarget, h]
    exact ⟨rfl, rfl⟩
  · have htarget : (target r 1 t - t).toNat = 0 := by
      have hlog : r.log2 < 53 := by
        by_cases h0 : r = 0
        · rw [h0]
          decide
        · exact (Nat.log2_lt h0).mpr (lt_of_le_of_ne hr h)
      unfold target
      rw [Nat.div_one]
      omega
    rw [htarget]
    simp

theorem log2_div_two_pow (n k : ℕ) : (n / 2 ^ k).log2 = n.log2 - k := by
  rw [Nat.log2_eq_log_two, Nat.log2_eq_log_two, Nat.log_div_base_pow]

theorem log2_mul_two_pow_div {num den : ℕ} (hden : 0 < den) (h : num / den ≠ 0) (p : ℕ) :
    (num * 2 ^ p / den).log2 = (num / den).log2 + p := by
  have hlo : 2 ^ ((num / den).log2 + p) ≤ num * 2 ^ p / den := by
    rw [Nat.le_div_iff_mul_le hden, Nat.pow_add, Nat.mul_right_comm]
    refine Nat.mul_le_mul_right _ ?_
    rw [← Nat.le_div_iff_mul_le hden]
    exact Nat.log2_self_le h
  have hhi : num * 2 ^ p / den < 2 ^ ((num / den).log2 + p + 1) := by
    rw [Nat.div_lt_iff_lt_mul hden, Nat.add_right_comm, Nat.pow_add, Nat.mul_right_comm]
    refine Nat.mul_lt_mul_of_pos_right ?_ (Nat.two_pow_pos p)
    rw [← Nat.div_lt_iff_lt_mul hden]
    exact Nat.lt_log2_self
  exact (Nat.log2_eq_iff (by have := Nat.two_pow_pos ((num / den).log2 + p); omega)).mpr
    ⟨hlo, hhi⟩

/-- The numerator and the denominator of `num / den * 2 ^ e` in units. -/
def scaledNum (num : ℕ) (e : ℤ) : ℕ := num * 2 ^ (e + 1074).toNat

def scaledDen (den : ℕ) (e : ℤ) : ℕ := den * 2 ^ (-(e + 1074)).toNat

theorem scaledDen_pos {den : ℕ} (hden : 0 < den) (e : ℤ) : 0 < scaledDen den e :=
  Nat.mul_pos hden (Nat.two_pow_pos _)

theorem dropped_eq_target {num den : ℕ} (hden : 0 < den) {e : ℤ}
    (h : e ≤ -1074 ∨ 2 ^ 52 ≤ num / den) :
    (dropped (scaledNum num e) (scaledDen den e) : ℤ) =
      target num den e + 1074 := by
  unfold dropped target scaledNum scaledDen
  rcases Int.le_total (e + 1074) 0 with he | he
  · have hnum : (e + 1074).toNat = 0 := by omega
    rw [hnum, Nat.pow_zero, Nat.mul_one, ← Nat.div_div_eq_div_mul, log2_div_two_pow]
    omega
  · have hquot : num / den ≠ 0 ∨ e = -1074 := by
      rcases h with h | h
      · exact .inr (by omega)
      · exact .inl (by omega)
    have hden' : (-(e + 1074)).toNat = 0 := by omega
    rw [hden', Nat.pow_zero, Nat.mul_one]
    rcases hquot with hquot | rfl
    · rw [log2_mul_two_pow_div hden hquot]
      by_cases hexp : e = -1074
      · subst hexp
        omega
      · have hlog : 52 ≤ (num / den).log2 := (Nat.le_log2 hquot).mpr (h.resolve_left (by omega))
        omega
    · simp only [Int.reduceNeg, Int.reduceAdd, Int.toNat_zero, Nat.pow_zero, Nat.mul_one]
      omega

/-- A double of `n` units in the form in which doubles are packed. Only its exponent may be too
large for that. -/
def Represents (u : UnpackedFloat) (s : Sign) (n : ℕ) : Prop :=
  ∃ m t, u = ofSignificand s m t ∧ m < 2 ^ 53 ∧ -1074 ≤ t ∧ (t = -1074 ∨ 2 ^ 52 ≤ m) ∧
    m * 2 ^ (t + 1074).toNat = n

theorem le_target {num den : ℕ} {e : ℤ} (h : e ≤ -1074 ∨ 2 ^ 52 ≤ num / den) :
    e ≤ target num den e := by
  unfold target
  rcases h with h | h
  · omega
  · have hlog : 52 ≤ (num / den).log2 := (Nat.le_log2 (by omega)).mpr h
    omega

theorem roundedMantissa_target {num den : ℕ} (hden : 0 < den) {e : ℤ}
    (h : e ≤ -1074 ∨ 2 ^ 52 ≤ num / den) :
    (extended num (den * 2 ^ (target num den e - e).toNat)).roundedMantissa =
      significand (scaledNum num e) (scaledDen den e) := by
  have hle := le_target h
  have hdropped := dropped_eq_target hden h
  rw [roundedMantissa_extended (Nat.mul_pos hden (Nat.two_pow_pos _)), significand]
  refine Decimal.roundHalfEven_congr (Nat.mul_pos hden (Nat.two_pow_pos _))
    (Nat.mul_pos (scaledDen_pos hden e) (Nat.two_pow_pos _)) ?_
  generalize dropped (scaledNum num e) (scaledDen den e) = j at hdropped ⊢
  have hexp : (-(e + 1074)).toNat + j = (e + 1074).toNat + (target num den e - e).toNat := by
    omega
  unfold scaledNum scaledDen
  calc num * (den * 2 ^ (-(e + 1074)).toNat * 2 ^ j)
      = num * den * 2 ^ ((-(e + 1074)).toNat + j) := by rw [Nat.pow_add]; ring
    _ = num * den * 2 ^ ((e + 1074).toNat + (target num den e - e).toNat) := by rw [hexp]
    _ = num * 2 ^ (e + 1074).toNat * (den * 2 ^ (target num den e - e).toNat) := by
      rw [Nat.pow_add]; ring

/-- Rounding a quotient keeps the number of units next to it. The quotient has to have bits
enough, unless its exponent is so low that they do not matter. -/
theorem represents_roundWithAccuracy {num den : ℕ} (hden : 0 < den) {e : ℤ}
    (h : e ≤ -1074 ∨ 2 ^ 52 ≤ num / den) (s : Sign) :
    Represents (roundWithAccuracy .binary64 s (num / den) e (accuracyOfFraction (num % den) den)) s
      (nearest (scaledNum num e) (scaledDen den e)) := by
  have hle := le_target h
  have hdropped := dropped_eq_target hden h
  have hexp : e + ((target num den e - e).toNat : ℤ) = target num den e := by omega
  have ht : -1074 ≤ target num den e := by
    unfold target
    omega
  have hshift := shiftToTargetExponent_significand
    (significand_le (scaledNum num e) (scaledDen den e)) ht
  have hround : roundWithAccuracy .binary64 s (num / den) e (accuracyOfFraction (num % den) den) =
      let shifted := shiftToTargetExponent .binary64
        (significand (scaledNum num e) (scaledDen den e)) (target num den e) .exact
      ofSignificand s shifted.1.mantissa shifted.2 := by
    unfold roundWithAccuracy ofSignificand
    rw [shiftToTargetExponent_eq hden]
    dsimp only
    rw [roundedMantissa_target hden h, hexp]
  refine ⟨_, _, hround, ?_, ?_, ?_, ?_⟩
  · have hle := significand_le (scaledNum num e) (scaledDen den e)
    rw [hshift.1]
    split_ifs <;> omega
  · rw [hshift.2]
    split_ifs <;> omega
  · rw [hshift.1, hshift.2]
    split_ifs with h53
    · exact .inr le_rfl
    · by_cases hlow : target num den e = -1074
      · exact .inl hlow
      · exact .inr (le_significand (by omega))
  · have hscale : (target num den e + 1074).toNat =
        dropped (scaledNum num e) (scaledDen den e) := by omega
    rw [hshift.1, hshift.2, nearest]
    split_ifs with h53
    · have hsucc : (target num den e + 1 + 1074).toNat =
          dropped (scaledNum num e) (scaledDen den e) + 1 := by omega
      rw [hsucc, h53, Nat.pow_succ]
      ring
    · rw [hscale]

theorem ofBitVec_unpackSign_packComponents (s : Sign) (exponent : BitVec 11)
    (mantissa : BitVec 52) :
    Sign.ofBitVec (unpackSign (packComponents .binary64 s exponent mantissa)) = s := by
  have hsign : unpackSign (packComponents .binary64 s exponent mantissa) = s.toBitVec := by
    change (s.toBitVec ++ exponent ++ mantissa).extractLsb' 63 1 = s.toBitVec
    rw [BitVec.extractLsb'_append_eq_of_le (by decide),
      BitVec.extractLsb'_append_eq_of_le (by decide)]
    cases s <;> rfl
  rw [hsign]
  cases s <;> rfl

theorem unpack_pack_finite_of_lt {m : ℕ} (hm : 0 < m) (hlt : m < 2 ^ 52) (s : Sign) :
    unpack .binary64 (pack .binary64 (.finite s m (-1074) hm)) = .finite s m (-1074) hm := by
  have hlog : ¬ m.log2 + 1 = Format.binary64.mantissaBits := by
    have hlt' : m.log2 < 52 := (Nat.log2_lt hm.ne').mpr hlt
    simp only [Format.mantissaBits]
    omega
  have hmantissa : (BitVec.ofNat 52 m).toNat = m := by
    rw [BitVec.toNat_ofNat, Nat.mod_eq_of_lt hlt]
  have hne : BitVec.ofNat 52 m ≠ 0#52 := fun h => by
    rw [h] at hmantissa
    exact hm.ne hmantissa
  have hpack : pack .binary64 (.finite s m (-1074) hm) =
      packComponents .binary64 s 0#11 (BitVec.ofNat 52 m) := by
    simp only [UnpackedFloat.pack, if_neg hlog]
    exact if_neg (by decide)
  rw [hpack]
  unfold UnpackedFloat.unpack
  simp only [unpackMantissa_packComponents, unpackExponent_packComponents,
    ofBitVec_unpackSign_packComponents]
  rw [if_neg (by decide), if_pos trivial, dif_neg hne]
  simp only [hmantissa]
  rfl

theorem unpack_pack_finite {m : ℕ} (hm : 0 < m) (hlo : 2 ^ 52 ≤ m) (hhi : m < 2 ^ 53) {t : ℤ}
    (ht : -1074 ≤ t) (s : Sign) :
    unpack .binary64 (pack .binary64 (.finite s m t hm)) =
      if 971 < t then .infinity s else .finite s m t hm := by
  have hlog : m.log2 + 1 = Format.binary64.mantissaBits := by
    have hlog' : m.log2 = 52 := (Nat.log2_eq_iff hm.ne').mpr ⟨hlo, hhi⟩
    rw [hlog']
    rfl
  have hbiased : (t + Format.binary64.exponentBias +
      Format.binary64.mantissaBitsWithoutImplicit).toNat = (t + 1075).toNat := by
    change (t + 1023 + 52).toNat = _
    omega
  unfold UnpackedFloat.pack
  simp only [hbiased, if_pos hlog]
  split_ifs with hbits hhigh hhigh
  · cases s <;> rfl
  · change 2048 ≤ (t + 1075).toNat + 1 at hbits
    omega
  · change ¬ 2048 ≤ (t + 1075).toNat + 1 at hbits
    omega
  · have hlt : (t + 1075).toNat < 2047 := by omega
    have hexponent : (BitVec.ofNat 11 (t + 1075).toNat).toNat = (t + 1075).toNat := by
      rw [BitVec.toNat_ofNat, Nat.mod_eq_of_lt (by omega)]
    have hones : BitVec.ofNat 11 (t + 1075).toNat ≠ -1#11 := fun h => by
      rw [h] at hexponent
      change 2047 = _ at hexponent
      omega
    have hzero : BitVec.ofNat 11 (t + 1075).toNat ≠ 0#11 := fun h => by
      rw [h] at hexponent
      change 0 = _ at hexponent
      omega
    have hmantissa : (1#1 ++ BitVec.ofNat 52 m).toNat = m := by
      rw [BitVec.toNat_append, ← Nat.shiftLeft_add_eq_or_of_lt (BitVec.ofNat 52 m).isLt,
        BitVec.toNat_ofNat, Nat.shiftLeft_eq]
      change 1 * 2 ^ 52 + m % 2 ^ 52 = m
      omega
    unfold UnpackedFloat.unpack
    simp only [unpackMantissa_packComponents, unpackExponent_packComponents,
      ofBitVec_unpackSign_packComponents]
    rw [if_neg hones, if_neg hzero]
    simp only [hmantissa, hexponent]
    congr 1
    change ((t + 1075).toNat : ℤ) - (1023 + 52) = t
    omega

/-- The number of units from which on a double is infinite. -/
@[irreducible] def infinityUnits : ℕ := 2 ^ 2098

/-- The number of units of a double without its sign. What is no number counts as zero. -/
def magnitude : UnpackedFloat → ℕ
  | .notANumber => 0
  | .infinity _ => infinityUnits
  | .zero _ => 0
  | .finite _ m e _ => m * 2 ^ (e + 1074).toNat

def signOf : UnpackedFloat → Sign
  | .notANumber => .positive
  | .infinity s => s
  | .zero s => s
  | .finite s _ _ _ => s

/-- The doubles that can be packed. -/
def Canonical : UnpackedFloat → Prop
  | .finite _ m e _ => m < 2 ^ 53 ∧ -1074 ≤ e ∧ e ≤ 971 ∧ (e = -1074 ∨ 2 ^ 52 ≤ m)
  | _ => True

/-- The exponent is a variable here, so that the power is never computed. -/
theorem infinityUnits_eq {k : ℕ} (hk : k = 2098) : infinityUnits = 2 ^ k := by
  unfold infinityUnits
  rw [hk]

theorem mul_two_pow_lt_infinityUnits {m k : ℕ} (hm : m < 2 ^ 53) (hk : k ≤ 2045) :
    m * 2 ^ k < infinityUnits := by
  obtain ⟨j, hj⟩ : ∃ j, j = 2098 := ⟨_, rfl⟩
  calc m * 2 ^ k < 2 ^ 53 * 2 ^ k := Nat.mul_lt_mul_of_pos_right hm (Nat.two_pow_pos k)
    _ = 2 ^ (53 + k) := (Nat.pow_add 2 53 k).symm
    _ ≤ 2 ^ j := Nat.pow_le_pow_right two_pos (by omega)
    _ = infinityUnits := (infinityUnits_eq hj).symm

theorem infinityUnits_le_mul_two_pow {m k : ℕ} (hm : 2 ^ 52 ≤ m) (hk : 2046 ≤ k) :
    infinityUnits ≤ m * 2 ^ k := by
  obtain ⟨j, hj⟩ : ∃ j, j = 2098 := ⟨_, rfl⟩
  calc infinityUnits = 2 ^ j := infinityUnits_eq hj
    _ ≤ 2 ^ (52 + k) := Nat.pow_le_pow_right two_pos (by omega)
    _ = 2 ^ 52 * 2 ^ k := Nat.pow_add 2 52 k
    _ ≤ m * 2 ^ k := Nat.mul_le_mul_right _ hm

theorem canonical_unpack (b : BitVec Format.binary64.numBits) :
    Canonical (unpack .binary64 b) := by
  have hmantissa : (unpackMantissa b).toNat < 2 ^ 52 :=
    (unpackMantissa b).isLt
  have hexponent : (unpackExponent b).toNat < 2048 :=
    (unpackExponent b).isLt
  unfold UnpackedFloat.unpack
  dsimp only
  split_ifs with hones hfraction hzero hfraction
  · trivial
  · trivial
  · trivial
  · -- the exponent field is zero
    have he : ((unpackExponent b).toNat : ℤ) = 0 := by
      rw [hzero]
      rfl
    refine ⟨?_, ?_, ?_, .inl ?_⟩
    · omega
    · change -1074 ≤ ((unpackExponent b).toNat : ℤ) - (1023 + 52) + 1
      omega
    · change ((unpackExponent b).toNat : ℤ) - (1023 + 52) + 1 ≤ 971
      omega
    · change ((unpackExponent b).toNat : ℤ) - (1023 + 52) + 1 = -1074
      omega
  · have he : (unpackExponent b).toNat ≠ 0 := fun h => hzero (BitVec.eq_of_toNat_eq h)
    have he' : (unpackExponent b).toNat ≠ 2047 := fun h => hones (BitVec.eq_of_toNat_eq h)
    have hm : (1#1 ++ unpackMantissa b).toNat = 2 ^ 52 + (unpackMantissa b).toNat := by
      rw [BitVec.toNat_append, ← Nat.shiftLeft_add_eq_or_of_lt (unpackMantissa b).isLt,
        Nat.shiftLeft_eq]
      rfl
    refine ⟨?_, ?_, ?_, .inr ?_⟩
    · omega
    · change -1074 ≤ ((unpackExponent b).toNat : ℤ) - (1023 + 52)
      omega
    · change ((unpackExponent b).toNat : ℤ) - (1023 + 52) ≤ 971
      omega
    · omega

theorem unpack_pack_of_canonical {u : UnpackedFloat} (h : Canonical u) :
    unpack .binary64 (pack .binary64 u) = u := by
  cases u with
  | notANumber => rfl
  | infinity s => cases s <;> rfl
  | zero s => cases s <;> rfl
  | finite s m e hm =>
      obtain ⟨hlt, hlow, hhigh, h⟩ := h
      by_cases hnormal : 2 ^ 52 ≤ m
      · rw [unpack_pack_finite hm hnormal hlt hlow, if_neg (by omega)]
      · obtain rfl := h.resolve_right hnormal
        exact unpack_pack_finite_of_lt hm (by omega) s

/-- Packing a rounded result keeps its sign and its units, where infinity is the upper limit of
the units. -/
theorem Represents.unpack_pack {u : UnpackedFloat} {s : Sign} {n : ℕ} (h : Represents u s n) :
    unpack .binary64 (pack .binary64 u) ≠ .notANumber ∧
      signOf (unpack .binary64 (pack .binary64 u)) = s ∧
      magnitude (unpack .binary64 (pack .binary64 u)) = min n infinityUnits := by
  obtain ⟨m, t, rfl, hlt, hlow, hnormal, rfl⟩ := h
  unfold ofSignificand
  split_ifs with hm
  · have hzero : unpack .binary64 (pack .binary64 (.zero s)) = .zero s :=
      unpack_pack_of_canonical trivial
    simp [hzero, hm, signOf, magnitude]
  · by_cases hlarge : 971 < t
    · have hm' : 2 ^ 52 ≤ m := hnormal.resolve_left (by omega)
      have hinf := infinityUnits_le_mul_two_pow hm' (k := (t + 1074).toNat) (by omega)
      rw [unpack_pack_finite _ hm' hlt hlow, if_pos hlarge]
      exact ⟨by simp, rfl, (Nat.min_eq_right hinf).symm⟩
    · have hfin := mul_two_pow_lt_infinityUnits hlt (k := (t + 1074).toNat) (by omega)
      have hcanonical : Canonical (.finite s m t (Nat.pos_of_ne_zero hm)) :=
        ⟨hlt, hlow, by omega, hnormal⟩
      rw [unpack_pack_of_canonical hcanonical]
      exact ⟨by simp, rfl, (Nat.min_eq_left hfin.le).symm⟩

end FacetedSearch.Double
