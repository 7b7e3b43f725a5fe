import FacetedSearch.Double
import FacetedSearch.Proofs.Double.Arithmetic

/-!
# Unsigned doubles

Whole numbers and powers of ten in double arithmetic carry no minus sign, whatever is rounded or
overflows. The double nearest to a whole number is not decreasing in it.
-/

namespace FacetedSearch.Double

open Float.Model Float.Model.UnpackedFloat

/-- A double without a minus sign. NaN has none. -/
def Unsigned (x : Float) : Prop := signOf x.toModel.unpack = .positive

theorem Unsigned.units_nonneg {x : Float} (h : Unsigned x) : 0 ≤ units x := by
  rw [units, signedUnits, h]
  exact Int.natCast_nonneg _

/-- What comes out of a packed double has the sign that was packed, or is no number. -/
theorem signOf_unpack_pack {u : UnpackedFloat} (h : signOf u = .positive) :
    signOf (unpack .binary64 (pack .binary64 u)) = .positive := by
  have hunpack (e : BitVec 11) (m : BitVec 52) :
      signOf (unpack .binary64 (packComponents .binary64 .positive e m)) = .positive := by
    unfold UnpackedFloat.unpack
    dsimp only
    rw [ofBitVec_unpackSign_packComponents]
    split_ifs <;> rfl
  cases u with
  | notANumber => rfl
  | infinity s =>
      obtain rfl : s = .positive := h
      rfl
  | zero s =>
      obtain rfl : s = .positive := h
      rfl
  | finite s m e hm =>
      obtain rfl : s = .positive := h
      unfold UnpackedFloat.pack
      dsimp only
      split_ifs
      · rfl
      · exact hunpack _ _
      · exact hunpack _ _

theorem signOf_roundWithAccuracy (s : Sign) (m : ℕ) (e : ℤ) (a : Accuracy) :
    signOf (roundWithAccuracy .binary64 s m e a) = s := by
  unfold roundWithAccuracy
  dsimp only
  split_ifs <;> rfl

theorem signOf_mul {u v : UnpackedFloat} (hu : signOf u = .positive) (hv : signOf v = .positive) :
    signOf (u.mul .binary64 v) = .positive := by
  cases u <;> cases v <;> cases hu <;> cases hv <;>
    first | rfl | exact signOf_roundWithAccuracy ..

theorem signOf_div {u v : UnpackedFloat} (hu : signOf u = .positive) (hv : signOf v = .positive) :
    signOf (u.div .binary64 v) = .positive := by
  cases u <;> cases v <;> cases hu <;> cases hv <;>
    first | rfl | exact signOf_roundWithAccuracy ..

theorem Unsigned.mul {x y : Float} (hx : Unsigned x) (hy : Unsigned y) : Unsigned (x * y) :=
  signOf_unpack_pack (signOf_mul hx hy)

theorem Unsigned.div {x y : Float} (hx : Unsigned x) (hy : Unsigned y) : Unsigned (x / y) :=
  signOf_unpack_pack (signOf_div hx hy)

theorem signOf_normalize_natCast (n : ℕ) (e : ℤ) :
    signOf (UnpackedFloat.normalize .binary64 n e .positive) = .positive := by
  unfold UnpackedFloat.normalize
  rcases Nat.eq_zero_or_pos n with rfl | hn
  · rfl
  · rw [Int.compare_eq_gt.mpr (by omega)]
    exact signOf_roundWithAccuracy ..

theorem unpack_toFloat (w : UInt64) : w.toFloat.toModel.unpack =
    unpack .binary64 (pack .binary64 (UnpackedFloat.normalize .binary64 w.toNat 0 .positive)) := rfl

theorem unsigned_toFloat (w : UInt64) : Unsigned w.toFloat :=
  signOf_unpack_pack (signOf_normalize_natCast _ _)

theorem units_toFloat (w : UInt64) :
    w.toFloat.isNaN = false ∧ units w.toFloat = roundUnits (w.toNat * unitsPerOne : ℕ) 1 := by
  have hnormalize := signedUnits_normalize (w.toNat : ℤ) (e := 0) (by decide)
  have hexp : (0 + 1074 : ℤ).toNat = 1074 := by decide
  rw [isNaN_eq_false_iff, units, unpack_toFloat, unitsPerOne_eq hexp]
  generalize (0 + 1074 : ℤ).toNat = k at hnormalize
  push_cast
  exact hnormalize

/-- The double that small whole numbers are multiplied by when they are read. -/
def unit : Float := Float.ofBits 0x3FF0000000000000

theorem unpack_unit : unit.toModel.unpack = .finite .positive (2 ^ 52) (-52) (by decide) := rfl

theorem units_unit : units unit = unitsPerOne := by
  obtain ⟨k, hk⟩ : ∃ k, k = 1074 := ⟨_, rfl⟩
  have hexp : (-52 + 1074 : ℤ).toNat + 52 = k := by omega
  rw [units, unpack_unit, unitsPerOne_eq hk, ← hexp, Nat.pow_add]
  change ((2 ^ 52 * 2 ^ (-52 + 1074 : ℤ).toNat : ℕ) : ℤ) = _
  rw [Nat.mul_comm]

theorem ofNat_of_lt {n : ℕ} (h : n < 2 ^ 53) : Float.ofNat n = n.toUInt64.toFloat * unit := by
  unfold Float.ofNat
  change Float.ofScientific n false 0 = _
  unfold Float.ofScientific
  rw [dif_pos ⟨h, by decide⟩]
  rfl

theorem unpack_ofNat_of_le {n : ℕ} (h : 2 ^ 53 ≤ n) : (Float.ofNat n).toModel.unpack =
    unpack .binary64 (pack .binary64
      (roundWithAccuracy .binary64 .positive (n <<< 53 * 10 ^ 0) (-53 + 0) .exact)) := by
  unfold Float.ofNat
  change (Float.ofScientific n false 0).toModel.unpack = _
  unfold Float.ofScientific
  rw [dif_neg (fun hn => by omega)]
  change unpack .binary64 (pack .binary64 (UnpackedFloat.ofScientific .binary64 n 0)) = _
  have hbits : (2 : ℤ) ^ Format.binary64.exponentBits = 2048 := rfl
  unfold UnpackedFloat.ofScientific
  rw [dif_neg (by omega), if_neg (by decide), if_neg (by omega), if_pos le_rfl]
  rfl

theorem isFinite_of_units {x : Float} (hnum : x.isNaN = false)
    (hlow : -(infinityUnits : ℤ) < units x) (hhigh : units x < infinityUnits) :
    x.isFinite = true := by
  cases hfin : x.isFinite with
  | true => rfl
  | false =>
      have hinf := units_of_not_isFinite hnum hfin
      omega

theorem isFinite_of_between {x y z : Float} (hxy : x ≤ y) (hyz : y ≤ z) (hx : x.isFinite = true)
    (hz : z.isFinite = true) : y.isFinite = true := by
  obtain ⟨-, hnum, hlow⟩ := le_iff.mp hxy
  obtain ⟨-, -, hhigh⟩ := le_iff.mp hyz
  have hxlow := units_of_isFinite hx
  have hzhigh := units_of_isFinite hz
  exact isFinite_of_units hnum (by omega) (by omega)

theorem isFinite_toFloat {w : UInt64} (h : w.toNat < 2 ^ 53) : w.toFloat.isFinite = true := by
  obtain ⟨k, hk⟩ : ∃ k, k = 1074 := ⟨_, rfl⟩
  obtain ⟨hnum, hunits⟩ := units_toFloat w
  have hinf := mul_two_pow_lt_infinityUnits h (k := k) (by omega)
  rw [unitsPerOne_eq hk, roundUnits, if_neg (by omega), Int.natAbs_natCast, nearest_of_lt h,
    Nat.min_eq_left hinf.le] at hunits
  exact isFinite_of_units hnum (by omega) (by omega)

theorem roundUnits_mul_right (z : ℤ) {c den : ℕ} (hc : 0 < c) (hden : 0 < den) :
    roundUnits (z * c) (den * c) = roundUnits z den := by
  have hnearest : nearest (z * c).natAbs (den * c) = nearest z.natAbs den := by
    refine nearest_congr (Nat.mul_pos hden hc) hden ?_
    rw [Int.natAbs_mul, Int.natAbs_natCast]
    ring
  have hsign : z * c < 0 ↔ z < 0 := by
    constructor
    · intro h
      by_contra hz
      exact absurd (Int.mul_nonneg (Int.not_lt.mp hz) (Int.natCast_nonneg c)) (Int.not_le.mpr h)
    · intro h
      exact Int.mul_neg_of_neg_of_pos h (by omega)
  simp only [roundUnits, hnearest, hsign]

/-- A whole number becomes the double nearest to it. -/
theorem units_ofNat (n : ℕ) : (Float.ofNat n).isNaN = false ∧
    units (Float.ofNat n) = roundUnits (n * unitsPerOne : ℕ) 1 := by
  by_cases h : n < 2 ^ 53
  · have hword : n.toUInt64.toNat = n := by
      change n % 2 ^ 64 = n
      omega
    have hone : unit.isFinite = true := rfl
    have hfin : n.toUInt64.toFloat.isFinite = true := isFinite_toFloat (by rwa [hword])
    have hunits := (units_toFloat n.toUInt64).2
    have hround := roundUnits_signedUnits (canonical_toModel n.toUInt64.toFloat) hfin
    rw [hword] at hunits
    rw [ofNat_of_lt h, units_mul hfin hone, units_unit]
    refine ⟨isNaN_mul hfin hone, ?_⟩
    have hscale := roundUnits_mul_right (units n.toUInt64.toFloat) unitsPerOne_pos Nat.one_pos
    rw [Nat.one_mul] at hscale
    rw [hscale, ← hunits]
    exact hround
  · have henough : 2 ^ 52 ≤ n <<< 53 * 10 ^ 0 := by
      rw [Nat.shiftLeft_eq]
      omega
    have hround := represents_roundWithAccuracy_exact (e := -53 + 0) (.inr henough) .positive
    have hnearest : nearest (scaledNum (n <<< 53 * 10 ^ 0) (-53 + 0)) (scaledDen 1 (-53 + 0)) =
        nearest (n * unitsPerOne) 1 := by
      obtain ⟨k, hk⟩ : ∃ k, k = 1074 := ⟨_, rfl⟩
      refine nearest_congr (scaledDen_pos Nat.one_pos _) Nat.one_pos ?_
      have hden : (-(-53 + 0 + 1074) : ℤ).toNat = 0 := by decide
      have hexp : 53 + (-53 + 0 + 1074 : ℤ).toNat = k := by omega
      rw [scaledNum, scaledDen, unitsPerOne_eq hk, hden, ← hexp, Nat.shiftLeft_eq, Nat.pow_add]
      ring
    rw [hnearest] at hround
    rw [isNaN_eq_false_iff, units, unpack_ofNat_of_le (Nat.le_of_not_lt h)]
    exact hround.signedUnits_unpack_pack

/-- A whole number with a significand of 53 bits becomes itself. -/
theorem units_ofNat_mul_two_pow {m j : ℕ} (hm : m < 2 ^ 53) (hj : j ≤ 900) :
    units (Float.ofNat (m * 2 ^ j)) = (m * 2 ^ j * unitsPerOne : ℕ) := by
  obtain ⟨k, hk⟩ : ∃ k, k = 1074 := ⟨_, rfl⟩
  have hinf := mul_two_pow_lt_infinityUnits hm (k := j + k) (by omega)
  rw [(units_ofNat _).2, unitsPerOne_eq hk, roundUnits, if_neg (by omega), Int.natAbs_natCast,
    Nat.mul_assoc, ← Nat.pow_add, nearest_of_lt hm, Nat.min_eq_left hinf.le]

theorem units_one_eq : units 1 = unitsPerOne := by
  have hexact := units_ofNat_mul_two_pow (m := 1) (j := 0) (by decide) (by decide)
  rwa [Nat.pow_zero, Nat.mul_one, Nat.one_mul] at hexact

theorem ofNat_le_ofNat {m n : ℕ} (h : m ≤ n) : Float.ofNat m ≤ Float.ofNat n := by
  obtain ⟨hm, hmunits⟩ := units_ofNat m
  obtain ⟨hn, hnunits⟩ := units_ofNat n
  refine le_iff.mpr ⟨hm, hn, ?_⟩
  rw [hmunits, hnunits]
  exact roundUnits_le_roundUnits Nat.one_pos
    (Int.ofNat_le.mpr (Nat.mul_le_mul_right unitsPerOne h))

theorem natAbs_roundUnits_le {z : ℤ} {den k : ℕ} (hden : 0 < den)
    (h : z.natAbs ≤ 2 ^ k * den) : (roundUnits z den).natAbs ≤ 2 ^ k := by
  have hnearest : nearest z.natAbs den ≤ 2 ^ k := by
    calc nearest z.natAbs den ≤ nearest (1 * 2 ^ k) 1 := by
          refine nearest_le_nearest hden Nat.one_pos ?_
          rwa [Nat.mul_one, Nat.one_mul]
      _ = 2 ^ k := by rw [nearest_of_lt (by decide), Nat.one_mul]
  unfold roundUnits
  split_ifs <;> omega

theorem isFinite_of_natAbs_units_le {x : Float} (hnum : x.isNaN = false) {k : ℕ}
    (h : (units x).natAbs ≤ 2 ^ k) (hk : k ≤ 2097) : x.isFinite = true := by
  obtain ⟨i, hi⟩ : ∃ i, i = 2098 := ⟨_, rfl⟩
  have hlt : 2 ^ k < infinityUnits := by
    rw [infinityUnits_eq hi]
    exact Nat.pow_lt_pow_right (by decide) (by omega)
  exact isFinite_of_units hnum (by omega) (by omega)

theorem isFinite_ofNat_of_le {n j : ℕ} (h : n ≤ 2 ^ j) (hj : j ≤ 1000) :
    (Float.ofNat n).isFinite = true := by
  obtain ⟨k, hk⟩ : ∃ k, k = 1074 := ⟨_, rfl⟩
  obtain ⟨hnum, hunits⟩ := units_ofNat n
  have hround : (units (Float.ofNat n)).natAbs ≤ 2 ^ (j + k) := by
    rw [hunits]
    refine natAbs_roundUnits_le Nat.one_pos ?_
    rw [Int.natAbs_natCast, unitsPerOne_eq hk, Nat.mul_one, Nat.pow_add]
    exact Nat.mul_le_mul_right _ h
  exact isFinite_of_natAbs_units_le hnum hround (by omega)

/-- The numbers of ranges are words, far below the limit of doubles. -/
theorem isFinite_ofNat {n : ℕ} (h : n ≤ 2 ^ 64) : (Float.ofNat n).isFinite = true :=
  isFinite_ofNat_of_le h (by decide)

theorem unsigned_ofNat (n : ℕ) : Unsigned (Float.ofNat n) := by
  by_cases h : n < 2 ^ 53
  · rw [ofNat_of_lt h]
    exact (unsigned_toFloat _).mul rfl
  · unfold Unsigned
    rw [unpack_ofNat_of_le (Nat.le_of_not_lt h)]
    exact signOf_unpack_pack (signOf_roundWithAccuracy ..)

theorem unsigned_powerLoop {base acc : Float} (hbase : Unsigned base) (hacc : Unsigned acc)
    (fuel n : ℕ) : Unsigned (powerLoop fuel base acc n) := by
  induction fuel generalizing base acc n with
  | zero => exact hacc
  | succ fuel ih =>
      have hnext : Unsigned (if n % 2 = 1 then acc * base else acc) := by
        split_ifs
        · exact hacc.mul hbase
        · exact hacc
      rw [powerLoop]
      generalize (if n % 2 = 1 then acc * base else acc) = next at hnext ⊢
      by_cases hlast : n / 2 = 0
      · rw [if_pos hlast]
        exact hnext
      · rw [if_neg hlast]
        exact ih (hbase.mul hbase) hnext (n / 2)

theorem unsigned_powerOfTen (e : ℤ) : Unsigned (powerOfTen e) := by
  have hpower := unsigned_powerLoop (unsigned_ofNat 10) (unsigned_ofNat 1)
    (e.natAbs.log2 + 1) e.natAbs
  unfold powerOfTen
  dsimp only
  split_ifs
  · exact (unsigned_ofNat 1).div hpower
  · exact hpower

/-- Adding one does not decrease a number, but large numbers it leaves as they are. -/
theorem le_add_one {x : Float} (h : x.isNaN = false) : x ≤ x + 1 := by
  have hone : (1 : Float).isFinite = true := isFinite_ofNat (by decide)
  cases hx : x.isFinite with
  | false =>
      obtain ⟨s, hs⟩ := unpack_of_not_isFinite h hx
      have hnum : (x + 1).isNaN = false := by
        rw [isNaN_eq_false_iff, unpack_add_of_isFinite_right hs hone]
        simp
      exact le_iff.mpr ⟨h, hnum, (units_add_of_infinite_left hx hnum).ge⟩
  | true =>
      refine le_iff.mpr ⟨h, isNaN_add hx hone, ?_⟩
      rw [units_add hx hone]
      calc units x = roundUnits (units x) 1 :=
            (roundUnits_signedUnits (canonical_toModel x) hx).symm
        _ ≤ roundUnits (units x + units 1) 1 :=
            roundUnits_le_roundUnits Nat.one_pos (by have := units_one_eq; omega)

end FacetedSearch.Double
