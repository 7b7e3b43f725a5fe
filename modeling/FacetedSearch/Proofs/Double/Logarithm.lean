import FacetedSearch.Double.Logarithm
import FacetedSearch.Proofs.Double.Error

/-!
# The exponent of a small double

The floor of the decimal logarithm of a double below one is computed from a power of two and a
factor from one half to one. The logarithm of the factor is at most zero, and where the factor
is below three quarters the first term of its series already makes a difference. So the computed
exponent can be too great for the double, but not by much: the power of ten that belongs to it
exceeds the double by less than two thirds.
-/

namespace FacetedSearch.Double

open Float.Model Float.Model.UnpackedFloat

theorem toRat_of_value {x : Float} {negative : Bool} {num den : ℕ}
    (h : value x = .finite negative num den) : toRat x = signedRat negative (num / den) := by
  obtain ⟨negative', num', k, hvalue, hrat⟩ := exists_value_eq (isFinite_of_value h)
  obtain ⟨rfl, rfl, rfl⟩ := Value.finite.inj (h.symm.trans hvalue)
  exact hrat

/-- The greatest whole number not above a double is not above it. -/
theorem floorToInt_le {x : Float} (h : x.isFinite = true) : (floorToInt x : ℚ) ≤ toRat x := by
  obtain ⟨negative, num, k, hvalue, hrat⟩ := exists_value_eq h
  have hden : (0 : ℚ) < (2 ^ k : ℕ) := Nat.cast_pos.mpr (Nat.two_pow_pos k)
  unfold floorToInt
  rw [hvalue, hrat]
  cases negative with
  | false =>
      simp only [signedRat, Bool.false_eq_true, if_false, Int.cast_natCast]
      exact Nat.cast_div_le
  | true =>
      simp only [signedRat, if_true]
      have hceil : num ≤ (num + 2 ^ k - 1) / 2 ^ k * 2 ^ k := by
        have hmod := Nat.div_add_mod (num + 2 ^ k - 1) (2 ^ k)
        have hlt := Nat.mod_lt (num + 2 ^ k - 1) (Nat.two_pow_pos k)
        rw [Nat.mul_comm] at hmod
        omega
      rw [Int.cast_neg, Int.cast_natCast, neg_le_neg_iff, div_le_iff₀ hden]
      exact_mod_cast hceil

/-! ## The logarithm of the factor -/

theorem seriesFrom_le {square : ℕ} (h : square ≤ 2 ^ seriesPlaces) (power terms odd : ℕ) :
    seriesFrom power square terms odd ≤ terms * power := by
  induction terms generalizing power odd with
  | zero => simp [seriesFrom]
  | succ terms ih =>
      have hnext : (power * square) >>> seriesPlaces ≤ power := by
        rw [Nat.shiftRight_eq_div_pow]
        refine Nat.div_le_of_le_mul ?_
        rw [Nat.mul_comm]
        exact Nat.mul_le_mul_right _ h
      calc seriesFrom power square (terms + 1) odd
          = power / odd + seriesFrom ((power * square) >>> seriesPlaces) square terms (odd + 2) :=
            rfl
        _ ≤ power + terms * power :=
            Nat.add_le_add (Nat.div_le_self _ _) ((ih _ _).trans (Nat.mul_le_mul_left _ hnext))
        _ = (terms + 1) * power := by ring

/-- The first term of the series, where the factor is below three quarters. It is `2 / 7`. -/
theorem le_naturalLogUnits {num den : ℕ} (hpos : 0 < den) (h : 4 * num ≤ 3 * den) :
    1317624576693539400 ≤ naturalLogUnits num den := by
  unfold naturalLogUnits
  extract_lets gap tangent series
  have hgap : num + den ≤ 7 * gap := by
    simp only [gap]
    omega
  have htangent : 2 ^ 96 / 7 ≤ tangent := by
    simp only [tangent, Nat.shiftLeft_eq]
    rw [Nat.le_div_iff_mul_le (by omega)]
    calc 2 ^ 96 / 7 * (num + den) ≤ 2 ^ 96 / 7 * (7 * gap) := Nat.mul_le_mul_left _ hgap
      _ = 2 ^ 96 / 7 * 7 * gap := (Nat.mul_assoc _ _ _).symm
      _ ≤ 2 ^ 96 * gap := Nat.mul_le_mul_right _ (Nat.div_mul_le_self _ _)
      _ = gap * 2 ^ seriesPlaces := Nat.mul_comm _ _
  have hseries : tangent ≤ series := by
    have hfirst : series = tangent / 1 + seriesFrom ((tangent * ((tangent * tangent) >>>
        seriesPlaces)) >>> seriesPlaces) ((tangent * tangent) >>> seriesPlaces) 31 3 := rfl
    rw [Nat.div_one] at hfirst
    omega
  have hplaces : Nat.pow 2 (seriesPlaces - logPlaces) = 17179869184 := rfl
  rw [hplaces, roundHalfUp, Nat.le_div_iff_mul_le (by decide)]
  norm_num at htangent
  omega

theorem naturalLogUnits_le (num : ℕ) {den : ℕ} (hpos : 0 < den) :
    naturalLogUnits num den ≤ 2 ^ 70 := by
  unfold naturalLogUnits
  extract_lets gap tangent series
  have htangent : tangent ≤ 2 ^ 96 := by
    simp only [tangent, Nat.shiftLeft_eq]
    refine Nat.div_le_of_le_mul (Nat.mul_le_mul_right _ ?_)
    simp only [gap]
    omega
  have hsquare : (tangent * tangent) >>> seriesPlaces ≤ 2 ^ seriesPlaces := by
    rw [Nat.shiftRight_eq_div_pow]
    exact Nat.div_le_of_le_mul (Nat.mul_le_mul htangent htangent)
  have hseries : series ≤ 32 * tangent := seriesFrom_le hsquare tangent 32 1
  have hplaces : Nat.pow 2 (seriesPlaces - logPlaces) = 17179869184 := rfl
  rw [hplaces, roundHalfUp]
  norm_num at htangent
  omega

theorem roundHalfUp_mul_spec (num : ℕ) {den : ℕ} (h : 0 < den) :
    2 * (roundHalfUp num den * den) ≤ 2 * num + den ∧
      2 * num < 2 * (roundHalfUp num den * den) + den := by
  have hmod := Nat.div_add_mod (2 * num + den) (2 * den)
  have hlt := Nat.mod_lt (2 * num + den) (by omega : 0 < 2 * den)
  have hquot : 2 * den * ((2 * num + den) / (2 * den)) = 2 * (roundHalfUp num den * den) := by
    rw [roundHalfUp]
    ring
  omega

/-- Units are rounded to 53 bits before they are divided. -/
theorem exists_ofPlaces_eq {units : ℕ} (h : units ≤ 2 ^ 70) :
    ∃ kept, ofPlaces logPlaces units = Float.ofNat kept / Float.ofNat (1 * 2 ^ 62) ∧
      kept ≤ 1 * 2 ^ 72 ∧ (1317624576693539400 ≤ units → 73 * 2 ^ 54 ≤ kept) := by
  have hround := roundHalfUp_mul_spec units (Nat.two_pow_pos (units.log2 - 52))
  refine ⟨roundHalfUp units (2 ^ (units.log2 - 52)) * 2 ^ (units.log2 - 52), rfl, ?_, ?_⟩
  · have hle : 2 ^ (units.log2 - 52) ≤ units + 1 := by
      rcases Nat.eq_zero_or_pos units with rfl | hne
      · decide
      · calc 2 ^ (units.log2 - 52) ≤ 2 ^ units.log2 :=
              Nat.pow_le_pow_right two_pos (Nat.sub_le _ _)
          _ ≤ units + 1 := (Nat.log2_self_le hne.ne').trans (Nat.le_succ _)
    norm_num at h ⊢
    omega
  · intro hunits
    have hlog : 52 ≤ units.log2 := (Nat.le_log2 (by omega)).mpr (by norm_num; omega)
    have hle : 2 ^ (units.log2 - 52) * 4503599627370496 ≤ units := by
      rw [show 4503599627370496 = 2 ^ 52 by norm_num, ← Nat.pow_add, Nat.sub_add_cancel hlog]
      exact Nat.log2_self_le (by omega)
    norm_num
    omega

theorem toRat_two_pow {j : ℕ} (h : j ≤ 900) : toRat (Float.ofNat (1 * 2 ^ j)) = 2 ^ j := by
  rw [toRat_ofNat_mul_two_pow (by decide) h, Nat.cast_one, one_mul]

theorem toRat_ofPlaces {units : ℕ} (h : units ≤ 2 ^ 70) :
    (ofPlaces logPlaces units).isFinite = true ∧ 0 ≤ toRat (ofPlaces logPlaces units) ∧
      toRat (ofPlaces logPlaces units) ≤ 2 ^ 10 ∧
      (1317624576693539400 ≤ units → 73 / 256 ≤ toRat (ofPlaces logPlaces units)) := by
  obtain ⟨kept, heq, hhigh, hlow⟩ := exists_ofPlaces_eq h
  have hkept : (Float.ofNat kept).isFinite = true :=
    isFinite_ofNat_of_le (by omega : kept ≤ 2 ^ 72) (by decide)
  have hden : (Float.ofNat (1 * 2 ^ 62)).isFinite = true := isFinite_ofNat (by decide)
  have hten : (Float.ofNat (1 * 2 ^ 10)).isFinite = true := isFinite_ofNat (by decide)
  have hdenrat := toRat_two_pow (j := 62) (by decide)
  have htenrat := toRat_two_pow (j := 10) (by decide)
  have hpos : 0 < Double.units (Float.ofNat (1 * 2 ^ 62)) := by
    have hpos : (0 : ℚ) < toRat (Float.ofNat (1 * 2 ^ 62)) := by
      rw [hdenrat]
      positivity
    rw [toRat, div_pos_iff_of_pos_right unitsPerOne_pos_rat] at hpos
    exact_mod_cast hpos
  have hspec {z : Float} (hz : z.isFinite = true) :=
    toRat_div_spec (unsigned_ofNat kept) hkept (unsigned_ofNat (1 * 2 ^ 62)) hden hpos hz
  have hquot := (unsigned_ofNat kept).div (unsigned_ofNat (1 * 2 ^ 62))
  have hle : toRat (Float.ofNat kept / Float.ofNat (1 * 2 ^ 62)) ≤ 2 ^ 10 := by
    have hkeptle := toRat_le_toRat (ofNat_le_ofNat hhigh)
    rw [toRat_two_pow (by decide)] at hkeptle
    rw [← htenrat]
    refine (hspec hten).2 ?_
    rw [htenrat, hdenrat]
    linarith
  rw [heq]
  refine ⟨?_, hquot.toRat_nonneg, hle, ?_⟩
  · have hnum := (units_div (unsigned_ofNat kept) hkept (unsigned_ofNat (1 * 2 ^ 62)) hden hpos).1
    refine isFinite_of_abs_toRat_le hnum (j := 10) (by decide) ?_
    rwa [abs_of_nonneg hquot.toRat_nonneg]
  · intro hunits
    have hvalue : value 0.28515625 = .finite false 5136918324969472 18014398509481984 := by
      decide +kernel
    have hshare : toRat 0.28515625 = 73 / 256 := by
      rw [toRat_of_value hvalue]
      norm_num [signedRat]
    have hkeptge := toRat_le_toRat (ofNat_le_ofNat (hlow hunits))
    rw [toRat_ofNat_mul_two_pow (by decide) (by decide)] at hkeptge
    rw [← hshare]
    refine (hspec (isFinite_of_value hvalue)).1 ?_
    rw [hshare, hdenrat]
    norm_num at hkeptge ⊢
    linarith

theorem toRat_naturalLog {num den : ℕ} (h : num < den) :
    (naturalLog num den).isFinite = true ∧ -2 ^ 10 ≤ toRat (naturalLog num den) ∧
      toRat (naturalLog num den) ≤ 0 ∧
      (4 * num ≤ 3 * den → toRat (naturalLog num den) ≤ -(73 / 256)) := by
  have hpos : 0 < den := by omega
  obtain ⟨hfin, hnonneg, hle, hge⟩ := toRat_ofPlaces (naturalLogUnits_le num hpos)
  have heq : naturalLog num den = -ofPlaces logPlaces (naturalLogUnits num den) := by
    unfold naturalLog
    rw [decide_eq_true h]
    rfl
  rw [heq, toRat_neg, isFinite_neg]
  refine ⟨hfin, by linarith, by linarith, ?_⟩
  intro hfactor
  have hlow := hge (le_naturalLogUnits hpos hfactor)
  linarith

/-! ## The logarithm of a double below one -/

/-- The greater part of the decimal logarithm of two, short enough for exact multiples. -/
theorem toRat_twoLog : (0.30102999566361177 : Float).isFinite = true ∧
    toRat 0.30102999566361177 = 5422874305191936 / 18014398509481984 := by
  have hvalue : value 0.30102999566361177 = .finite false 5422874305191936 18014398509481984 := by
    decide +kernel
  exact ⟨isFinite_of_value hvalue, by simpa [signedRat] using toRat_of_value hvalue⟩

theorem toRat_twoLogRest : (3.694239077158931e-13 : Float).isFinite = true ∧
    toRat 3.694239077158931e-13 = 7317194349292342 / 19807040628566084398385987584 := by
  have hvalue : value 3.694239077158931e-13 =
      .finite false 7317194349292342 19807040628566084398385987584 := by
    decide +kernel
  exact ⟨isFinite_of_value hvalue, by simpa [signedRat] using toRat_of_value hvalue⟩

theorem toRat_eLog : (0.4342944819032518 : Float).isFinite = true ∧
    toRat 0.4342944819032518 = 7823553867474190 / 18014398509481984 := by
  have hvalue : value 0.4342944819032518 = .finite false 7823553867474190 18014398509481984 := by
    decide +kernel
  exact ⟨isFinite_of_value hvalue, by simpa [signedRat] using toRat_of_value hvalue⟩

/-- The share of the factor in the decimal logarithm. -/
theorem toRat_eLog_mul {x : Float} (hfin : x.isFinite = true) (hlow : -2 ^ 10 ≤ toRat x)
    (hhigh : toRat x ≤ 0) :
    (0.4342944819032518 * x).isFinite = true ∧ -2 ^ 10 ≤ toRat (0.4342944819032518 * x) ∧
      toRat (0.4342944819032518 * x) ≤ 0 ∧
      (toRat x ≤ -(73 / 256) → toRat (0.4342944819032518 * x) ≤ -(1238 / 10000)) := by
  obtain ⟨hconst, hrat⟩ := toRat_eLog
  have hsize : |toRat (0.4342944819032518 : Float) * toRat x| ≤ 2 ^ 10 := by
    rw [hrat, abs_le]
    constructor <;> linarith
  have hnonneg : 0 ≤ toRat (0.4342944819032518 : Float) := by
    rw [hrat]
    norm_num
  have hbounds := abs_le.mp (abs_toRat_mul_le hconst hfin hsize)
  refine ⟨isFinite_mul hconst hfin (by decide) hsize, hbounds.1, ?_, ?_⟩
  · have hzero : toRat (0.4342944819032518 * Float.ofNat 0) = 0 := by
      have hvalue : value (0.4342944819032518 * Float.ofNat 0) = .finite false 0 1 := by
        decide +kernel
      simpa [signedRat] using toRat_of_value hvalue
    rw [← hzero]
    refine toRat_mul_le_toRat_mul hconst hfin (isFinite_ofNat (by decide)) hnonneg ?_
    rwa [toRat_ofNat (by decide), Nat.cast_zero]
  · intro hfactor
    have hthird : value (-0.28515625) = .finite true 5136918324969472 18014398509481984 := by
      decide +kernel
    have hvalue : value (0.4342944819032518 * -0.28515625) =
        .finite true 8923741130087748 72057594037927936 := by
      decide +kernel
    have hmono := toRat_mul_le_toRat_mul hconst hfin (isFinite_of_value hthird) hnonneg (by
      rw [toRat_of_value hthird]
      norm_num [signedRat]
      linarith)
    rw [toRat_of_value hvalue] at hmono
    norm_num [signedRat] at hmono ⊢
    linarith

/-- The multiples of the logarithm of two that the exponent makes. -/
theorem toRat_mul_of_exponent {x y : Float} {a : ℕ} (ha : a ≤ 40) (hx : Whole x)
    (hxfin : x.isFinite = true) (hxrat : toRat x = -a) (hyfin : y.isFinite = true)
    (hy : 0 ≤ toRat y) (hone : toRat y ≤ 1) :
    (x * y).isFinite = true ∧ -2 ^ 10 ≤ toRat (x * y) ∧
      toRat (x * y) ≤ -(a * toRat y) * (1 - roundoff) := by
  have ha' : (a : ℚ) ≤ 40 := by exact_mod_cast ha
  have hprod : 0 ≤ (a : ℚ) * toRat y := mul_nonneg (Nat.cast_nonneg a) hy
  have hprodle : (a : ℚ) * toRat y ≤ 40 * 1 := mul_le_mul ha' hone hy (by norm_num)
  have hsize : |toRat x * toRat y| = a * toRat y := by
    rw [hxrat, neg_mul, abs_neg, abs_of_nonneg hprod]
  have hbound : |toRat x * toRat y| ≤ 2 ^ 10 := by
    rw [hsize]
    linarith
  have hfin := isFinite_mul hxfin hyfin (by decide) hbound
  have herror := (abs_le.mp (abs_toRat_mul_sub_le hx hfin)).2
  rw [hsize, hxrat] at herror
  exact ⟨hfin, (abs_le.mp (abs_toRat_mul_le hxfin hyfin hbound)).1, by linarith⟩

theorem toRat_add_of_nonpos {x y : Float} {j : ℕ} (hj : j + 1 ≤ 1000)
    (hxfin : x.isFinite = true) (hxlow : -2 ^ j ≤ toRat x) (hx : toRat x ≤ 0)
    (hyfin : y.isFinite = true) (hylow : -2 ^ j ≤ toRat y) (hy : toRat y ≤ 0) :
    (x + y).isFinite = true ∧ -2 ^ (j + 1) ≤ toRat (x + y) ∧
      toRat (x + y) ≤ (toRat x + toRat y) * (1 - roundoff) := by
  have hsize : |toRat x + toRat y| = -(toRat x + toRat y) := abs_of_nonpos (by linarith)
  have hbound : |toRat x + toRat y| ≤ 2 ^ (j + 1) := by
    rw [hsize, pow_succ]
    linarith
  have hfin := isFinite_add hxfin hyfin hj hbound
  have herror := (abs_le.mp (abs_toRat_add_sub_le hfin)).2
  rw [hsize] at herror
  exact ⟨hfin, (abs_le.mp (abs_toRat_add_le hxfin hyfin hbound)).1, by linarith⟩

/-- The exponent is exact as a double. -/
theorem exponent_spec {a : ℕ} (ha : a ≤ 40) :
    Whole (withSign (decide (-(a : ℤ) < 0)) (Float.ofNat a)) ∧
      (withSign (decide (-(a : ℤ) < 0)) (Float.ofNat a)).isFinite = true ∧
      toRat (withSign (decide (-(a : ℤ) < 0)) (Float.ofNat a)) = -a := by
  refine ⟨(whole_ofNat a).withSign _, ?_, ?_⟩
  · rw [isFinite_withSign]
    exact isFinite_ofNat (by omega)
  · have hexact := toRat_ofNat (n := a) (by omega)
    rcases Nat.eq_zero_or_pos a with rfl | hpos
    · simpa [withSign] using hexact
    · rw [decide_eq_true (by omega : -(a : ℤ) < 0)]
      change toRat (-Float.ofNat a) = -a
      rw [toRat_neg, hexact]

theorem decimalLog_eq {num k a : ℕ} (hexp : num.log2 + 1 + a = k) :
    decimalLog num (2 ^ k) =
      withSign (decide (-(a : ℤ) < 0)) (Float.ofNat a) * 3.694239077158931e-13 +
          0.4342944819032518 * naturalLog num (2 ^ (num.log2 + 1)) +
        withSign (decide (-(a : ℤ) < 0)) (Float.ofNat a) * 0.30102999566361177 := by
  have hlt : num < 2 ^ k :=
    Nat.lt_log2_self.trans_le (Nat.pow_le_pow_right two_pos (by omega))
  have hexponent : (num.log2 : ℤ) - (2 ^ k : ℕ).log2 + 1 = -a := by
    rw [Nat.log2_two_pow]
    omega
  unfold decimalLog
  dsimp only
  rw [if_pos hlt, hexponent, Int.natAbs_neg, Int.natAbs_natCast]
  rfl

/-- The decimal logarithm of `num / 2 ^ k`, where `a` is the exponent without its sign. -/
theorem toRat_decimalLog (num : ℕ) {k a : ℕ} (hexp : num.log2 + 1 + a = k) (ha : a ≤ 40) :
    (decimalLog num (2 ^ k)).isFinite = true ∧
      toRat (decimalLog num (2 ^ k)) ≤ -(a * 301029 / 1000000) ∧
      (4 * num ≤ 3 * 2 ^ (num.log2 + 1) →
        toRat (decimalLog num (2 ^ k)) ≤ -((a * 301029 + 123700) / 1000000)) := by
  obtain ⟨htwoswhole, htwosfin, htwosrat⟩ := exponent_spec ha
  rw [decimalLog_eq hexp]
  generalize withSign (decide (-(a : ℤ) < 0)) (Float.ofNat a) = twos at *
  obtain ⟨hrestfin, hrest⟩ := toRat_twoLogRest
  obtain ⟨hmainfin, hmain⟩ := toRat_twoLog
  obtain ⟨hrfin, hrlow, hrhigh⟩ := toRat_mul_of_exponent ha htwoswhole htwosfin htwosrat hrestfin
    (by rw [hrest]; norm_num) (by rw [hrest]; norm_num)
  obtain ⟨hmfin, hmlow, hmhigh⟩ := toRat_mul_of_exponent ha htwoswhole htwosfin htwosrat hmainfin
    (by rw [hmain]; norm_num) (by rw [hmain]; norm_num)
  obtain ⟨hnfin, hnlow, hnhigh, hnfactor⟩ := toRat_naturalLog (Nat.lt_log2_self (n := num))
  obtain ⟨hefin, helow, hehigh, hefactor⟩ := toRat_eLog_mul hnfin hnlow hnhigh
  have hshare : (0 : ℚ) ≤ 1 - roundoff := by norm_num [roundoff]
  have ha' : (0 : ℚ) ≤ a := Nat.cast_nonneg a
  have hrnonpos : toRat (twos * 3.694239077158931e-13) ≤ 0 := by
    rw [hrest] at hrhigh
    refine hrhigh.trans (mul_nonpos_of_nonpos_of_nonneg ?_ hshare)
    exact neg_nonpos.mpr (mul_nonneg ha' (by norm_num))
  have hmnonpos : toRat (twos * 0.30102999566361177) ≤ 0 := by
    rw [hmain] at hmhigh
    refine hmhigh.trans (mul_nonpos_of_nonpos_of_nonneg ?_ hshare)
    exact neg_nonpos.mpr (mul_nonneg ha' (by norm_num))
  obtain ⟨hsfin, hslow, hshigh⟩ := toRat_add_of_nonpos (by decide) hrfin hrlow hrnonpos hefin
    helow hehigh
  have hsnonpos : toRat (twos * 3.694239077158931e-13 + 0.4342944819032518 *
      naturalLog num (2 ^ (num.log2 + 1))) ≤ 0 :=
    hshigh.trans (mul_nonpos_of_nonpos_of_nonneg (by linarith) hshare)
  obtain ⟨hfin, -, hhigh⟩ := toRat_add_of_nonpos (by decide) hsfin hslow hsnonpos hmfin
    (by linarith) hmnonpos
  rw [hmain] at hmhigh
  unfold roundoff at hshigh hhigh hmhigh
  generalize toRat (twos * 0.30102999566361177) = m at hmhigh hhigh
  generalize toRat (twos * 3.694239077158931e-13) = r at hrnonpos hshigh
  generalize toRat (0.4342944819032518 * naturalLog num (2 ^ (num.log2 + 1))) = e
    at hehigh hefactor hshigh
  refine ⟨hfin, ?_, ?_⟩
  · linarith
  · intro hle
    have he := hefactor (hnfactor hle)
    linarith

theorem ten_zpow_le {e : ℤ} {n : ℕ} (h : e ≤ -n) {q : ℚ} (hq : 0 < q) (hle : q ≤ 10 ^ n) :
    (10 : ℚ) ^ e ≤ 1 / q := by
  calc (10 : ℚ) ^ e ≤ 10 ^ (-(n : ℤ)) := zpow_le_zpow_right₀ (by norm_num) h
    _ = 1 / 10 ^ n := by rw [zpow_neg, zpow_natCast, one_div]
    _ ≤ 1 / q := one_div_le_one_div_of_le hq hle

/-- The least power of ten for each exponent, with and without the share of the factor. -/
theorem two_pow_le_ten_pow_of_exponent : ∀ a ≤ 40,
    2 ^ a ≤ 10 ^ ((a * 301029 + 999999) / 1000000) ∧
      132 * 2 ^ a ≤ 100 * 10 ^ ((a * 301029 + 123700 + 999999) / 1000000) := by
  decide +kernel

theorem le_neg_of_le_millionths {e : ℤ} {n : ℕ} (h : (e : ℚ) ≤ -(n / 1000000)) :
    e ≤ -((n + 999999) / 1000000 : ℕ) := by
  have hscaled : (e : ℚ) * 1000000 ≤ -n := by linarith
  have hint : e * 1000000 ≤ -n := by exact_mod_cast hscaled
  omega

/-- A double below one, down to `2 ^ -40`, is a factor from one half to one and a power of two. -/
theorem exists_factor_eq {x : Float} (hfin : x.isFinite = true) (hlow : 1 / 2 ^ 40 ≤ toRat x)
    (hhigh : toRat x < 1) :
    ∃ num a, num ≠ 0 ∧ a ≤ 40 ∧ value x = .finite false num (2 ^ (num.log2 + 1 + a)) ∧
      toRat x = num / (2 * 2 ^ num.log2) * (1 / 2 ^ a) := by
  obtain ⟨negative, num, k, hvalue, hrat⟩ := exists_value_eq hfin
  have hden : (0 : ℚ) < 2 ^ k := by positivity
  have hpos : 0 < toRat x := lt_of_lt_of_le (by positivity) hlow
  obtain rfl : negative = false := by
    cases negative with
    | false => rfl
    | true =>
        rw [hrat] at hpos
        exact absurd hpos (not_lt.mpr (neg_nonpos.mpr (by positivity)))
  replace hrat : toRat x = num / 2 ^ k := by simpa [signedRat] using hrat
  have hnum : num ≠ 0 := by
    rintro rfl
    rw [hrat, Nat.cast_zero, zero_div] at hpos
    exact absurd hpos (lt_irrefl 0)
  have hlt : num.log2 < k := by
    rw [hrat, div_lt_one hden] at hhigh
    exact (Nat.log2_lt hnum).mpr (by exact_mod_cast hhigh)
  obtain ⟨a, rfl⟩ : ∃ a, k = num.log2 + 1 + a := ⟨k - (num.log2 + 1), by omega⟩
  refine ⟨num, a, hnum, ?_, hvalue, ?_⟩
  · rw [hrat, div_le_div_iff₀ (by positivity) hden] at hlow
    have hnat : 2 ^ (num.log2 + 1 + a) < 2 ^ (num.log2 + 1 + 40) := by
      calc 2 ^ (num.log2 + 1 + a) ≤ num * 2 ^ 40 := by
            have hcast : (2 : ℚ) ^ (num.log2 + 1 + a) ≤ num * 2 ^ 40 := by linarith
            exact_mod_cast hcast
        _ < 2 ^ (num.log2 + 1) * 2 ^ 40 :=
            Nat.mul_lt_mul_of_pos_right Nat.lt_log2_self (Nat.two_pow_pos 40)
        _ = 2 ^ (num.log2 + 1 + 40) := (Nat.pow_add _ _ _).symm
    have hexplt := (Nat.pow_lt_pow_iff_right (by decide)).mp hnat
    omega
  · rw [hrat, pow_add, pow_succ]
    field_simp

/-- The power of ten that belongs to the computed exponent is not much greater than the
double. -/
theorem ten_zpow_logFloor_le {x : Float} (hfin : x.isFinite = true)
    (hlow : 1 / 2 ^ 40 ≤ toRat x) (hhigh : toRat x < 1) :
    (10 : ℚ) ^ logFloor x ≤ 8 / 5 * toRat x := by
  obtain ⟨num, a, hnum, ha, hvalue, hsplit⟩ := exists_factor_eq hfin hlow hhigh
  obtain ⟨hlogfin, hexponent, hfactor⟩ := toRat_decimalLog num rfl ha
  have hlog : logFloor x = floorToInt (decimalLog num (2 ^ (num.log2 + 1 + a))) := by
    unfold logFloor
    rw [hvalue]
    dsimp only
    rw [if_neg hnum]
  have hfloor := floorToInt_le hlogfin
  rw [← hlog] at hfloor
  obtain ⟨htable, htable'⟩ := two_pow_le_ten_pow_of_exponent a ha
  have hpow : (0 : ℚ) < 2 ^ a := by positivity
  have hshare : 0 < 1 / (2 : ℚ) ^ a := one_div_pos.mpr hpow
  rw [hsplit]
  by_cases hle : 4 * num ≤ 3 * 2 ^ (num.log2 + 1)
  · have hround := le_neg_of_le_millionths (n := a * 301029 + 123700) (by
      push_cast
      exact hfloor.trans (hfactor hle))
    have hten := ten_zpow_le hround (q := 132 / 100 * 2 ^ a) (by positivity) (by
      have hcast : (132 : ℚ) * 2 ^ a ≤
          100 * 10 ^ ((a * 301029 + 123700 + 999999) / 1000000) := by
        exact_mod_cast htable'
      linarith)
    have hhalf : 1 / 2 ≤ (num : ℚ) / (2 * 2 ^ num.log2) := by
      have hself : (2 : ℚ) ^ num.log2 ≤ num := by exact_mod_cast Nat.log2_self_le hnum
      rw [div_le_div_iff₀ (by norm_num) (by positivity)]
      linarith
    have hle' := mul_le_mul_of_nonneg_right hhalf hshare.le
    have hquot : 1 / (132 / 100 * (2 : ℚ) ^ a) = 100 / 132 * (1 / 2 ^ a) := by
      field_simp
    rw [hquot] at hten
    linarith
  · have hround := le_neg_of_le_millionths (n := a * 301029) (by
      push_cast
      exact hfloor.trans hexponent)
    have hten := ten_zpow_le hround hpow (by exact_mod_cast htable)
    have hthree : 3 / 4 ≤ (num : ℚ) / (2 * 2 ^ num.log2) := by
      have hcast : (3 : ℚ) * 2 ^ (num.log2 + 1) ≤ 4 * num := by
        exact_mod_cast (Nat.lt_of_not_le hle).le
      rw [pow_succ] at hcast
      rw [div_le_div_iff₀ (by norm_num) (by positivity)]
      linarith
    have hle' := mul_le_mul_of_nonneg_right hthree hshare.le
    linarith

end FacetedSearch.Double
