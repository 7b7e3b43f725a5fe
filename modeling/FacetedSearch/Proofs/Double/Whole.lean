import FacetedSearch.Proofs.Double.Ratio

/-!
# Whole doubles

Sums, products and differences of whole doubles are whole, however they are rounded: rounding
drops bits of a significand, and the bits below one are zero already. So a scale with a whole
step has whole bounds. Infinite doubles count as whole here, and so does NaN, which spares all
conditions on overflow.
-/

namespace FacetedSearch.Double

open Float.Model Float.Model.UnpackedFloat

/-- A double without a fraction. -/
def Whole (x : Float) : Prop := (unitsPerOne : ℤ) ∣ units x

/-! ## Rounding -/

/-- A whole number keeps the powers of two that divide it when it is rounded to 53 bits. -/
theorem two_pow_dvd_nearest {k num : ℕ} (h : 2 ^ k ∣ num) : 2 ^ k ∣ nearest num 1 := by
  unfold nearest significand
  rw [Nat.one_mul]
  rcases le_total k (dropped num 1) with hle | hle
  · exact (pow_dvd_pow 2 hle).mul_left _
  · obtain ⟨m, hm⟩ := (pow_dvd_pow 2 hle).trans h
    generalize dropped num 1 = j at hm
    rw [Nat.mul_comm] at hm
    rw [hm, Decimal.roundHalfEven_mul_self m (Nat.two_pow_pos j), ← hm]
    exact h

theorem unitsPerOne_dvd_infinityUnits : unitsPerOne ∣ infinityUnits := by
  obtain ⟨i, hi⟩ : ∃ i, i = 2098 := ⟨_, rfl⟩
  obtain ⟨k, hk⟩ : ∃ k, k = 1074 := ⟨_, rfl⟩
  rw [unitsPerOne_eq hk, infinityUnits_eq hi]
  exact pow_dvd_pow 2 (by omega)

theorem unitsPerOne_dvd_roundUnits {z : ℤ} (h : (unitsPerOne : ℤ) ∣ z) :
    (unitsPerOne : ℤ) ∣ roundUnits z 1 := by
  obtain ⟨k, hk⟩ : ∃ k, k = 1074 := ⟨_, rfl⟩
  have hnearest : unitsPerOne ∣ nearest z.natAbs 1 := by
    have hnat : unitsPerOne ∣ z.natAbs := Int.natCast_dvd.mp h
    rw [unitsPerOne_eq hk] at hnat ⊢
    exact two_pow_dvd_nearest hnat
  have hmin : (unitsPerOne : ℤ) ∣ (min (nearest z.natAbs 1) infinityUnits : ℕ) := by
    rcases min_choice (nearest z.natAbs 1) infinityUnits with hmin | hmin
    · rw [hmin]
      exact Int.natCast_dvd_natCast.mpr hnearest
    · rw [hmin]
      exact Int.natCast_dvd_natCast.mpr unitsPerOne_dvd_infinityUnits
  unfold roundUnits
  split_ifs
  · exact hmin.neg_right
  · exact hmin

theorem whole_of_not_isFinite {x : Float} (h : x.isFinite = false) : Whole x := by
  unfold Whole
  cases hnum : x.isNaN with
  | true =>
      rw [isNaN_eq_true_iff] at hnum
      rw [units, hnum]
      exact dvd_zero _
  | false =>
      have hinf := Int.natCast_dvd_natCast.mpr unitsPerOne_dvd_infinityUnits
      rcases units_of_not_isFinite hnum h with hunits | hunits
      · rw [hunits]
        exact hinf
      · rw [hunits]
        exact hinf.neg_right

/-! ## Operations -/

theorem isFinite_of_isFinite_add {x y : Float} (h : (x + y).isFinite = true) :
    x.isFinite = true ∧ y.isFinite = true := by
  have hnum := isNaN_of_isFinite h
  obtain ⟨hx, hy⟩ := isNaN_of_isNaN_add hnum
  have hsum : ∀ s, (x + y).toModel.unpack ≠ .infinity s := by
    intro s hs
    have hfin : (x + y).toModel.unpack.isFinite = true := h
    rw [hs] at hfin
    cases hfin
  cases hxfin : x.isFinite with
  | false =>
      obtain ⟨s, hs⟩ := unpack_of_not_isFinite hx hxfin
      exact absurd (unpack_add_of_infinite_left hs hnum) (hsum s)
  | true =>
      cases hyfin : y.isFinite with
      | false =>
          obtain ⟨s, hs⟩ := unpack_of_not_isFinite hy hyfin
          exact absurd (unpack_add_of_infinite_right hxfin hs) (hsum s)
      | true => exact ⟨rfl, rfl⟩

theorem isFinite_of_isFinite_mul {x y : Float} (h : (x * y).isFinite = true) :
    x.isFinite = true ∧ y.isFinite = true := by
  have hprod : x.toModel.unpack.mul .binary64 y.toModel.unpack ≠ .notANumber ∧
      ∀ s, x.toModel.unpack.mul .binary64 y.toModel.unpack ≠ .infinity s := by
    have hfin : (x * y).toModel.unpack.isFinite = true := h
    rw [unpack_mul] at hfin
    constructor
    · intro hnan
      rw [hnan, unpack_pack_notANumber] at hfin
      cases hfin
    · intro s hs
      rw [hs, unpack_pack_infinity] at hfin
      cases hfin
  change x.toModel.unpack.isFinite = true ∧ y.toModel.unpack.isFinite = true
  generalize x.toModel.unpack = u at hprod ⊢
  generalize y.toModel.unpack = v at hprod ⊢
  cases u <;> cases v <;> simp_all [UnpackedFloat.mul, UnpackedFloat.isFinite]

/-- A product with a whole number has no bits below the least unit. -/
theorem units_mul_of_whole {x y : Float} (hx : x.isFinite = true) (hy : y.isFinite = true)
    {a : ℤ} (ha : units x = unitsPerOne * a) :
    units (x * y) = roundUnits (a * units y) 1 := by
  have hfactor : units x * units y = a * units y * unitsPerOne := by
    rw [ha]
    ring
  have hscale := roundUnits_mul_right (a * units y) unitsPerOne_pos Nat.one_pos
  rw [Nat.one_mul] at hscale
  rw [units_mul hx hy, hfactor, hscale]

theorem sub_eq_add_neg (x y : Float) : x - y = x + -y := by
  refine eq_of_unpack_eq ?_
  rw [unpack_sub, unpack_add, unpack_neg]
  congr 2
  cases x.toModel.unpack with
  | finite s m e hm =>
      cases y.toModel.unpack with
      | finite s' m' e' hm' =>
          have happly (n : ℤ) : (-s').apply n = -s'.apply n := by
            cases s' <;> simp [Sign.apply]
          simp only [UnpackedFloat.sub, UnpackedFloat.add, UnpackedFloat.neg, happly,
            Int.sub_eq_add_neg]
      | _ => rfl
  | _ => cases y.toModel.unpack <;> rfl

namespace Whole

theorem neg {x : Float} (hx : Whole x) : Whole (-x) := by
  unfold Whole
  rw [units_neg]
  exact hx.neg_right

theorem add {x y : Float} (hx : Whole x) (hy : Whole y) : Whole (x + y) := by
  cases hfin : (x + y).isFinite with
  | false => exact whole_of_not_isFinite hfin
  | true =>
      obtain ⟨hxfin, hyfin⟩ := isFinite_of_isFinite_add hfin
      unfold Whole
      rw [units_add hxfin hyfin]
      exact unitsPerOne_dvd_roundUnits (dvd_add hx hy)

theorem sub {x y : Float} (hx : Whole x) (hy : Whole y) : Whole (x - y) := by
  rw [sub_eq_add_neg]
  exact hx.add hy.neg

theorem mul {x y : Float} (hx : Whole x) (hy : Whole y) : Whole (x * y) := by
  cases hfin : (x * y).isFinite with
  | false => exact whole_of_not_isFinite hfin
  | true =>
      obtain ⟨hxfin, hyfin⟩ := isFinite_of_isFinite_mul hfin
      obtain ⟨a, ha⟩ := hx
      unfold Whole
      rw [units_mul_of_whole hxfin hyfin ha]
      exact unitsPerOne_dvd_roundUnits (hy.mul_left a)

theorem withSign {x : Float} (hx : Whole x) (negative : Bool) :
    Whole (withSign negative x) := by
  cases negative with
  | false => exact hx
  | true => exact hx.neg

end Whole

theorem whole_ofNat (n : ℕ) : Whole (Float.ofNat n) := by
  unfold Whole
  rw [(units_ofNat n).2]
  exact unitsPerOne_dvd_roundUnits (Int.natCast_dvd_natCast.mpr (dvd_mul_left _ _))

/-- A finite double is whole if its exact value is. -/
theorem whole_iff_dvd {x : Float} {negative : Bool} {num k : ℕ}
    (hunits : units (Double.withSign negative x) * (2 ^ k : ℕ) = (num * unitsPerOne : ℕ)) :
    Whole x ↔ 2 ^ k ∣ num := by
  have hsign : Whole x ↔ (unitsPerOne : ℤ) ∣ units (Double.withSign negative x) := by
    constructor
    · intro h
      exact h.withSign negative
    · intro h
      rw [← withSign_withSign negative x]
      exact Whole.withSign h negative
  have hone : (unitsPerOne : ℤ) ≠ 0 := Int.natCast_ne_zero.mpr unitsPerOne_pos.ne'
  have hpow : ((2 ^ k : ℕ) : ℤ) ≠ 0 := Int.natCast_ne_zero.mpr (Nat.two_pow_pos k).ne'
  rw [hsign, ← Int.natCast_dvd_natCast]
  push_cast at hunits ⊢
  constructor
  · rintro ⟨a, ha⟩
    refine ⟨a, mul_right_cancel₀ hone ?_⟩
    rw [← hunits, ha]
    ring
  · rintro ⟨a, ha⟩
    refine ⟨a, mul_right_cancel₀ hpow ?_⟩
    push_cast
    rw [hunits, ha]
    ring

/-- The exact value of a whole double is a fraction that can be cancelled. -/
theorem Whole.exists_value_eq {x : Float} (hx : Whole x) (hfin : x.isFinite = true) :
    ∃ negative a k, value x = .finite negative (a * 2 ^ k) (2 ^ k) ∧
      IsNearest (Double.withSign negative x) a 1 ∧ toRat x = signedRat negative a := by
  obtain ⟨negative, num, k, hvalue, hnearest, hunits⟩ := value_of_isFinite hfin
  obtain ⟨a, rfl⟩ := (whole_iff_dvd hunits).mp hx
  have hpow : (0 : ℚ) < (2 ^ k : ℕ) := Nat.cast_pos.mpr (Nat.two_pow_pos k)
  refine ⟨negative, a, k, by rw [hvalue, Nat.mul_comm], ?_, ?_⟩
  · exact hnearest.congr (Nat.two_pow_pos k) Nat.one_pos (by ring)
  · obtain ⟨negative', num', k', hvalue', hrat⟩ := Double.exists_value_eq hfin
    obtain ⟨rfl, hnum, hden⟩ := Value.finite.inj (hvalue.symm.trans hvalue')
    rw [hrat, ← hnum, ← hden, Nat.cast_mul, mul_div_cancel_left₀ _ hpow.ne']

theorem whole_floor (x : Float) : Whole (floor x) := by
  unfold floor
  cases hfin : x.isFinite with
  | false =>
      have hx := whole_of_not_isFinite hfin
      split
      · split_ifs
        · exact hx
        · exact (whole_ofNat _).withSign _
        · exact (whole_ofNat _).withSign _
      · exact hx
  | true =>
      obtain ⟨negative, num, k, hvalue, -, hunits⟩ := value_of_isFinite hfin
      rw [hvalue]
      dsimp only
      split_ifs with hzero
      · exact (whole_iff_dvd hunits).mpr (Nat.dvd_of_mod_eq_zero hzero)
      · exact (whole_ofNat _).withSign _
      · exact (whole_ofNat _).withSign _

/-- Between a whole number and the next one there is none, wherever doubles have a next one. -/
theorem Whole.le_of_lt_add_one {x y : Float} (hx : Whole x) (hy : Whole y) (h : x < y + 1) :
    x ≤ y := by
  obtain ⟨hxnum, hsum, hunits⟩ := lt_iff.mp h
  have hynum := (isNaN_of_isNaN_add hsum).1
  refine le_iff.mpr ⟨hxnum, hynum, ?_⟩
  cases hyfin : y.isFinite with
  | false =>
      rw [units_add_of_infinite_left hyfin hsum] at hunits
      exact hunits.le
  | true =>
      by_contra hlt
      have hstep : units y + unitsPerOne ≤ units x := by
        obtain ⟨a, ha⟩ := hx
        obtain ⟨b, hb⟩ := hy
        have hpos : (0 : ℤ) < unitsPerOne := Int.natCast_pos.mpr unitsPerOne_pos
        rw [ha, hb] at hlt ⊢
        have hab : b + 1 ≤ a := by
          by_contra hle
          exact hlt (Int.mul_le_mul_of_nonneg_left (by omega) hpos.le)
        have hmul := Int.mul_le_mul_of_nonneg_left hab hpos.le
        linarith
      have hone : (1 : Float).isFinite = true := isFinite_ofNat (by decide)
      rw [units_add hyfin hone, units_one_eq] at hunits
      cases hxfin : x.isFinite with
      | true =>
          have hround := roundUnits_le_roundUnits Nat.one_pos hstep
          have hself : roundUnits (units x) 1 = units x :=
            roundUnits_signedUnits (canonical_toModel x) hxfin
          omega
      | false =>
          have hbound := units_bounds (y + 1)
          rcases units_of_not_isFinite hxnum hxfin with hinf | hinf
          · rw [units_add hyfin hone, units_one_eq] at hbound
            omega
          · have hlow := units_of_isFinite hyfin
            omega

end FacetedSearch.Double
