import FacetedSearch.Proofs.Decimal.Nearest

/-!
# The exact value of a double

A double is fixed by its sign and its number of units, so a ratio has one nearest double. The
exact value of a finite double is a ratio whose nearest double it is, up to the sign.
-/

namespace FacetedSearch.Double

open Float.Model Float.Model.UnpackedFloat

theorem eq_of_unpack_eq {x y : Float} (h : x.toModel.unpack = y.toModel.unpack) : x = y := by
  have hpack (z : Float) : pack .binary64 z.toModel.unpack = z.toModel.toBits.toBitVec :=
    pack_unpack_of_valid z.toModel.valid
  have hbits : x.toModel.toBits.toBitVec = y.toModel.toBits.toBitVec := by
    rw [← hpack x, ← hpack y, h]
  obtain ⟨⟨⟨b⟩, hb⟩⟩ := x
  obtain ⟨⟨⟨c⟩, hc⟩⟩ := y
  obtain rfl : b = c := hbits
  rfl

theorem finite_eq_of_magnitude_eq {s : Sign} {m m' : ℕ} {e e' : ℤ} {hm : 0 < m} {hm' : 0 < m'}
    (h : Canonical (.finite s m e hm)) (h' : Canonical (.finite s m' e' hm'))
    (heq : magnitude (.finite s m e hm) = magnitude (.finite s m' e' hm')) :
    UnpackedFloat.finite s m e hm = .finite s m' e' hm' := by
  have hcompare := compare_magnitude h h'
  rw [show m * 2 ^ (e + 1074).toNat = m' * 2 ^ (e' + 1074).toNat from heq,
    Nat.compare_eq_eq.mpr rfl, Ordering.then_eq_eq] at hcompare
  obtain rfl := Int.compare_eq_eq.mp hcompare.1
  obtain rfl := Nat.compare_eq_eq.mp hcompare.2
  rfl

theorem eq_of_magnitude_eq {u v : UnpackedFloat} (hu : Canonical u) (hv : Canonical v)
    (hun : u ≠ .notANumber) (hvn : v ≠ .notANumber) (hsign : signOf u = signOf v)
    (h : magnitude u = magnitude v) : u = v := by
  have hinf := infinityUnits_pos
  cases u with
  | notANumber => exact absurd rfl hun
  | infinity s =>
      cases v with
      | notANumber => exact absurd rfl hvn
      | infinity s' => exact congrArg _ hsign
      | zero s' => exact absurd h hinf.ne'
      | finite s' m' e' hm' => exact absurd h (magnitude_lt_infinityUnits hv rfl).ne'
  | zero s =>
      cases v with
      | notANumber => exact absurd rfl hvn
      | infinity s' => exact absurd h hinf.ne
      | zero s' => exact congrArg _ hsign
      | finite s' m' e' hm' => exact absurd h (magnitude_pos hm').ne
  | finite s m e hm =>
      cases v with
      | notANumber => exact absurd rfl hvn
      | infinity s' => exact absurd h (magnitude_lt_infinityUnits hu rfl).ne
      | zero s' => exact absurd h (magnitude_pos hm).ne'
      | finite s' m' e' hm' =>
          obtain rfl : s = s' := hsign
          exact finite_eq_of_magnitude_eq hu hv h

theorem Unsigned.units_eq {x : Float} (h : Unsigned x) :
    units x = magnitude x.toModel.unpack := by
  rw [units, signedUnits, h]
  rfl

/-- Doubles without a minus sign are told apart by their units. -/
theorem eq_of_units_eq {x y : Float} (hx : Unsigned x) (hy : Unsigned y)
    (hxnum : x.isNaN = false) (hynum : y.isNaN = false) (h : units x = units y) : x = y := by
  rw [hx.units_eq, hy.units_eq] at h
  exact eq_of_unpack_eq (eq_of_magnitude_eq (canonical_toModel x) (canonical_toModel y)
    (isNaN_eq_false_iff.mp hxnum) (isNaN_eq_false_iff.mp hynum) (hx.trans hy.symm)
    (Int.ofNat_inj.mp h))

/-- The units of a number tell its sign, negative zero apart. -/
theorem signOf_eq_ite {x : Float} (hx : x ≠ -0.0) (hnum : x.isNaN = false) :
    signOf x.toModel.unpack = if 0 ≤ units x then .positive else .negative := by
  have hzero : (-0.0 : Float).toModel.unpack = .zero .negative := rfl
  have hinf := infinityUnits_pos
  have hneg {n : ℕ} (hn : 0 < n) : ¬ (0 : ℤ) ≤ -n := by omega
  rw [isNaN_eq_false_iff] at hnum
  unfold units
  cases hu : x.toModel.unpack with
  | notANumber => exact absurd hu hnum
  | infinity s =>
      cases s with
      | negative => exact (if_neg (hneg hinf)).symm
      | positive => exact (if_pos (Int.natCast_nonneg _)).symm
  | zero s =>
      cases s with
      | negative => exact absurd (eq_of_unpack_eq (hu.trans hzero.symm)) hx
      | positive => rfl
  | finite s m e hm =>
      cases s with
      | negative => exact (if_neg (hneg (magnitude_pos hm))).symm
      | positive => exact (if_pos (Int.natCast_nonneg _)).symm

/-- Zero has two signs. All other numbers are told apart by their order. -/
protected theorem le_antisymm {x y : Float} (hxy : x ≤ y) (hyx : y ≤ x) (hx : x ≠ -0.0)
    (hy : y ≠ -0.0) : x = y := by
  rw [le_iff] at hxy hyx
  have hunits : units x = units y := le_antisymm hxy.2.2 hyx.2.2
  have hsign : signOf x.toModel.unpack = signOf y.toModel.unpack := by
    rw [signOf_eq_ite hx hxy.1, signOf_eq_ite hy hxy.2.1, hunits]
  refine eq_of_unpack_eq (eq_of_magnitude_eq (canonical_toModel x) (canonical_toModel y)
    (isNaN_eq_false_iff.mp hxy.1) (isNaN_eq_false_iff.mp hxy.2.1) hsign ?_)
  unfold units signedUnits at hunits
  rw [hsign] at hunits
  cases hs : signOf y.toModel.unpack <;> simp only [hs, Sign.apply] at hunits <;> omega

theorem roundUnits_ne_zero {z : ℤ} (h : z ≠ 0) : roundUnits z 1 ≠ 0 := by
  have hone : 2 ^ 0 ≤ nearest z.natAbs 1 := two_pow_le_nearest (by simp; omega)
  have hinf := infinityUnits_pos
  unfold roundUnits
  split_ifs <;> omega

theorem signedUnits_finite_ne_zero {s : Sign} {m : ℕ} {e : ℤ} (hm : 0 < m) :
    signedUnits (.finite s m e hm) ≠ 0 := by
  have hpos := magnitude_pos (s := s) (e := e) hm
  unfold signedUnits signOf
  cases s <;> simp only [Sign.apply] <;> omega

/-- A sum that is zero has a minus sign only if both summands have one. -/
theorem signOf_add_of_eq_zero {u v : UnpackedFloat} (hu : Canonical u) (hv : Canonical v)
    (huf : u.isFinite = true) (hvf : v.isFinite = true) (hsign : signOf v = .positive)
    (h : signedUnits u + signedUnits v = 0) : u.add .binary64 v = .zero .positive := by
  cases u with
  | notANumber => cases huf
  | infinity s => cases huf
  | zero s =>
      cases v with
      | notANumber => cases hvf
      | infinity s' => cases hvf
      | zero s' =>
          obtain rfl : s' = .positive := hsign
          cases s <;> rfl
      | finite s' m' e' hm' =>
          rw [signedUnits_zero, Int.zero_add] at h
          exact absurd h (signedUnits_finite_ne_zero hm')
  | finite s m e hm =>
      cases v with
      | notANumber => cases hvf
      | infinity s' => cases hvf
      | zero s' =>
          rw [signedUnits_zero, Int.add_zero] at h
          exact absurd h (signedUnits_finite_ne_zero hm)
      | finite s' m' e' hm' =>
          have hlow : -1074 ≤ min e e' := le_min hu.2.1 hv.2.1
          rw [signedUnits_finite_eq hm hlow (min_le_left e e'),
            signedUnits_finite_eq hm' hlow (min_le_right e e'), ← Int.add_mul] at h
          have hpow : (2 : ℤ) ^ (min e e' + 1074).toNat ≠ 0 := pow_ne_zero _ (by decide)
          have hsum := (Int.mul_eq_zero.mp h).resolve_right hpow
          have hadd : (UnpackedFloat.finite s m e hm).add .binary64 (.finite s' m' e' hm') =
              normalize .binary64 (s.apply ((m <<< (e - min e e').toNat : ℕ) : ℤ) +
                s'.apply ((m' <<< (e' - min e e').toNat : ℕ) : ℤ)) (min e e') .positive := rfl
          rw [hadd, hsum]
          rfl

/-- A sum is negative zero only if both summands are. -/
theorem add_ne_neg_zero {x y : Float} (hy : Unsigned y) : x + y ≠ -0.0 := by
  intro h
  have hzero : (-0.0 : Float).toModel.unpack = .zero .negative := rfl
  have hsum : (x + y).toModel.unpack = .zero .negative := by rw [h, hzero]
  have hnum : (x + y).isNaN = false := by
    rw [isNaN_eq_false_iff, hsum]
    simp
  obtain ⟨hxnum, hynum⟩ := isNaN_of_isNaN_add hnum
  cases hxfin : x.isFinite with
  | false =>
      obtain ⟨s, hs⟩ := unpack_of_not_isFinite hxnum hxfin
      rw [unpack_add_of_infinite_left hs hnum] at hsum
      cases hsum
  | true =>
      cases hyfin : y.isFinite with
      | false =>
          obtain ⟨s, hs⟩ := unpack_of_not_isFinite hynum hyfin
          rw [unpack_add_of_infinite_right hxfin hs] at hsum
          cases hsum
      | true =>
          have hunits : units x + units y = 0 := by
            by_contra hne
            have hround := units_add hxfin hyfin
            rw [units, hsum, signedUnits_zero] at hround
            exact roundUnits_ne_zero hne hround.symm
          rw [unpack_add, signOf_add_of_eq_zero (canonical_toModel x) (canonical_toModel y) hxfin
            hyfin hy hunits, unpack_pack_zero] at hsum
          cases hsum

theorem IsNearest.unique {x y : Float} {num den : ℕ} (hx : IsNearest x num den)
    (hy : IsNearest y num den) : x = y :=
  eq_of_units_eq hx.unsigned hy.unsigned hx.isNaN hy.isNaN (hx.units.trans hy.units.symm)

/-! ## Signs -/

theorem canonical_neg {u : UnpackedFloat} (h : Canonical u) : Canonical u.neg := by
  cases u <;> exact h

theorem unpack_neg (x : Float) : (-x).toModel.unpack = x.toModel.unpack.neg :=
  unpack_pack_of_canonical (canonical_neg (canonical_toModel x))

theorem neg_neg (x : Float) : - -x = x := by
  apply eq_of_unpack_eq
  rw [unpack_neg, unpack_neg]
  cases x.toModel.unpack with
  | notANumber => rfl
  | infinity s => cases s <;> rfl
  | zero s => cases s <;> rfl
  | finite s m e hm => cases s <;> rfl

theorem isFinite_neg (x : Float) : (-x).isFinite = x.isFinite := by
  change (-x).toModel.unpack.isFinite = x.toModel.unpack.isFinite
  rw [unpack_neg]
  cases x.toModel.unpack <;> rfl

theorem isNaN_neg (x : Float) : (-x).isNaN = x.isNaN := by
  have hiff : (-x).isNaN = true ↔ x.isNaN = true := by
    rw [isNaN_eq_true_iff, isNaN_eq_true_iff, unpack_neg]
    cases x.toModel.unpack <;> simp [UnpackedFloat.neg]
  exact Bool.eq_iff_iff.mpr hiff

theorem withSign_withSign (negative : Bool) (x : Float) :
    withSign negative (withSign negative x) = x := by
  cases negative with
  | false => rfl
  | true => exact neg_neg x

theorem isFinite_withSign (negative : Bool) (x : Float) :
    (withSign negative x).isFinite = x.isFinite := by
  cases negative with
  | false => rfl
  | true => exact isFinite_neg x

theorem unsigned_withSign (x : Float) :
    Unsigned (withSign (isNegative (signOf x.toModel.unpack)) x) := by
  cases hs : signOf x.toModel.unpack with
  | positive => exact hs
  | negative =>
      change signOf (-x).toModel.unpack = .positive
      rw [unpack_neg]
      cases hu : x.toModel.unpack with
      | notANumber => rfl
      | infinity s => rw [hu] at hs; cases hs; rfl
      | zero s => rw [hu] at hs; cases hs; rfl
      | finite s m e hm => rw [hu] at hs; cases hs; rfl

theorem magnitude_withSign (negative : Bool) (x : Float) :
    magnitude (withSign negative x).toModel.unpack = magnitude x.toModel.unpack := by
  cases negative with
  | false => rfl
  | true =>
      change magnitude (-x).toModel.unpack = _
      rw [unpack_neg]
      cases x.toModel.unpack <;> rfl

/-! ## Exact values -/

/-- A finite double is the nearest one to its own units. -/
theorem isNearest_withSign {x : Float} (hfin : x.isFinite = true) {num den : ℕ} (hden : 0 < den)
    (h : magnitude x.toModel.unpack * den = num * unitsPerOne) :
    IsNearest (withSign (isNegative (signOf x.toModel.unpack)) x) num den := by
  have hunsigned := unsigned_withSign x
  have hmagnitude := magnitude_withSign (isNegative (signOf x.toModel.unpack)) x
  have hfin' := isFinite_withSign (isNegative (signOf x.toModel.unpack)) x
  generalize withSign (isNegative (signOf x.toModel.unpack)) x = y at *
  rw [hfin] at hfin'
  have hround := roundUnits_signedUnits (canonical_toModel y) hfin'
  refine ⟨?_, hunsigned, ?_⟩
  · rw [isNaN_eq_false_iff]
    intro hnan
    have : y.toModel.unpack.isFinite = true := hfin'
    rw [hnan] at this
    cases this
  · have hunits : signedUnits y.toModel.unpack = (magnitude x.toModel.unpack : ℕ) := by
      rw [← hmagnitude]
      exact hunsigned.units_eq
    rw [units, ← hround, hunits]
    refine roundUnits_congr Nat.one_pos hden ?_
    rw [h, Nat.mul_one]

theorem isFinite_of_value {x : Float} {negative : Bool} {num den : ℕ}
    (h : value x = .finite negative num den) : x.isFinite = true := by
  change x.toModel.unpack.isFinite = true
  unfold value at h
  cases hu : x.toModel.unpack <;> rw [hu] at h <;> first | rfl | cases h

/-- The exact value of a finite double. -/
theorem value_of_isFinite {x : Float} (h : x.isFinite = true) :
    ∃ negative num k, value x = .finite negative num (2 ^ k) ∧
      IsNearest (withSign negative x) num (2 ^ k) ∧
      units (withSign negative x) * (2 ^ k : ℕ) = (num * unitsPerOne : ℕ) := by
  suffices ∃ num k, value x = .finite (isNegative (signOf x.toModel.unpack)) num (2 ^ k) ∧
      magnitude x.toModel.unpack * 2 ^ k = num * unitsPerOne by
    obtain ⟨num, k, hvalue, hunits⟩ := this
    refine ⟨_, num, k, hvalue, isNearest_withSign h (Nat.two_pow_pos k) hunits, ?_⟩
    rw [(unsigned_withSign x).units_eq, magnitude_withSign, ← Int.natCast_mul, hunits]
  have hfin : x.toModel.unpack.isFinite = true := h
  have hcanonical := canonical_toModel x
  unfold value
  generalize x.toModel.unpack = u at hfin hcanonical ⊢
  cases u with
  | notANumber => cases hfin
  | infinity s => cases hfin
  | zero s => exact ⟨0, 0, rfl, by simp [magnitude]⟩
  | finite s m e hm =>
      refine ⟨m * 2 ^ e.toNat, (-e).toNat, rfl, ?_⟩
      obtain ⟨k, hk⟩ : ∃ k, k = 1074 := ⟨_, rfl⟩
      have hlow := hcanonical.2.1
      have hexp : (e + 1074).toNat + (-e).toNat = e.toNat + k := by omega
      change m * 2 ^ (e + 1074).toNat * 2 ^ (-e).toNat = _
      rw [unitsPerOne_eq hk, Nat.mul_assoc, ← Nat.pow_add, hexp, Nat.pow_add, Nat.mul_assoc]

end FacetedSearch.Double

namespace FacetedSearch.Decimal

open Double

/-- Decimals that stand for one number have the same nearest double. -/
theorem nearest_congr {d d' : Decimal} (h : d.value = d'.value) : d.nearest = d'.nearest := by
  have hpos (n : ℕ) : 0 < 10 ^ n := Nat.pow_pos (by decide)
  refine d.isNearest_nearest.unique (d'.isNearest_nearest.congr (hpos _) (hpos _) ?_)
  rw [value_eq_div, value_eq_div, div_eq_div_iff (by positivity) (by positivity)] at h
  exact_mod_cast h.symm

/-- The exact value of a double is read as that double. -/
theorem nearest_exact {x : Float} {num k : ℕ} (h : IsNearest x num (2 ^ k)) :
    (exact num (2 ^ k)).nearest = x := by
  have hten : 0 < 10 ^ k := Nat.pow_pos (by decide)
  have hexact := (exact num (2 ^ k)).isNearest_nearest
  have hnum : (-(k : ℤ)).toNat = 0 := by omega
  have hden : (- -(k : ℤ)).toNat = k := by omega
  have heq : exact num (2 ^ k) = ⟨num * 5 ^ k, -k⟩ := by
    unfold exact
    rw [Nat.log2_two_pow]
    rfl
  rw [heq] at hexact ⊢
  simp only [hnum, hden, Nat.pow_zero, Nat.mul_one] at hexact
  refine (hexact.congr hten (Nat.two_pow_pos k) ?_).unique h
  change num * 5 ^ k * 2 ^ k = num * 10 ^ k
  rw [Nat.mul_assoc, ← Nat.mul_pow]

end FacetedSearch.Decimal
