import FacetedSearch.Proofs.Double.Unpacked

/-!
# The order of doubles

Doubles other than NaN are ordered as their numbers of units, the infinite ones lying beyond all
others. NaN is in order with nothing.
-/

namespace FacetedSearch.Double

open Float.Model Float.Model.UnpackedFloat

theorem magnitude_finite_lt {m m' : ℕ} {e e' : ℤ} (hm : m < 2 ^ 53) (he : -1074 ≤ e)
    (h' : e' = -1074 ∨ 2 ^ 52 ≤ m') (hlt : e < e') :
    m * 2 ^ (e + 1074).toNat < m' * 2 ^ (e' + 1074).toNat := by
  have hm' : 2 ^ 52 ≤ m' := h'.resolve_left (by omega)
  calc m * 2 ^ (e + 1074).toNat < 2 ^ 53 * 2 ^ (e + 1074).toNat :=
        Nat.mul_lt_mul_of_pos_right hm (Nat.two_pow_pos _)
    _ = 2 ^ 52 * 2 ^ ((e + 1074).toNat + 1) := by rw [Nat.pow_succ]; ring
    _ ≤ 2 ^ 52 * 2 ^ (e' + 1074).toNat :=
        Nat.mul_le_mul_left _ (Nat.pow_le_pow_right two_pos (by omega))
    _ ≤ m' * 2 ^ (e' + 1074).toNat := Nat.mul_le_mul_right _ hm'

/-- Exponents are compared before significands. -/
theorem compare_magnitude {s s' : Sign} {m m' : ℕ} {e e' : ℤ} {hm : 0 < m} {hm' : 0 < m'}
    (h : Canonical (.finite s m e hm)) (h' : Canonical (.finite s' m' e' hm')) :
    (compare e e').then (compare m m') =
      compare (m * 2 ^ (e + 1074).toNat) (m' * 2 ^ (e' + 1074).toNat) := by
  obtain ⟨hlt, hlow, -, hnormal⟩ := h
  obtain ⟨hlt', hlow', -, hnormal'⟩ := h'
  rcases Int.lt_trichotomy e e' with he | rfl | he
  · rw [Int.compare_eq_lt.mpr he,
      Nat.compare_eq_lt.mpr (magnitude_finite_lt hlt hlow hnormal' he)]
    rfl
  · rw [Int.compare_eq_eq.mpr rfl]
    have hpos := Nat.two_pow_pos (e + 1074).toNat
    rcases Nat.lt_trichotomy m m' with hmm | rfl | hmm
    · rw [Nat.compare_eq_lt.mpr hmm,
        Nat.compare_eq_lt.mpr (Nat.mul_lt_mul_of_pos_right hmm hpos)]
      rfl
    · rw [Nat.compare_eq_eq.mpr rfl, Nat.compare_eq_eq.mpr rfl]
      rfl
    · rw [Nat.compare_eq_gt.mpr hmm,
        Nat.compare_eq_gt.mpr (Nat.mul_lt_mul_of_pos_right hmm hpos)]
      rfl
  · rw [Int.compare_eq_gt.mpr he,
      Nat.compare_eq_gt.mpr (magnitude_finite_lt hlt' hlow' hnormal he)]
    rfl

/-- The number of units of a double with its sign. -/
def signedUnits (u : UnpackedFloat) : ℤ := (signOf u).apply (magnitude u)

theorem magnitude_pos {s : Sign} {m : ℕ} {e : ℤ} (hm : 0 < m) :
    0 < magnitude (.finite s m e hm) :=
  Nat.mul_pos hm (Nat.two_pow_pos _)

theorem infinityUnits_pos : 0 < infinityUnits := by
  obtain ⟨k, hk⟩ : ∃ k, k = 2098 := ⟨_, rfl⟩
  rw [infinityUnits_eq hk]
  exact Nat.two_pow_pos k

theorem magnitude_lt_infinityUnits {u : UnpackedFloat} (h : Canonical u)
    (hfin : u.isFinite = true) : magnitude u < infinityUnits := by
  cases u with
  | notANumber => exact infinityUnits_pos
  | infinity s => simp [UnpackedFloat.isFinite] at hfin
  | zero s => exact infinityUnits_pos
  | finite s m e hm =>
      obtain ⟨hlt, hlow, hhigh, -⟩ := h
      exact mul_two_pow_lt_infinityUnits hlt (by omega)

theorem compare_natCast (a b : ℕ) : compare (a : ℤ) b = compare a b := by
  rcases Nat.lt_trichotomy a b with h | rfl | h
  · rw [Nat.compare_eq_lt.mpr h, Int.compare_eq_lt.mpr (Int.ofNat_lt.mpr h)]
  · rw [Nat.compare_eq_eq.mpr rfl, Int.compare_eq_eq.mpr rfl]
  · rw [Nat.compare_eq_gt.mpr h, Int.compare_eq_gt.mpr (Int.ofNat_lt.mpr h)]

theorem compare_neg_natCast (a b : ℕ) : compare (-(a : ℤ)) (-b) = (compare a b).swap := by
  rcases Nat.lt_trichotomy a b with h | rfl | h
  · rw [Nat.compare_eq_lt.mpr h, Int.compare_eq_gt.mpr (by omega)]
    rfl
  · rw [Nat.compare_eq_eq.mpr rfl, Int.compare_eq_eq.mpr rfl]
    rfl
  · rw [Nat.compare_eq_gt.mpr h, Int.compare_eq_lt.mpr (by omega)]
    rfl

theorem compare_finite {s s' : Sign} {m m' : ℕ} {e e' : ℤ} {hm : 0 < m} {hm' : 0 < m'}
    (h : Canonical (.finite s m e hm)) (h' : Canonical (.finite s' m' e' hm')) :
    (UnpackedFloat.finite s m e hm).compare (.finite s' m' e' hm') =
      some (compare (signedUnits (.finite s m e hm)) (signedUnits (.finite s' m' e' hm'))) := by
  have hpos : 0 < m * 2 ^ (e + 1074).toNat := Nat.mul_pos hm (Nat.two_pow_pos _)
  have hpos' : 0 < m' * 2 ^ (e' + 1074).toNat := Nat.mul_pos hm' (Nat.two_pow_pos _)
  cases s with
  | negative =>
      cases s' with
      | negative =>
          simp only [UnpackedFloat.compare, signedUnits, signOf, magnitude, Sign.apply,
            compare_magnitude h h', compare_neg_natCast]
      | positive =>
          simp only [UnpackedFloat.compare, signedUnits, signOf, magnitude, Sign.apply]
          rw [Int.compare_eq_lt.mpr (by omega)]
  | positive =>
      cases s' with
      | negative =>
          simp only [UnpackedFloat.compare, signedUnits, signOf, magnitude, Sign.apply]
          rw [Int.compare_eq_gt.mpr (by omega)]
      | positive =>
          simp only [UnpackedFloat.compare, signedUnits, signOf, magnitude, Sign.apply,
            compare_magnitude h h', compare_natCast]

theorem neg_infinityUnits_lt_signedUnits {u : UnpackedFloat} (h : Canonical u)
    (hfin : u.isFinite = true) :
    -(infinityUnits : ℤ) < signedUnits u ∧ signedUnits u < infinityUnits := by
  have hlt := magnitude_lt_infinityUnits h hfin
  unfold signedUnits
  cases signOf u <;> simp only [Sign.apply] <;> omega

/-- NaN aside, doubles compare like their units. -/
theorem compare_eq {u v : UnpackedFloat} (hu : Canonical u) (hv : Canonical v)
    (hun : u ≠ .notANumber) (hvn : v ≠ .notANumber) :
    u.compare v = some (compare (signedUnits u) (signedUnits v)) := by
  have hlt {a b : ℤ} (h : a < b) : some Ordering.lt = some (compare a b) := by
    rw [Int.compare_eq_lt.mpr h]
  have hgt {a b : ℤ} (h : b < a) : some Ordering.gt = some (compare a b) := by
    rw [Int.compare_eq_gt.mpr h]
  have heq (a : ℤ) : some Ordering.eq = some (compare a a) := by
    rw [Int.compare_eq_eq.mpr rfl]
  have hinf := infinityUnits_pos
  have hneg : signedUnits (.infinity .negative) = -(infinityUnits : ℤ) := rfl
  have hpos : signedUnits (.infinity .positive) = infinityUnits := rfl
  have hzero (s : Sign) : signedUnits (.zero s) = 0 := by cases s <;> rfl
  cases u with
  | notANumber => exact absurd rfl hun
  | infinity s =>
      cases v with
      | notANumber => exact absurd rfl hvn
      | infinity s' =>
          cases s <;> cases s'
          · exact heq _
          · exact hlt (by omega)
          · exact hgt (by omega)
          · exact heq _
      | zero s' =>
          cases s
          · exact hlt (by rw [hneg, hzero]; omega)
          · exact hgt (by rw [hpos, hzero]; omega)
      | finite s' m' e' hm' =>
          have hv' := neg_infinityUnits_lt_signedUnits hv rfl
          cases s
          · exact hlt (by omega)
          · exact hgt (by omega)
  | zero s =>
      cases v with
      | notANumber => exact absurd rfl hvn
      | infinity s' =>
          cases s'
          · exact hgt (by rw [hneg, hzero]; omega)
          · exact hlt (by rw [hpos, hzero]; omega)
      | zero s' =>
          rw [hzero, hzero]
          exact heq 0
      | finite s' m' e' hm' =>
          have hpos' := magnitude_pos (s := s') (e := e') hm'
          cases s'
          · exact hgt (by rw [hzero]; simp only [signedUnits, signOf, Sign.apply]; omega)
          · exact hlt (by rw [hzero]; simp only [signedUnits, signOf, Sign.apply]; omega)
  | finite s m e hm =>
      have hu' := neg_infinityUnits_lt_signedUnits hu rfl
      cases v with
      | notANumber => exact absurd rfl hvn
      | infinity s' =>
          cases s'
          · cases s <;> exact hgt (by omega)
          · cases s <;> exact hlt (by omega)
      | zero s' =>
          have hpos' := magnitude_pos (s := s) (e := e) hm
          cases s
          · exact hlt (by rw [hzero]; simp only [signedUnits, signOf, Sign.apply]; omega)
          · exact hgt (by rw [hzero]; simp only [signedUnits, signOf, Sign.apply]; omega)
      | finite s' m' e' hm' => exact compare_finite hu hv

theorem compare_eq_none {u v : UnpackedFloat} (h : u = .notANumber ∨ v = .notANumber) :
    u.compare v = none := by
  rcases h with rfl | rfl
  · cases v <;> rfl
  · cases u <;> rfl

/-- The units of a double. Those of NaN say nothing. -/
def units (x : Float) : ℤ := signedUnits x.toModel.unpack

theorem canonical_toModel (x : Float) : Canonical x.toModel.unpack := canonical_unpack _

theorem isNaN_eq_true_iff {x : Float} : x.isNaN = true ↔ x.toModel.unpack = .notANumber := by
  unfold Float.isNaN Float.Model.isNaN
  cases x.toModel.unpack <;> simp [UnpackedFloat.isNaN]

theorem isNaN_eq_false_iff {x : Float} : x.isNaN = false ↔ x.toModel.unpack ≠ .notANumber := by
  rw [← Bool.not_eq_true, isNaN_eq_true_iff]

theorem isNaN_of_isFinite {x : Float} (h : x.isFinite = true) : x.isNaN = false := by
  rw [isNaN_eq_false_iff]
  intro hnan
  have hfin : x.toModel.unpack.isFinite = true := h
  rw [hnan] at hfin
  cases hfin

theorem signedUnits_bounds {u : UnpackedFloat} (h : Canonical u) :
    -(infinityUnits : ℤ) ≤ signedUnits u ∧ signedUnits u ≤ infinityUnits := by
  have hinf := infinityUnits_pos
  cases u with
  | notANumber => exact ⟨by simp [signedUnits, signOf, magnitude, Sign.apply], by
      simp [signedUnits, signOf, magnitude, Sign.apply]⟩
  | infinity s => cases s <;> simp only [signedUnits, signOf, magnitude, Sign.apply] <;> omega
  | zero s => cases s <;> simp only [signedUnits, signOf, magnitude, Sign.apply] <;> omega
  | finite s m e hm =>
      have hlt := neg_infinityUnits_lt_signedUnits h rfl
      omega

theorem units_bounds (x : Float) : -(infinityUnits : ℤ) ≤ units x ∧ units x ≤ infinityUnits :=
  signedUnits_bounds (canonical_toModel x)

theorem units_of_isFinite {x : Float} (h : x.isFinite = true) :
    -(infinityUnits : ℤ) < units x ∧ units x < infinityUnits :=
  neg_infinityUnits_lt_signedUnits (canonical_toModel x) h

theorem unpack_of_not_isFinite {x : Float} (hnum : x.isNaN = false) (h : x.isFinite = false) :
    ∃ s, x.toModel.unpack = .infinity s := by
  rw [isNaN_eq_false_iff] at hnum
  have hfin : x.toModel.unpack.isFinite = false := h
  cases hu : x.toModel.unpack with
  | notANumber => exact absurd hu hnum
  | infinity s => exact ⟨s, rfl⟩
  | zero s => simp [hu, UnpackedFloat.isFinite] at hfin
  | finite s m e hm => simp [hu, UnpackedFloat.isFinite] at hfin

/-- Only infinite doubles reach the limits of the units. -/
theorem units_of_not_isFinite {x : Float} (hnum : x.isNaN = false) (h : x.isFinite = false) :
    units x = infinityUnits ∨ units x = -(infinityUnits : ℤ) := by
  obtain ⟨s, hs⟩ := unpack_of_not_isFinite hnum h
  rw [units, hs]
  cases s with
  | negative => exact .inr rfl
  | positive => exact .inl rfl

theorem le_iff {x y : Float} :
    x ≤ y ↔ x.isNaN = false ∧ y.isNaN = false ∧ units x ≤ units y := by
  have hle : x ≤ y ↔ (x.toModel.unpack.compare y.toModel.unpack).any (·.isLE) = true :=
    decide_eq_true_iff
  rw [hle, isNaN_eq_false_iff, isNaN_eq_false_iff]
  by_cases hx : x.toModel.unpack = .notANumber
  · rw [compare_eq_none (.inl hx)]
    simp [hx]
  by_cases hy : y.toModel.unpack = .notANumber
  · rw [compare_eq_none (.inr hy)]
    simp [hy]
  rw [compare_eq (canonical_toModel x) (canonical_toModel y) hx hy]
  simp [hx, hy, units, Int.isLE_compare]

theorem lt_iff {x y : Float} :
    x < y ↔ x.isNaN = false ∧ y.isNaN = false ∧ units x < units y := by
  have hlt : x < y ↔ (x.toModel.unpack.compare y.toModel.unpack == some .lt) = true :=
    decide_eq_true_iff
  rw [hlt, isNaN_eq_false_iff, isNaN_eq_false_iff]
  by_cases hx : x.toModel.unpack = .notANumber
  · rw [compare_eq_none (.inl hx)]
    simp [hx]
  by_cases hy : y.toModel.unpack = .notANumber
  · rw [compare_eq_none (.inr hy)]
    simp [hy]
  rw [compare_eq (canonical_toModel x) (canonical_toModel y) hx hy]
  simp [hx, hy, units, Int.compare_eq_lt]

/-- Equal numbers have equal units. Only zeros of both signs are equal and not the same. -/
theorem beq_iff {x y : Float} :
    (x == y) = true ↔ x.isNaN = false ∧ y.isNaN = false ∧ units x = units y := by
  have hbeq : (x == y) = (x.toModel.unpack.compare y.toModel.unpack == some .eq) := rfl
  rw [hbeq, isNaN_eq_false_iff, isNaN_eq_false_iff]
  by_cases hx : x.toModel.unpack = .notANumber
  · rw [compare_eq_none (.inl hx)]
    simp [hx]
  by_cases hy : y.toModel.unpack = .notANumber
  · rw [compare_eq_none (.inr hy)]
    simp [hy]
  rw [compare_eq (canonical_toModel x) (canonical_toModel y) hx hy]
  simp [hx, hy, units]

protected theorem le_refl {x : Float} (h : x.isNaN = false) : x ≤ x :=
  le_iff.mpr ⟨h, h, Int.le_refl _⟩

protected theorem le_trans {x y z : Float} (hxy : x ≤ y) (hyz : y ≤ z) : x ≤ z := by
  rw [le_iff] at hxy hyz ⊢
  exact ⟨hxy.1, hyz.2.1, Int.le_trans hxy.2.2 hyz.2.2⟩

protected theorem le_of_beq {x y : Float} (h : (x == y) = true) : x ≤ y := by
  rw [beq_iff] at h
  exact le_iff.mpr ⟨h.1, h.2.1, h.2.2.le⟩

protected theorem ge_of_beq {x y : Float} (h : (x == y) = true) : y ≤ x := by
  rw [beq_iff] at h
  exact le_iff.mpr ⟨h.2.1, h.1, h.2.2.ge⟩

protected theorem le_of_lt {x y : Float} (h : x < y) : x ≤ y := by
  rw [lt_iff] at h
  exact le_iff.mpr ⟨h.1, h.2.1, h.2.2.le⟩

protected theorem lt_of_lt_of_le {x y z : Float} (hxy : x < y) (hyz : y ≤ z) : x < z := by
  rw [lt_iff] at hxy ⊢
  rw [le_iff] at hyz
  exact ⟨hxy.1, hyz.2.1, Int.lt_of_lt_of_le hxy.2.2 hyz.2.2⟩

protected theorem lt_of_le_of_lt {x y z : Float} (hxy : x ≤ y) (hyz : y < z) : x < z := by
  rw [le_iff] at hxy
  rw [lt_iff] at hyz ⊢
  exact ⟨hxy.1, hyz.2.1, Int.lt_of_le_of_lt hxy.2.2 hyz.2.2⟩

/-- A number is compared one way or the other. -/
protected theorem lt_or_le {x y : Float} (hx : x.isNaN = false) (hy : y.isNaN = false) :
    x < y ∨ y ≤ x := by
  rw [lt_iff, le_iff]
  rcases lt_or_ge (units x) (units y) with h | h
  · exact .inl ⟨hx, hy, h⟩
  · exact .inr ⟨hy, hx, h⟩

protected theorem not_lt {x y : Float} (hx : x.isNaN = false) (hy : y.isNaN = false) :
    ¬ x < y ↔ y ≤ x := by
  rw [lt_iff, le_iff, and_iff_right hx, and_iff_right hy, and_iff_right hy, and_iff_right hx,
    not_lt]

protected theorem not_le {x y : Float} (hx : x.isNaN = false) (hy : y.isNaN = false) :
    ¬ x ≤ y ↔ y < x := by
  rw [lt_iff, le_iff, and_iff_right hx, and_iff_right hy, and_iff_right hy, and_iff_right hx,
    not_le]

protected theorem not_lt_of_le {x y : Float} (h : x ≤ y) : ¬ y < x := by
  rw [le_iff] at h
  rw [lt_iff]
  omega

end FacetedSearch.Double
