import FacetedSearch.Proofs.Double.Order

/-!
# Sums and products of doubles

A sum or a product of finite doubles is the exact one in units, rounded once. So both keep the
order of doubles, as long as the results are numbers.
-/

namespace FacetedSearch.Double

open Float.Model Float.Model.UnpackedFloat

/-- The number of units in one. -/
@[irreducible] def unitsPerOne : ℕ := 2 ^ 1074

theorem unitsPerOne_eq {k : ℕ} (hk : k = 1074) : unitsPerOne = 2 ^ k := by
  unfold unitsPerOne
  rw [hk]

theorem unitsPerOne_pos : 0 < unitsPerOne := by
  obtain ⟨k, hk⟩ : ∃ k, k = 1074 := ⟨_, rfl⟩
  rw [unitsPerOne_eq hk]
  exact Nat.two_pow_pos k

/-- The units of the double nearest to a signed ratio of units. -/
def roundUnits (z : ℤ) (den : ℕ) : ℤ :=
  if z < 0 then -(min (nearest z.natAbs den) infinityUnits : ℕ)
  else (min (nearest z.natAbs den) infinityUnits : ℕ)

theorem roundUnits_le_roundUnits {a b : ℤ} {den : ℕ} (hden : 0 < den) (h : a ≤ b) :
    roundUnits a den ≤ roundUnits b den := by
  have hmono {m n : ℕ} (hmn : m ≤ n) :
      min (nearest m den) infinityUnits ≤ min (nearest n den) infinityUnits :=
    min_le_min_right _ (nearest_le_nearest hden hden (Nat.mul_le_mul_right den hmn))
  unfold roundUnits
  split_ifs with ha hb
  · have hmin := hmono (m := b.natAbs) (n := a.natAbs) (by omega)
    omega
  · omega
  · omega
  · have hmin := hmono (m := a.natAbs) (n := b.natAbs) (by omega)
    omega

@[simp] theorem roundUnits_zero (den : ℕ) : roundUnits 0 den = 0 := by
  unfold roundUnits
  rw [if_neg (lt_irrefl 0), Int.natAbs_zero, nearest_zero_left, Nat.zero_min]
  rfl

theorem unpack_pack_zero (s : Sign) : unpack .binary64 (pack .binary64 (.zero s)) = .zero s :=
  unpack_pack_of_canonical (u := .zero s) trivial

theorem signedUnits_zero (s : Sign) : signedUnits (.zero s) = 0 := by
  cases s <;> rfl

theorem apply_min_nearest (s : Sign) (n den : ℕ) :
    s.apply (min (nearest n den) infinityUnits : ℕ) = roundUnits (s.apply n) den := by
  cases s with
  | negative =>
      change -((min (nearest n den) infinityUnits : ℕ) : ℤ) = roundUnits (-(n : ℤ)) den
      unfold roundUnits
      rw [Int.natAbs_neg, Int.natAbs_natCast]
      split_ifs with h
      · rfl
      · have hn : n = 0 := by omega
        rw [hn, nearest_zero_left, Nat.zero_min]
        rfl
  | positive =>
      change ((min (nearest n den) infinityUnits : ℕ) : ℤ) = roundUnits (n : ℤ) den
      unfold roundUnits
      rw [if_neg (by omega), Int.natAbs_natCast]

theorem Represents.signedUnits_unpack_pack {u : UnpackedFloat} {s : Sign} {n den : ℕ}
    (h : Represents u s (nearest n den)) :
    unpack .binary64 (pack .binary64 u) ≠ .notANumber ∧
      signedUnits (unpack .binary64 (pack .binary64 u)) = roundUnits (s.apply n) den := by
  obtain ⟨hnum, hsign, hmagnitude⟩ := h.unpack_pack
  refine ⟨hnum, ?_⟩
  rw [signedUnits, hsign, hmagnitude, apply_min_nearest]

/-- Doubles are not changed by rounding. -/
theorem roundUnits_signedUnits {u : UnpackedFloat} (h : Canonical u) (hfin : u.isFinite = true) :
    roundUnits (signedUnits u) 1 = signedUnits u := by
  have hnearest : nearest (magnitude u) 1 = magnitude u := by
    cases u with
    | notANumber => exact nearest_zero_left 1
    | infinity s => simp [UnpackedFloat.isFinite] at hfin
    | zero s => exact nearest_zero_left 1
    | finite s m e hm => exact nearest_of_lt h.1 _
  rw [signedUnits, ← apply_min_nearest, hnearest,
    Nat.min_eq_left (magnitude_lt_infinityUnits h hfin).le]

theorem represents_roundWithAccuracy_exact {m : ℕ} {e : ℤ} (h : e ≤ -1074 ∨ 2 ^ 52 ≤ m)
    (s : Sign) : Represents (roundWithAccuracy .binary64 s m e .exact) s
      (nearest (scaledNum m e) (scaledDen 1 e)) := by
  have hround : Represents (roundWithAccuracy .binary64 s (m / 1) e (accuracyOfFraction (m % 1) 1))
      s (nearest (scaledNum m e) (scaledDen 1 e)) :=
    represents_roundWithAccuracy Nat.one_pos (by rwa [Nat.div_one]) s
  rwa [Nat.div_one, Nat.mod_one, accuracyOfFraction, if_pos rfl] at hround

theorem represents_round {m : ℕ} (hm : 0 < m) {e : ℤ} (he : -1074 ≤ e) (s : Sign) :
    Represents (round .binary64 s m e) s (nearest (m * 2 ^ (e + 1074).toNat) 1) := by
  have htarget : Format.binary64.targetExponent (totalExponent m e) = target m 1 e := by
    rw [← targetExponent_eq, Nat.div_one]
  have hlog : target m 1 e = max (m.log2 + e - 52) (-1074) := by rw [target, Nat.div_one]
  unfold UnpackedFloat.round decreaseExponent
  rw [htarget]
  dsimp only
  rw [Nat.shiftLeft_eq]
  generalize hk : (e - target m 1 e).toNat = k
  have henough : e - k ≤ -1074 ∨ 2 ^ 52 ≤ m * 2 ^ k := by
    by_cases hlow : e - k ≤ -1074
    · exact .inl hlow
    · right
      calc 2 ^ 52 ≤ 2 ^ (m.log2 + k) := Nat.pow_le_pow_right two_pos (by omega)
        _ = 2 ^ m.log2 * 2 ^ k := Nat.pow_add _ _ _
        _ ≤ m * 2 ^ k := Nat.mul_le_mul_right _ (Nat.log2_self_le hm.ne')
  have hround := represents_roundWithAccuracy_exact henough s
  have hnearest : nearest (scaledNum (m * 2 ^ k) (e - k)) (scaledDen 1 (e - k)) =
      nearest (m * 2 ^ (e + 1074).toNat) 1 := by
    refine nearest_congr (scaledDen_pos Nat.one_pos _) Nat.one_pos ?_
    have hden : (-(e - k + 1074)).toNat = 0 := by omega
    have hexp : (e + 1074).toNat = k + (e - k + 1074).toNat := by omega
    unfold scaledNum scaledDen
    rw [hden, hexp, Nat.pow_add]
    ring
  rwa [hnearest] at hround

theorem signedUnits_normalize (z : ℤ) {e : ℤ} (he : -1074 ≤ e) :
    let u := UnpackedFloat.normalize .binary64 z e .positive
    unpack .binary64 (pack .binary64 u) ≠ .notANumber ∧
      signedUnits (unpack .binary64 (pack .binary64 u)) =
        roundUnits (z * 2 ^ (e + 1074).toNat) 1 := by
  dsimp only
  unfold UnpackedFloat.normalize
  rcases Int.lt_trichotomy z 0 with hz | rfl | hz
  · rw [Int.compare_eq_lt.mpr hz]
    have hunits := (represents_round (m := (-z).toNat) (by omega) he
      .negative).signedUnits_unpack_pack
    have happly : Sign.negative.apply (((-z).toNat * 2 ^ (e + 1074).toNat : ℕ) : ℤ) =
        z * 2 ^ (e + 1074).toNat := by
      change -(((-z).toNat * 2 ^ (e + 1074).toNat : ℕ) : ℤ) = _
      have hcast : ((-z).toNat : ℤ) = -z := by omega
      push_cast
      rw [hcast]
      ring
    rwa [happly] at hunits
  · rw [Int.compare_eq_eq.mpr rfl]
    dsimp only
    rw [unpack_pack_zero, Int.zero_mul, roundUnits_zero]
    exact ⟨by simp, rfl⟩
  · rw [Int.compare_eq_gt.mpr hz]
    have hunits := (represents_round (m := z.toNat) (by omega) he
      .positive).signedUnits_unpack_pack
    have happly : Sign.positive.apply ((z.toNat * 2 ^ (e + 1074).toNat : ℕ) : ℤ) =
        z * 2 ^ (e + 1074).toNat := by
      change ((z.toNat * 2 ^ (e + 1074).toNat : ℕ) : ℤ) = _
      have hcast : (z.toNat : ℤ) = z := by omega
      push_cast
      rw [hcast]
    rwa [happly] at hunits

theorem apply_mul (s : Sign) (a b : ℤ) : s.apply a * b = s.apply (a * b) := by
  cases s with
  | negative => exact Int.neg_mul a b
  | positive => rfl

/-- Lowering an exponent leaves the units as they are. -/
theorem signedUnits_finite_eq {s : Sign} {m : ℕ} {e e' : ℤ} (hm : 0 < m) (he' : -1074 ≤ e')
    (hle : e' ≤ e) :
    signedUnits (.finite s m e hm) =
      s.apply ((m <<< (e - e').toNat : ℕ) : ℤ) * 2 ^ (e' + 1074).toNat := by
  have hexp : (e + 1074).toNat = (e - e').toNat + (e' + 1074).toNat := by omega
  rw [apply_mul, signedUnits, signOf, magnitude, hexp, Nat.shiftLeft_eq, Nat.pow_add,
    ← Nat.mul_assoc]
  push_cast
  rfl

theorem signedUnits_add {u v : UnpackedFloat} (hu : Canonical u) (hv : Canonical v)
    (huf : u.isFinite = true) (hvf : v.isFinite = true) :
    unpack .binary64 (pack .binary64 (u.add .binary64 v)) ≠ .notANumber ∧
      signedUnits (unpack .binary64 (pack .binary64 (u.add .binary64 v))) =
        roundUnits (signedUnits u + signedUnits v) 1 := by
  have hunum : u ≠ .notANumber := fun h => by simp [h, UnpackedFloat.isFinite] at huf
  have hvnum : v ≠ .notANumber := fun h => by simp [h, UnpackedFloat.isFinite] at hvf
  cases u with
  | notANumber => exact absurd rfl hunum
  | infinity s => simp [UnpackedFloat.isFinite] at huf
  | zero s =>
      cases v with
      | notANumber => exact absurd rfl hvnum
      | infinity s' => simp [UnpackedFloat.isFinite] at hvf
      | zero s' =>
          have hzero : ∃ r, (UnpackedFloat.zero s).add .binary64 (.zero s') = .zero r := by
            cases s <;> cases s' <;> exact ⟨_, rfl⟩
          obtain ⟨r, hr⟩ := hzero
          rw [hr, unpack_pack_zero, signedUnits_zero, signedUnits_zero, signedUnits_zero,
            Int.add_zero, roundUnits_zero]
          exact ⟨by simp, rfl⟩
      | finite s' m' e' hm' =>
          have hsum : (UnpackedFloat.zero s).add .binary64 (.finite s' m' e' hm') =
              .finite s' m' e' hm' := rfl
          rw [hsum, unpack_pack_of_canonical hv, signedUnits_zero, Int.zero_add,
            roundUnits_signedUnits hv hvf]
          exact ⟨hvnum, rfl⟩
  | finite s m e hm =>
      cases v with
      | notANumber => exact absurd rfl hvnum
      | infinity s' => simp [UnpackedFloat.isFinite] at hvf
      | zero s' =>
          have hsum : (UnpackedFloat.finite s m e hm).add .binary64 (.zero s') =
              .finite s m e hm := rfl
          rw [hsum, unpack_pack_of_canonical hu, signedUnits_zero, Int.add_zero,
            roundUnits_signedUnits hu huf]
          exact ⟨hunum, rfl⟩
      | finite s' m' e' hm' =>
          have hlow : -1074 ≤ min e e' := le_min hu.2.1 hv.2.1
          rw [signedUnits_finite_eq hm hlow (min_le_left e e'),
            signedUnits_finite_eq hm' hlow (min_le_right e e'), ← Int.add_mul]
          exact signedUnits_normalize _ hlow

theorem apply_sign_mul (s s' : Sign) (a b : ℤ) :
    (s * s').apply (a * b) = s.apply a * s'.apply b := by
  cases s with
  | negative =>
      cases s' with
      | negative => exact (Int.neg_mul_neg a b).symm
      | positive => exact (Int.neg_mul a b).symm
  | positive =>
      cases s' with
      | negative => exact (Int.mul_neg a b).symm
      | positive => rfl

/-- Where a product has fewer than 53 bits, both factors are subnormal. -/
theorem signedUnits_mul {u v : UnpackedFloat} (hu : Canonical u) (hv : Canonical v)
    (huf : u.isFinite = true) (hvf : v.isFinite = true) :
    unpack .binary64 (pack .binary64 (u.mul .binary64 v)) ≠ .notANumber ∧
      signedUnits (unpack .binary64 (pack .binary64 (u.mul .binary64 v))) =
        roundUnits (signedUnits u * signedUnits v) unitsPerOne := by
  cases u with
  | notANumber => simp [UnpackedFloat.isFinite] at huf
  | infinity s => simp [UnpackedFloat.isFinite] at huf
  | zero s =>
      have hzero : (UnpackedFloat.zero s).mul .binary64 v = .zero (s * signOf v) := by
        cases v <;> first | rfl | simp [UnpackedFloat.isFinite] at hvf
      rw [hzero, unpack_pack_zero, signedUnits_zero, signedUnits_zero, Int.zero_mul,
        roundUnits_zero]
      exact ⟨by simp, rfl⟩
  | finite s m e hm =>
      cases v with
      | notANumber => simp [UnpackedFloat.isFinite] at hvf
      | infinity s' => simp [UnpackedFloat.isFinite] at hvf
      | zero s' =>
          have hzero : (UnpackedFloat.finite s m e hm).mul .binary64 (.zero s') =
              .zero (s * s') := rfl
          rw [hzero, unpack_pack_zero, signedUnits_zero, signedUnits_zero, Int.mul_zero,
            roundUnits_zero]
          exact ⟨by simp, rfl⟩
      | finite s' m' e' hm' =>
          obtain ⟨-, hlow, -, hnormal⟩ := hu
          obtain ⟨-, hlow', -, hnormal'⟩ := hv
          have henough : e + e' ≤ -1074 ∨ 2 ^ 52 ≤ m * m' := by
            rcases hnormal with he | hm52
            · rcases hnormal' with he' | hm52'
              · exact .inl (by omega)
              · exact .inr (hm52'.trans (Nat.le_mul_of_pos_left m' hm))
            · exact .inr (hm52.trans (Nat.le_mul_of_pos_right m hm'))
          have hround := represents_roundWithAccuracy_exact henough (s * s')
          have hnearest : nearest (scaledNum (m * m') (e + e')) (scaledDen 1 (e + e')) =
              nearest (m * 2 ^ (e + 1074).toNat * (m' * 2 ^ (e' + 1074).toNat)) unitsPerOne := by
            obtain ⟨k, hk⟩ : ∃ k, k = 1074 := ⟨_, rfl⟩
            refine nearest_congr (scaledDen_pos Nat.one_pos _) unitsPerOne_pos ?_
            have hexp : (e + e' + 1074).toNat + k =
                (e + 1074).toNat + (e' + 1074).toNat + (-(e + e' + 1074)).toNat := by omega
            rw [unitsPerOne_eq hk, scaledNum, scaledDen]
            calc m * m' * 2 ^ (e + e' + 1074).toNat * 2 ^ k
                = m * m' * 2 ^ ((e + e' + 1074).toNat + k) := by rw [Nat.pow_add]; ring
              _ = m * m' * 2 ^ ((e + 1074).toNat + (e' + 1074).toNat +
                    (-(e + e' + 1074)).toNat) := by rw [hexp]
              _ = m * 2 ^ (e + 1074).toNat * (m' * 2 ^ (e' + 1074).toNat) *
                    (1 * 2 ^ (-(e + e' + 1074)).toNat) := by
                rw [Nat.pow_add, Nat.pow_add]; ring
          rw [hnearest] at hround
          have hsign : (s * s').apply
              ((m * 2 ^ (e + 1074).toNat * (m' * 2 ^ (e' + 1074).toNat) : ℕ) : ℤ) =
              signedUnits (.finite s m e hm) * signedUnits (.finite s' m' e' hm') := by
            rw [Nat.cast_mul, apply_sign_mul]
            rfl
          rw [← hsign]
          exact hround.signedUnits_unpack_pack

theorem unpack_add (x y : Float) : (x + y).toModel.unpack =
    unpack .binary64 (pack .binary64 (x.toModel.unpack.add .binary64 y.toModel.unpack)) := rfl

theorem unpack_sub (x y : Float) : (x - y).toModel.unpack =
    unpack .binary64 (pack .binary64 (x.toModel.unpack.sub .binary64 y.toModel.unpack)) := rfl

theorem unpack_div (x y : Float) : (x / y).toModel.unpack =
    unpack .binary64 (pack .binary64 (x.toModel.unpack.div .binary64 y.toModel.unpack)) := rfl

theorem unpack_mul (x y : Float) : (x * y).toModel.unpack =
    unpack .binary64 (pack .binary64 (x.toModel.unpack.mul .binary64 y.toModel.unpack)) := rfl

theorem unpack_pack_notANumber :
    unpack .binary64 (pack .binary64 .notANumber) = .notANumber := rfl

theorem unpack_pack_infinity (s : Sign) :
    unpack .binary64 (pack .binary64 (.infinity s)) = .infinity s :=
  unpack_pack_of_canonical (u := .infinity s) trivial

theorem isNaN_add {x y : Float} (hx : x.isFinite = true) (hy : y.isFinite = true) :
    (x + y).isNaN = false := by
  rw [isNaN_eq_false_iff, unpack_add]
  exact (signedUnits_add (canonical_toModel x) (canonical_toModel y) hx hy).1

theorem units_add {x y : Float} (hx : x.isFinite = true) (hy : y.isFinite = true) :
    units (x + y) = roundUnits (units x + units y) 1 :=
  (signedUnits_add (canonical_toModel x) (canonical_toModel y) hx hy).2

theorem isNaN_mul {x y : Float} (hx : x.isFinite = true) (hy : y.isFinite = true) :
    (x * y).isNaN = false := by
  rw [isNaN_eq_false_iff, unpack_mul]
  exact (signedUnits_mul (canonical_toModel x) (canonical_toModel y) hx hy).1

theorem units_mul {x y : Float} (hx : x.isFinite = true) (hy : y.isFinite = true) :
    units (x * y) = roundUnits (units x * units y) unitsPerOne :=
  (signedUnits_mul (canonical_toModel x) (canonical_toModel y) hx hy).2

/-- What is no number makes every result no number. -/
theorem ne_notANumber_of_unpack_pack {f : UnpackedFloat → UnpackedFloat → UnpackedFloat}
    (hleft : ∀ v, f .notANumber v = .notANumber) (hright : ∀ u, f u .notANumber = .notANumber)
    {x y : Float} (h : unpack .binary64 (pack .binary64 (f x.toModel.unpack y.toModel.unpack)) ≠
      .notANumber) : x.isNaN = false ∧ y.isNaN = false := by
  rw [isNaN_eq_false_iff, isNaN_eq_false_iff]
  constructor
  · intro hx
    exact h (by rw [hx, hleft, unpack_pack_notANumber])
  · intro hy
    exact h (by rw [hy, hright, unpack_pack_notANumber])

theorem isNaN_of_isNaN_add {x y : Float} (h : (x + y).isNaN = false) :
    x.isNaN = false ∧ y.isNaN = false := by
  rw [isNaN_eq_false_iff, unpack_add] at h
  exact ne_notANumber_of_unpack_pack (f := UnpackedFloat.add .binary64)
    (fun v => by cases v <;> rfl) (fun u => by cases u <;> rfl) h

theorem isNaN_of_isNaN_sub {x y : Float} (h : (x - y).isNaN = false) :
    x.isNaN = false ∧ y.isNaN = false := by
  rw [isNaN_eq_false_iff, unpack_sub] at h
  exact ne_notANumber_of_unpack_pack (f := UnpackedFloat.sub .binary64)
    (fun v => by cases v <;> rfl) (fun u => by cases u <;> rfl) h

theorem isNaN_of_isNaN_mul {x y : Float} (h : (x * y).isNaN = false) :
    x.isNaN = false ∧ y.isNaN = false := by
  rw [isNaN_eq_false_iff, unpack_mul] at h
  exact ne_notANumber_of_unpack_pack (f := UnpackedFloat.mul .binary64)
    (fun v => by cases v <;> rfl) (fun u => by cases u <;> rfl) h

theorem isNaN_of_isNaN_div {x y : Float} (h : (x / y).isNaN = false) :
    x.isNaN = false ∧ y.isNaN = false := by
  rw [isNaN_eq_false_iff, unpack_div] at h
  exact ne_notANumber_of_unpack_pack (f := UnpackedFloat.div .binary64)
    (fun v => by cases v <;> rfl) (fun u => by cases u <;> rfl) h

/-- An infinite summand decides the sum. -/
theorem unpack_add_of_infinite_left {x y : Float} {s : Sign}
    (hs : x.toModel.unpack = .infinity s) (h : (x + y).isNaN = false) :
    (x + y).toModel.unpack = .infinity s := by
  have hynum := isNaN_eq_false_iff.mp (isNaN_of_isNaN_add h).2
  rw [isNaN_eq_false_iff, unpack_add, hs] at h
  have hadd : (UnpackedFloat.infinity s).add .binary64 y.toModel.unpack = .infinity s := by
    cases hv : y.toModel.unpack with
    | notANumber => exact absurd hv hynum
    | infinity s' =>
        rw [hv] at h
        cases s <;> cases s' <;> first | rfl | exact absurd rfl h
    | zero s' => rfl
    | finite s' m e hm => rfl
  rw [unpack_add, hs, hadd, unpack_pack_infinity]

theorem unpack_add_of_infinite_right {x y : Float} {s : Sign} (hx : x.isFinite = true)
    (hs : y.toModel.unpack = .infinity s) : (x + y).toModel.unpack = .infinity s := by
  have hfin : x.toModel.unpack.isFinite = true := hx
  have hadd : x.toModel.unpack.add .binary64 (.infinity s) = .infinity s := by
    cases hu : x.toModel.unpack with
    | notANumber => simp [hu, UnpackedFloat.isFinite] at hfin
    | infinity s' => simp [hu, UnpackedFloat.isFinite] at hfin
    | zero s' => rfl
    | finite s' m e hm => rfl
  rw [unpack_add, hs, hadd, unpack_pack_infinity]

theorem unpack_add_of_isFinite_right {x y : Float} {s : Sign}
    (hs : x.toModel.unpack = .infinity s) (hy : y.isFinite = true) :
    (x + y).toModel.unpack = .infinity s := by
  have hfin : y.toModel.unpack.isFinite = true := hy
  have hadd : (UnpackedFloat.infinity s).add .binary64 y.toModel.unpack = .infinity s := by
    cases hv : y.toModel.unpack with
    | notANumber => simp [hv, UnpackedFloat.isFinite] at hfin
    | infinity s' => simp [hv, UnpackedFloat.isFinite] at hfin
    | zero s' => rfl
    | finite s' m e hm => rfl
  rw [unpack_add, hs, hadd, unpack_pack_infinity]

theorem unpack_div_of_infinite {x y : Float} {s : Sign} (hx : x.isFinite = true)
    (hs : y.toModel.unpack = .infinity s) : ∃ r, (x / y).toModel.unpack = .zero r := by
  have hfin : x.toModel.unpack.isFinite = true := hx
  have hdiv : ∃ r, x.toModel.unpack.div .binary64 (.infinity s) = .zero r := by
    cases hu : x.toModel.unpack with
    | notANumber => simp [hu, UnpackedFloat.isFinite] at hfin
    | infinity s' => simp [hu, UnpackedFloat.isFinite] at hfin
    | zero s' => exact ⟨_, rfl⟩
    | finite s' m e hm => exact ⟨_, rfl⟩
  obtain ⟨r, hr⟩ := hdiv
  exact ⟨r, by rw [unpack_div, hs, hr, unpack_pack_zero]⟩

theorem unpack_mul_of_infinite {x y : Float} {r s : Sign} (hr : x.toModel.unpack = .zero r)
    (hs : y.toModel.unpack = .infinity s) : (x * y).toModel.unpack = .notANumber := by
  have hmul : (UnpackedFloat.zero r).mul .binary64 (.infinity s) = .notANumber := rfl
  rw [unpack_mul, hr, hs, hmul, unpack_pack_notANumber]

theorem units_add_of_infinite_left {x y : Float} (hx : x.isFinite = false)
    (h : (x + y).isNaN = false) : units (x + y) = units x := by
  obtain ⟨s, hs⟩ := unpack_of_not_isFinite (isNaN_of_isNaN_add h).1 hx
  rw [units, unpack_add_of_infinite_left hs h, units, hs]

theorem units_add_of_infinite_right {x y : Float} (hx : x.isFinite = true)
    (hy : y.isFinite = false) (hynum : y.isNaN = false) : units (x + y) = units y := by
  obtain ⟨s, hs⟩ := unpack_of_not_isFinite hynum hy
  rw [units, unpack_add_of_infinite_right hx hs, units, hs]

/-- Only opposite infinities have no sum. -/
theorem isNaN_add_of_low {x y : Float} (hx : x.isNaN = false) (hy : y.isNaN = false)
    (hxlow : units x ≠ -(infinityUnits : ℤ)) (hylow : units y ≠ -(infinityUnits : ℤ)) :
    (x + y).isNaN = false := by
  have hpos {z : Float} (hz : z.isNaN = false) (hlow : units z ≠ -(infinityUnits : ℤ))
      (hfin : z.isFinite = false) : z.toModel.unpack = .infinity .positive := by
    obtain ⟨s, hs⟩ := unpack_of_not_isFinite hz hfin
    cases s with
    | negative => exact absurd (by rw [units, hs]; rfl) hlow
    | positive => exact hs
  rw [isNaN_eq_false_iff]
  cases hxfin : x.isFinite with
  | true =>
      cases hyfin : y.isFinite with
      | true => exact isNaN_eq_false_iff.mp (isNaN_add hxfin hyfin)
      | false =>
          rw [unpack_add_of_infinite_right hxfin (hpos hy hylow hyfin)]
          simp
  | false =>
      have hxinf := hpos hx hxlow hxfin
      cases hyfin : y.isFinite with
      | true =>
          rw [unpack_add_of_isFinite_right hxinf hyfin]
          simp
      | false =>
          have hadd : (UnpackedFloat.infinity .positive).add .binary64 (.infinity .positive) =
              .infinity .positive := rfl
          rw [unpack_add, hxinf, hpos hy hylow hyfin, hadd, unpack_pack_infinity]
          simp

theorem add_le_add_left {x y z : Float} (h : y ≤ z) (hy : (x + y).isNaN = false)
    (hz : (x + z).isNaN = false) : x + y ≤ x + z := by
  obtain ⟨hynum, hznum, hle⟩ := le_iff.mp h
  refine le_iff.mpr ⟨hy, hz, ?_⟩
  cases hx : x.isFinite with
  | false => rw [units_add_of_infinite_left hx hy, units_add_of_infinite_left hx hz]
  | true =>
      have hylow := units_bounds (x + y)
      have hzlow := units_bounds (x + z)
      cases hyfin : y.isFinite with
      | false =>
          have hyinf := units_of_not_isFinite hynum hyfin
          rw [units_add_of_infinite_right hx hyfin hynum]
          cases hzfin : z.isFinite with
          | false => rwa [units_add_of_infinite_right hx hzfin hznum]
          | true =>
              have hzlt := units_of_isFinite hzfin
              omega
      | true =>
          cases hzfin : z.isFinite with
          | false =>
              have hylt := units_of_isFinite hyfin
              have hzinf := units_of_not_isFinite hznum hzfin
              rw [units_add_of_infinite_right hx hzfin hznum]
              omega
          | true =>
              rw [units_add hx hyfin, units_add hx hzfin]
              exact roundUnits_le_roundUnits Nat.one_pos (Int.add_le_add_left hle _)

theorem mul_le_mul_right {x y z : Float} (h : x ≤ y) (hx : x.isFinite = true)
    (hy : y.isFinite = true) (hz : z.isFinite = true) (hzero : 0 ≤ units z) :
    x * z ≤ y * z := by
  refine le_iff.mpr ⟨isNaN_mul hx hz, isNaN_mul hy hz, ?_⟩
  rw [units_mul hx hz, units_mul hy hz]
  exact roundUnits_le_roundUnits unitsPerOne_pos
    (Int.mul_le_mul_of_nonneg_right (le_iff.mp h).2.2 hzero)

/-- Whatever is added to negative infinity, it stays or the sum is NaN. -/
theorem units_add_of_low {x y : Float} (hx : units x = -(infinityUnits : ℤ))
    (h : (x + y).isNaN = false) : units (x + y) = -(infinityUnits : ℤ) := by
  have hfin : x.isFinite = false := by
    cases hx' : x.isFinite with
    | true =>
        have hbounds := units_of_isFinite hx'
        omega
    | false => rfl
  rw [units_add_of_infinite_left hfin h, hx]

theorem not_lt_of_low {x z : Float} (hx : units x = -(infinityUnits : ℤ)) : ¬ z < x := by
  have hbounds := units_bounds z
  rw [lt_iff]
  omega

theorem not_lt_add_of_low {x y z : Float} (hx : units x = -(infinityUnits : ℤ)) :
    ¬ z < x + y := by
  intro h
  exact not_lt_of_low (units_add_of_low hx (lt_iff.mp h).2.1) h

theorem not_lt_add_add_of_low {x y y' z : Float} (hx : units x = -(infinityUnits : ℤ)) :
    ¬ z < x + y + y' := by
  intro h
  have hnum := (isNaN_of_isNaN_add (lt_iff.mp h).2.1).1
  exact not_lt_add_of_low (units_add_of_low hx hnum) h

end FacetedSearch.Double
