import FacetedSearch.Decimal.Layout
import FacetedSearch.Proofs.Decimal.ReadBack
import FacetedSearch.Proofs.Double.Whole

/-!
# Fixed places

A double printed with a fixed number of places is the nearest multiple of the unit of the last
place, half a unit away at most, and doubles in order are printed in order. What is printed is
read as the double nearest to that multiple; final zeros of the fraction make no difference.
-/

namespace FacetedSearch.Decimal

open Double

/-! ## The printed number -/

/-- How many units of the last place are printed for a finite double, with its sign. -/
def printedUnits (places : ℕ) (x : Float) : ℤ :=
  match Double.value x with
  | .finite negative num den =>
    let units := roundHalfEven (num * Nat.pow 10 places) den
    if negative then -units else units
  | _ => 0

/-- The double that a printed double is read as. -/
def rounded (places : ℕ) (x : Float) : Float :=
  match Double.value x with
  | .finite negative num den =>
    withSign negative
      (Decimal.mk (roundHalfEven (num * Nat.pow 10 places) den) (-places)).nearest
  | _ => x

theorem isNaN_rounded {x : Float} (h : x.isNaN = false) (places : ℕ) :
    (rounded places x).isNaN = false := by
  unfold rounded
  split
  next negative num den hvalue =>
    have hnum := (Decimal.mk (roundHalfEven (num * Nat.pow 10 places) den)
      (-places)).isNearest_nearest.isNaN
    cases negative with
    | false => exact hnum
    | true => exact (isNaN_neg _).trans hnum
  next => exact h

theorem printedUnits_eq {places : ℕ} {x : Float} {negative : Bool} {num den : ℕ}
    (h : Double.value x = .finite negative num den) :
    (printedUnits places x : ℚ) =
      signedRat negative (roundHalfEven (num * Nat.pow 10 places) den) := by
  unfold printedUnits signedRat
  rw [h]
  dsimp only
  split_ifs <;> push_cast <;> rfl

/-- What is printed is at most half a unit of the last place away. -/
theorem abs_printedUnits_sub_le {x : Float} (h : x.isFinite = true) (places : ℕ) :
    |(printedUnits places x : ℚ) - toRat x * 10 ^ places| ≤ 1 / 2 := by
  obtain ⟨negative, num, k, hvalue, hrat⟩ := exists_value_eq h
  have herror := abs_roundHalfEven_sub_le (num * Nat.pow 10 places) (Nat.two_pow_pos k)
  have hscale : ((num * Nat.pow 10 places : ℕ) : ℚ) / (2 ^ k : ℕ) =
      num / (2 ^ k : ℕ) * 10 ^ places := by
    rw [Nat.pow_eq]
    push_cast
    ring
  rw [printedUnits_eq hvalue, hrat, ← signedRat_mul, ← hscale]
  cases negative with
  | false => exact herror
  | true =>
      rw [abs_sub_comm] at herror
      simpa [signedRat, neg_add_eq_sub] using herror

theorem roundHalfEven_zero (den : ℕ) : roundHalfEven 0 den = 0 := by
  rw [roundHalfEven_eq]
  split_ifs <;> simp_all

/-- Doubles in order are printed in order. -/
theorem printedUnits_le_printedUnits {x y : Float} (hx : x.isFinite = true)
    (hy : y.isFinite = true) (h : x ≤ y) (places : ℕ) :
    printedUnits places x ≤ printedUnits places y := by
  obtain ⟨negative, num, k, hvalue, hrat⟩ := exists_value_eq hx
  obtain ⟨negative', num', k', hvalue', hrat'⟩ := exists_value_eq hy
  have hle := toRat_le_toRat h
  have hden (n : ℕ) : (0 : ℚ) < (2 ^ n : ℕ) := Nat.cast_pos.mpr (Nat.two_pow_pos n)
  -- without signs, the ratios are rounded in their order
  have hmono {a i b j : ℕ} (hab : (a : ℚ) / (2 ^ i : ℕ) ≤ b / (2 ^ j : ℕ)) :
      roundHalfEven (a * Nat.pow 10 places) (2 ^ i) ≤
        roundHalfEven (b * Nat.pow 10 places) (2 ^ j) := by
    rw [div_le_div_iff₀ (hden i) (hden j)] at hab
    have hnat : a * 2 ^ j ≤ b * 2 ^ i := by exact_mod_cast hab
    refine roundHalfEven_le_roundHalfEven (Nat.two_pow_pos i) (Nat.two_pow_pos j) ?_
    calc a * Nat.pow 10 places * 2 ^ j = a * 2 ^ j * Nat.pow 10 places := Nat.mul_right_comm _ _ _
      _ ≤ b * 2 ^ i * Nat.pow 10 places := Nat.mul_le_mul_right _ hnat
      _ = b * Nat.pow 10 places * 2 ^ i := Nat.mul_right_comm _ _ _
  rw [hrat, hrat'] at hle
  unfold printedUnits
  rw [hvalue, hvalue']
  dsimp only
  cases negative <;> cases negative' <;>
    simp only [signedRat, Bool.false_eq_true, if_false, if_true, neg_le_neg_iff] at hle ⊢
  · exact Int.ofNat_le.mpr (hmono hle)
  · -- only zero lies between a number without and a number with a minus sign
    have hnum : (num : ℚ) / (2 ^ k : ℕ) = 0 :=
      le_antisymm (hle.trans (neg_nonpos.mpr (by positivity))) (by positivity)
    have hnum' : (num' : ℚ) / (2 ^ k' : ℕ) = 0 := by
      refine le_antisymm ?_ (by positivity)
      linarith
    rw [div_eq_zero_iff, or_iff_left (hden _).ne', Nat.cast_eq_zero] at hnum hnum'
    rw [hnum, hnum', Nat.zero_mul, roundHalfEven_zero, roundHalfEven_zero]
    decide
  · omega
  · exact Int.ofNat_le.mpr (hmono hle)

/-- Doubles more than one unit of the last place apart are printed differently. -/
theorem printedUnits_ne_of_apart {x y : Float} (hx : x.isFinite = true) (hy : y.isFinite = true)
    {places : ℕ} (h : 1 < (toRat y - toRat x) * 10 ^ places) :
    printedUnits places x ≠ printedUnits places y := by
  have hxerror := abs_le.mp (abs_printedUnits_sub_le hx places)
  have hyerror := abs_le.mp (abs_printedUnits_sub_le hy places)
  intro heq
  rw [heq] at hxerror
  linarith

/-! ## Whole numbers -/

/-- A whole number is printed as it is. -/
theorem printedUnits_of_whole {x : Float} (hx : Whole x) (hfin : x.isFinite = true)
    (places : ℕ) : (printedUnits places x : ℚ) = toRat x * 10 ^ places := by
  obtain ⟨negative, a, k, hvalue, -, hrat⟩ := hx.exists_value_eq hfin
  rw [printedUnits_eq hvalue, hrat, Nat.mul_right_comm,
    roundHalfEven_mul_self _ (Nat.two_pow_pos k), ← signedRat_mul, Nat.pow_eq]
  push_cast
  rfl

/-- What is printed for a whole number is read as that number. -/
theorem rounded_of_whole {x : Float} (hx : Whole x) (places : ℕ) : rounded places x = x := by
  unfold rounded
  split
  next negative num den hvalue =>
    obtain ⟨negative', a, k, hvalue', hnearest, -⟩ := hx.exists_value_eq (isFinite_of_value hvalue)
    obtain ⟨rfl, rfl, rfl⟩ := Value.finite.inj (hvalue.symm.trans hvalue')
    rw [Nat.mul_right_comm, roundHalfEven_mul_self _ (Nat.two_pow_pos k)]
    have hprinted : (Decimal.mk (a * Nat.pow 10 places) (-places)).nearest =
        withSign negative x := by
      have hread := (Decimal.mk (a * Nat.pow 10 places) (-places)).isNearest_nearest
      have hten : 0 < 10 ^ (- -(places : ℤ)).toNat := Nat.pow_pos (by decide)
      refine (hread.congr hten Nat.one_pos ?_).unique hnearest
      have hnum : (-(places : ℤ)).toNat = 0 := by omega
      have hden : (- -(places : ℤ)).toNat = places := by omega
      rw [hnum, hden]
      simp
    rw [hprinted, withSign_withSign]
  next => rfl

/-! ## Texts -/

/-- The digits after the point, with the point if there are any. -/
def pointText (fraction : List Char) : List Char :=
  if fraction = [] then [] else '.' :: fraction

theorem splitSign_signText (negative : Bool) {c : Char} (h : c.isDigit = true) (cs : List Char) :
    splitSign (signText negative ++ c :: cs) = (negative, c :: cs) := by
  cases negative with
  | true => rfl
  | false =>
      have hsign : '-'.isDigit = false ∧ '+'.isDigit = false := by decide
      change splitSign (c :: cs) = _
      unfold splitSign
      split
      next heq =>
        obtain rfl := (List.cons.inj heq).1
        rw [hsign.1] at h
        cases h
      next heq =>
        obtain rfl := (List.cons.inj heq).1
        rw [hsign.2] at h
        cases h
      next => rfl

/-- Digits with a point among them are read as the decimal that they are. -/
theorem unsigned?_pointText {whole fraction : List Char} (hne : whole ≠ [])
    (hwhole : ∀ c ∈ whole, c.isDigit = true) (hfraction : ∀ c ∈ fraction, c.isDigit = true) :
    unsigned? (whole ++ pointText fraction) =
      some ⟨Text.digitsValue 0 (whole ++ fraction), -(fraction.length : ℕ)⟩ := by
  have hempty : whole.isEmpty = false := List.isEmpty_eq_false_iff.mpr hne
  have hnone : ∀ c ∈ ([] : List Char).head?, c.isDigit = false := by simp
  unfold unsigned? pointText
  by_cases hnil : fraction = []
  · have hspan := spanDigits_append hwhole hnone
    rw [if_pos hnil, hspan, hnil]
    simp [hempty, exponent?]
  · have hpoint : ∀ c ∈ ('.' :: fraction).head?, c.isDigit = false := by
      intro c hc
      obtain rfl : '.' = c := Option.some_inj.mp hc
      decide
    have hspan := spanDigits_append hwhole hpoint
    have hrest := spanDigits_append hfraction hnone
    rw [List.append_nil] at hrest
    rw [if_neg hnil, hspan]
    simp [hempty, hrest, exponent?]

/-- A number of units is written with all its places. -/
theorem placesText_eq (places units : ℕ) :
    ∃ whole fraction, placesText places units = whole ++ pointText fraction ∧ whole ≠ [] ∧
      (∀ c ∈ whole ++ fraction, c.isDigit = true) ∧ fraction.length = places ∧
      Text.digitsValue 0 (whole ++ fraction) = units := by
  unfold placesText
  extract_lets ds padded whole
  have hlength : places + 1 ≤ padded.length := by
    simp only [padded, List.length_append, List.length_replicate]
    omega
  have hfraction : (padded.drop (padded.length - places)).length = places := by
    rw [List.length_drop]
    omega
  have hsplit : whole ++ padded.drop (padded.length - places) = padded :=
    List.take_append_drop _ _
  refine ⟨whole, padded.drop (padded.length - places), ?_, ?_, ?_, hfraction, ?_⟩
  · have hnil : padded.drop (padded.length - places) = [] ↔ places = 0 := by
      rw [← List.length_eq_zero_iff, hfraction]
    simp only [pointText, hnil]
    split_ifs
    · rw [List.append_nil]
    · rfl
  · rw [Ne, List.take_eq_nil_iff, not_or]
    refine ⟨by omega, ?_⟩
    intro hnil
    rw [hnil] at hlength
    exact absurd hlength (by simp)
  · rw [hsplit]
    intro c hc
    rcases List.mem_append.mp hc with hc | hc
    · rw [List.eq_of_mem_replicate hc]
      decide
    · exact Text.isDigit_of_mem_digits hc
  · rw [hsplit, Text.digitsValue_append, Text.digitsValue_replicate_zero, Nat.mul_zero,
      Nat.mul_zero, Nat.zero_add, Text.digitsValue_digits]

/-- A fraction without the zeros at its end. -/
def dropZeros (fraction : List Char) : List Char :=
  (fraction.reverse.dropWhile (· == '0')).reverse

theorem dropZeros_append (fraction : List Char) :
    ∃ n, fraction = dropZeros fraction ++ List.replicate n '0' := by
  have hzeros : ∃ n, fraction.reverse.takeWhile (· == '0') = List.replicate n '0' :=
    ⟨_, List.eq_replicate_of_mem fun c hc => by simpa using List.mem_takeWhile_imp hc⟩
  obtain ⟨n, hn⟩ := hzeros
  refine ⟨n, ?_⟩
  have hsplit := List.takeWhile_append_dropWhile (p := (· == '0')) (l := fraction.reverse)
  rw [hn] at hsplit
  rw [dropZeros, ← List.reverse_replicate, ← List.reverse_append, hsplit, List.reverse_reverse]

/-- Zeros at the end of a fraction do not change the number. -/
theorem value_dropZeros (whole fraction : List Char) :
    (Decimal.mk (Text.digitsValue 0 (whole ++ dropZeros fraction))
        (-((dropZeros fraction).length : ℕ))).value =
      (Decimal.mk (Text.digitsValue 0 (whole ++ fraction)) (-(fraction.length : ℕ))).value := by
  obtain ⟨n, hn⟩ := dropZeros_append fraction
  generalize dropZeros fraction = kept at hn ⊢
  rw [hn, ← List.append_assoc, Text.digitsValue_append _ _ (List.replicate n '0'),
    Text.digitsValue_replicate_zero, Nat.mul_zero, Nat.add_zero]
  unfold value
  simp only [List.length_append, List.length_replicate, zpow_neg, zpow_natCast]
  push_cast
  field_simp
  rw [pow_add]
  ring

end FacetedSearch.Decimal
