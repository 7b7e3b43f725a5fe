import FacetedSearch.Histogram
import FacetedSearch.Proofs.Decimal.Fixed

/-!
# Printed bounds

The bound of a range is printed with a fixed number of places, and the zeros at its end are
dropped. What remains is read as the double nearest to the bound rounded to these places. Two
bounds are printed alike exactly if they are rounded to the same number and have the same sign,
and then all bounds between them are printed alike.
-/

namespace FacetedSearch.Histogram

open Decimal Double Float.Model Float.Model.UnpackedFloat

theorem trimFraction_signText (negative : Bool) {whole fraction : List Char}
    (hdigits : ∀ c ∈ whole ++ fraction, c.isDigit = true) :
    trimFraction (signText negative ++ (whole ++ pointText fraction)) =
      signText negative ++ (whole ++ pointText (dropZeros fraction)) := by
  have hwhole : ∀ c ∈ whole, c.isDigit = true := fun c hc => hdigits c (List.mem_append_left _ hc)
  rw [← List.append_assoc, ← List.append_assoc]
  have hbefore : ∀ c ∈ signText negative ++ whole, c ≠ '.' := by
    rintro c hc rfl
    rcases List.mem_append.mp hc with hc | hc
    · cases negative <;> simp [signText] at hc
    · exact absurd (hwhole _ hc) (by decide)
  generalize signText negative ++ whole = before at hbefore
  by_cases hnil : fraction = []
  · have hcontains : before.contains '.' = false := by
      rw [List.contains_eq_mem, decide_eq_false_iff_not]
      exact fun hmem => hbefore '.' hmem rfl
    simp only [hnil, dropZeros, pointText, List.reverse_nil, List.dropWhile_nil, if_true,
      List.append_nil, trimFraction, hcontains, Bool.false_eq_true, if_false]
  · have hzeros : (before ++ '.' :: fraction).reverse.dropWhile (· == '0') =
        fraction.reverse.dropWhile (· == '0') ++ '.' :: before.reverse := by
      rw [List.reverse_append, List.reverse_cons, List.append_assoc, List.dropWhile_append]
      split_ifs with hempty
      · rw [List.isEmpty_iff.mp hempty]
        rfl
      · rfl
    have hcontains : (before ++ '.' :: fraction).contains '.' = true := by simp
    rw [pointText, if_neg hnil, trimFraction, if_pos hcontains, hzeros, dropZeros, pointText]
    cases hkept : fraction.reverse.dropWhile (· == '0') with
    | nil =>
        have hstop : before.reverse.dropWhile (· == '.') = before.reverse := by
          cases hrev : before.reverse with
          | nil => rfl
          | cons c cs =>
              have hc : c ∈ before := List.mem_reverse.mp (hrev ▸ List.mem_cons_self)
              rw [List.dropWhile_cons_of_neg (by simpa using hbefore c hc)]
        rw [List.nil_append, List.dropWhile_cons_of_pos (by decide), hstop]
        simp
    | cons c cs =>
        have hc : c ∈ fraction :=
          List.mem_reverse.mp ((List.dropWhile_sublist _).subset (hkept ▸ List.mem_cons_self))
        have hne : c ≠ '.' := by
          rintro rfl
          exact absurd (hdigits _ (List.mem_append_right _ hc)) (by decide)
        rw [List.cons_append, List.dropWhile_cons_of_neg (by simpa using hne)]
        simp

/-- The printed parts of a finite bound: a sign, digits, and a point with digits if there are
any left. -/
theorem exists_boundText_eq {x : Float} {negative : Bool} {num den : ℕ}
    (h : Double.value x = .finite negative num den) (decimals : ℕ) :
    ∃ whole fraction,
      (boundText decimals x).toList = signText negative ++ (whole ++ pointText fraction) ∧
      whole ≠ [] ∧ (∀ c ∈ whole, c.isDigit = true) ∧ (∀ c ∈ fraction, c.isDigit = true) ∧
      (Decimal.mk (Text.digitsValue 0 (whole ++ fraction)) (-(fraction.length : ℕ))).value =
        (Decimal.mk (roundHalfEven (num * Nat.pow 10 decimals) den) (-decimals)).value := by
  obtain ⟨whole, fraction, htext, hne, hdigits, hlength, hunits⟩ :=
    placesText_eq decimals (roundHalfEven (num * Nat.pow 10 decimals) den)
  have hdrop : ∀ c ∈ dropZeros fraction, c ∈ fraction := by
    obtain ⟨n, hn⟩ := dropZeros_append fraction
    intro c hc
    rw [hn]
    exact List.mem_append_left _ hc
  refine ⟨whole, dropZeros fraction, ?_, hne, fun c hc => hdigits c (List.mem_append_left _ hc),
    fun c hc => hdigits c (List.mem_append_right _ (hdrop c hc)), ?_⟩
  · unfold boundText fixedChars
    rw [String.toList_ofList, h]
    dsimp only
    rw [htext, trimFraction_signText negative hdigits]
  · rw [value_dropZeros, hunits, hlength]

/-! ## Reading -/

theorem eq_of_unpack_infinity {x : Float} {s : Sign} (h : x.toModel.unpack = .infinity s) :
    x = withSign (isNegative s) (1 / 0) := by
  refine eq_of_unpack_eq ?_
  rw [h]
  cases s <;> rfl

theorem value_of_unpack_infinity {x : Float} {s : Sign} (h : x.toModel.unpack = .infinity s) :
    Double.value x = .infinite (isNegative s) := by
  unfold Double.value
  rw [h]

/-- A printed bound is read as what it was rounded to. -/
theorem readDouble?_boundText {x : Float} (hx : x.isNaN = false) (decimals : ℕ) :
    readDouble? (boundText decimals x) = some (rounded decimals x) := by
  cases hfin : x.isFinite with
  | false =>
      obtain ⟨s, hs⟩ := unpack_of_not_isFinite hx hfin
      have hvalue := value_of_unpack_infinity hs
      unfold boundText fixedChars rounded
      rw [hvalue]
      dsimp only
      rw [eq_of_unpack_infinity hs]
      cases s <;> decide +kernel
  | true =>
      obtain ⟨negative, num, k, hvalue, -⟩ := exists_value_eq hfin
      obtain ⟨whole, fraction, htext, hne, hwhole, hfraction, hdecimal⟩ :=
        exists_boundText_eq hvalue decimals
      obtain ⟨c, cs, rfl⟩ := List.exists_cons_of_ne_nil hne
      have hsign := splitSign_signText negative (hwhole c List.mem_cons_self)
        (cs ++ pointText fraction)
      have hread := unsigned?_pointText hne hwhole hfraction
      rw [List.cons_append] at htext hread
      unfold readDouble? rounded
      rw [hvalue, htext, hsign]
      dsimp only
      rw [hread]
      dsimp only
      rw [nearest_congr hdecimal]
      rfl

/-! ## Bounds that are printed alike -/

theorem negative_of_value {x : Float} {negative : Bool} {num den : ℕ}
    (h : Double.value x = .finite negative num den) :
    negative = isNegative (signOf x.toModel.unpack) := by
  unfold Double.value at h
  cases hu : x.toModel.unpack <;> rw [hu] at h <;> cases h
  · rfl
  · rfl

theorem isNegative_injective {s s' : Sign} (h : isNegative s = isNegative s') : s = s' := by
  cases s <;> cases s' <;> first | rfl | cases h

theorem digits_eq_of_value_eq {m n : ℕ} {e : ℤ}
    (h : (Decimal.mk m e).value = (Decimal.mk n e).value) : m = n := by
  unfold Decimal.value at h
  have hten : (10 : ℚ) ^ e ≠ 0 := zpow_ne_zero e (by decide)
  exact_mod_cast mul_right_cancel₀ hten h

/-- The sign and the rounded number are all that is printed. -/
theorem boundText_eq_iff {x y : Float} (hx : x.isFinite = true) (hy : y.isFinite = true)
    (decimals : ℕ) :
    boundText decimals x = boundText decimals y ↔
      signOf x.toModel.unpack = signOf y.toModel.unpack ∧
        printedUnits decimals x = printedUnits decimals y := by
  obtain ⟨negative, num, k, hvalue, -⟩ := exists_value_eq hx
  obtain ⟨negative', num', k', hvalue', -⟩ := exists_value_eq hy
  have hunits : negative = negative' →
      (printedUnits decimals x = printedUnits decimals y ↔
        roundHalfEven (num * Nat.pow 10 decimals) (2 ^ k) =
          roundHalfEven (num' * Nat.pow 10 decimals) (2 ^ k')) := by
    rintro rfl
    unfold printedUnits
    rw [hvalue, hvalue']
    cases negative <;> simp
  constructor
  · intro htext
    obtain ⟨whole, fraction, hx', hne, hwhole, hfraction, hdecimal⟩ :=
      exists_boundText_eq hvalue decimals
    obtain ⟨whole', fraction', hy', hne', hwhole', hfraction', hdecimal'⟩ :=
      exists_boundText_eq hvalue' decimals
    have hread := unsigned?_pointText hne hwhole hfraction
    have hread' := unsigned?_pointText hne' hwhole' hfraction'
    obtain ⟨c, cs, rfl⟩ := List.exists_cons_of_ne_nil hne
    obtain ⟨c', cs', rfl⟩ := List.exists_cons_of_ne_nil hne'
    rw [List.cons_append] at hx' hy' hread hread'
    have hsplit := splitSign_signText negative (hwhole c List.mem_cons_self)
      (cs ++ pointText fraction)
    rw [← hx', htext, hy', splitSign_signText negative' (hwhole' c' List.mem_cons_self)] at hsplit
    obtain ⟨hsign, hchars⟩ := Prod.mk.inj hsplit
    rw [hchars, hread, Option.some_inj] at hread'
    have hdigits := digits_eq_of_value_eq (hdecimal.symm.trans (hread' ▸ hdecimal'))
    refine ⟨isNegative_injective ?_, (hunits hsign.symm).mpr hdigits⟩
    rw [← negative_of_value hvalue, ← negative_of_value hvalue', hsign]
  · rintro ⟨hsign, hprinted⟩
    have hnegative : negative = negative' := by
      rw [negative_of_value hvalue, negative_of_value hvalue', hsign]
    unfold boundText fixedChars
    rw [hvalue, hvalue', hnegative]
    dsimp only
    rw [(hunits hnegative).mp hprinted]

theorem boundText_of_unpack_infinity {x : Float} {s : Sign} (h : x.toModel.unpack = .infinity s)
    (decimals : ℕ) :
    boundText decimals x = String.ofList (signText (isNegative s) ++ "inf".toList) := by
  unfold boundText fixedChars
  rw [value_of_unpack_infinity h]
  dsimp only
  cases s <;> decide +kernel

/-- No number is printed like an infinite bound. -/
theorem boundText_ne_of_infinite {x y : Float} (hx : x.isFinite = true) {s : Sign}
    (hy : y.toModel.unpack = .infinity s) (decimals : ℕ) :
    boundText decimals x ≠ boundText decimals y := by
  obtain ⟨negative, num, k, hvalue, -⟩ := exists_value_eq hx
  obtain ⟨whole, fraction, htext, hne, hwhole, -⟩ := exists_boundText_eq hvalue decimals
  obtain ⟨c, cs, rfl⟩ := List.exists_cons_of_ne_nil hne
  have hdigit := hwhole c List.mem_cons_self
  intro heq
  rw [heq, boundText_of_unpack_infinity hy, String.toList_ofList, List.cons_append] at htext
  have hsplit := splitSign_signText negative hdigit (cs ++ pointText fraction)
  rw [← htext] at hsplit
  have hinf : splitSign (signText (isNegative s) ++ "inf".toList) =
      (isNegative s, ['i', 'n', 'f']) := by
    cases s <;> decide
  rw [hinf] at hsplit
  obtain rfl := (List.cons.inj (Prod.mk.inj hsplit).2).1
  exact absurd hdigit (by decide)

/-- Bounds in order are printed differently if they are rounded to different numbers, or if one
of them is infinite. -/
theorem boundText_ne_of_lt {x y : Float} (h : x < y) {decimals : ℕ}
    (hprinted : x.isFinite = true → y.isFinite = true →
      printedUnits decimals x ≠ printedUnits decimals y) :
    boundText decimals x ≠ boundText decimals y := by
  obtain ⟨hx, hy, hunits⟩ := lt_iff.mp h
  cases hxfin : x.isFinite with
  | true =>
      cases hyfin : y.isFinite with
      | true =>
          intro htext
          exact hprinted hxfin hyfin ((boundText_eq_iff hxfin hyfin decimals).mp htext).2
      | false =>
          obtain ⟨s, hs⟩ := unpack_of_not_isFinite hy hyfin
          exact boundText_ne_of_infinite hxfin hs decimals
  | false =>
      obtain ⟨s, hs⟩ := unpack_of_not_isFinite hx hxfin
      cases hyfin : y.isFinite with
      | true => exact (boundText_ne_of_infinite hyfin hs decimals).symm
      | false =>
          obtain ⟨s', hs'⟩ := unpack_of_not_isFinite hy hyfin
          rw [boundText_of_unpack_infinity hs, boundText_of_unpack_infinity hs']
          rw [units, units, hs, hs'] at hunits
          cases s <;> cases s' <;> first | decide | exact absurd hunits (lt_irrefl _)

/-- Whole bounds are printed as they are. -/
theorem boundText_ne_of_whole {x y : Float} (hx : Whole x) (hy : Whole y) (h : x < y)
    (decimals : ℕ) : boundText decimals x ≠ boundText decimals y := by
  refine boundText_ne_of_lt h ?_
  intro hxfin hyfin heq
  have hprinted := congrArg (Int.cast (R := ℚ)) heq
  rw [printedUnits_of_whole hx hxfin, printedUnits_of_whole hy hyfin] at hprinted
  have hten : (10 : ℚ) ^ decimals ≠ 0 := pow_ne_zero _ (by decide)
  exact (toRat_lt_toRat h).ne (mul_right_cancel₀ hten hprinted)

/-- Between bounds that are printed alike, all are. Negative zero is no bound. -/
theorem boundText_eq_of_between {x y z : Float} (hxy : x ≤ y) (hyz : y ≤ z) (hx : x ≠ -0.0)
    (hy : y ≠ -0.0) (hz : z ≠ -0.0) {decimals : ℕ}
    (h : boundText decimals x = boundText decimals z) :
    boundText decimals y = boundText decimals x := by
  obtain ⟨hxnum, hynum, hxy'⟩ := le_iff.mp hxy
  obtain ⟨-, hznum, hyz'⟩ := le_iff.mp hyz
  cases hxfin : x.isFinite with
  | false =>
      obtain ⟨s, hs⟩ := unpack_of_not_isFinite hxnum hxfin
      cases hzfin : z.isFinite with
      | true => exact absurd h.symm (boundText_ne_of_infinite hzfin hs decimals)
      | false =>
          obtain ⟨s', hs'⟩ := unpack_of_not_isFinite hznum hzfin
          rw [boundText_of_unpack_infinity hs, boundText_of_unpack_infinity hs'] at h
          have hsign : s = s' := by
            cases s <;> cases s' <;> first | rfl | exact absurd h (by decide)
          have hxz : x = z := by rw [eq_of_unpack_infinity hs, eq_of_unpack_infinity hs', hsign]
          rw [Double.le_antisymm (hxz ▸ hyz) hxy hy hx]
  | true =>
      cases hzfin : z.isFinite with
      | false =>
          obtain ⟨s, hs⟩ := unpack_of_not_isFinite hznum hzfin
          exact absurd h (boundText_ne_of_infinite hxfin hs decimals)
      | true =>
          have hyfin := isFinite_of_between hxy hyz hxfin hzfin
          obtain ⟨hsign, hprinted⟩ := (boundText_eq_iff hxfin hzfin decimals).mp h
          refine (boundText_eq_iff hyfin hxfin decimals).mpr ⟨?_, ?_⟩
          · rw [signOf_eq_ite hx hxnum, signOf_eq_ite hz hznum] at hsign
            rw [signOf_eq_ite hx hxnum, signOf_eq_ite hy hynum]
            split_ifs at hsign ⊢ <;> first | rfl | omega
          · have hlow := printedUnits_le_printedUnits hxfin hyfin hxy decimals
            have hhigh := printedUnits_le_printedUnits hyfin hzfin hyz decimals
            omega

end FacetedSearch.Histogram
