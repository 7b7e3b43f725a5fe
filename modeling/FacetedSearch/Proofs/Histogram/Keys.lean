import FacetedSearch.Proofs.Histogram.Bounds
import FacetedSearch.Proofs.Double.Logarithm
import FacetedSearch.Proofs.Histogram.Lossless
import FacetedSearch.Proofs.Scale.Accuracy

/-!
# Keys of ranges

A key consists of two printed bounds. Of ranges that follow one another, two share a key exactly
if the lower bound of the first is printed like the upper bound of the second: all bounds between
these are then printed alike.
-/

namespace FacetedSearch.Histogram

open Scale Decimal

/-! ## The two parts of a key -/

theorem underscore_notMem_boundText (decimals : ℕ) (x : Float) :
    '_' ∉ (boundText decimals x).toList := by
  cases hvalue : Double.value x with
  | notANumber =>
      have htext : boundText decimals x = "NaN" := by
        unfold boundText fixedChars
        rw [hvalue]
        rfl
      rw [htext]
      decide
  | infinite negative =>
      have htext : boundText decimals x =
          String.ofList (trimFraction (signText negative ++ "inf".toList)) := by
        unfold boundText fixedChars
        rw [hvalue]
      rw [htext]
      cases negative <;> decide
  | finite negative num den =>
      obtain ⟨whole, fraction, htext, -, hwhole, hfraction, -⟩ :=
        exists_boundText_eq hvalue decimals
      have hdigit : '_'.isDigit = false := by decide
      rw [htext, List.mem_append, List.mem_append]
      rintro (hmem | hmem | hmem)
      · cases negative <;> simp [signText] at hmem
      · rw [hwhole _ hmem] at hdigit
        cases hdigit
      · unfold pointText at hmem
        split_ifs at hmem
        · cases hmem
        · rcases List.mem_cons.mp hmem with heq | hmem
          · exact absurd heq (by decide)
          · rw [hfraction _ hmem] at hdigit
            cases hdigit

/-- Texts without an underscore are the two sides of the one between them. -/
theorem append_underscore_inj {lower upper lower' upper' : String} (hlower : '_' ∉ lower.toList)
    (hupper : '_' ∉ upper.toList) :
    lower ++ "_" ++ upper = lower' ++ "_" ++ upper' ↔ lower = lower' ∧ upper = upper' := by
  have htext (a b : String) : (a ++ "_" ++ b).toList = a.toList ++ '_' :: b.toList := by
    rw [String.toList_append, String.toList_append, List.append_assoc]
    rfl
  rw [← String.toList_inj, htext, htext, List.append_cons_inj_of_notMem hlower hupper,
    String.toList_inj, String.toList_inj, and_iff_right rfl]

/-- A key tells how both bounds are printed. -/
theorem rangeKey_eq_iff {decimals : ℕ} {r s : PriceRange} :
    rangeKey decimals r = rangeKey decimals s ↔
      boundText decimals r.lower = boundText decimals s.lower ∧
        boundText decimals r.upper = boundText decimals s.upper :=
  append_underscore_inj (underscore_notMem_boundText _ _) (underscore_notMem_boundText _ _)

/-! ## Ranges that share a key -/

/-- Ranges that are wider than a point and follow one another. Zero is a bound without a
minus sign. -/
structure Rising (ranges : List PriceRange) : Prop where
  lower_lt_upper : ∀ r ∈ ranges, r.lower < r.upper
  upper_le_lower : ranges.Pairwise fun r s => r.upper ≤ s.lower
  ne_neg_zero : ∀ r ∈ ranges, r.lower ≠ -0.0 ∧ r.upper ≠ -0.0

namespace Rising

variable {ranges : List PriceRange}

/-- What two ranges print alike, everything between them is printed alike. -/
theorem rangeKey_eq_iff_outer (h : Rising ranges) {r s : PriceRange} (hr : r ∈ ranges)
    (hs : s ∈ ranges) (hrs : r.upper ≤ s.lower) (decimals : ℕ) :
    rangeKey decimals r = rangeKey decimals s ↔
      boundText decimals r.lower = boundText decimals s.upper := by
  obtain ⟨hrlower, hrupper⟩ := h.ne_neg_zero r hr
  obtain ⟨hslower, hsupper⟩ := h.ne_neg_zero s hs
  have hrle := Double.le_of_lt (h.lower_lt_upper r hr)
  have hsle := Double.le_of_lt (h.lower_lt_upper s hs)
  rw [rangeKey_eq_iff]
  constructor
  · rintro ⟨hlower, hupper⟩
    have hinner := boundText_eq_of_between hrle hrs hrlower hrupper hslower hlower
    rw [← hupper, hinner]
  · intro houter
    constructor
    · exact (boundText_eq_of_between (Double.le_trans hrle hrs) hsle hrlower hslower hsupper
        houter).symm
    · rw [← houter]
      exact boundText_eq_of_between hrle (Double.le_trans hrs hsle) hrlower hrupper hsupper houter

theorem nodup_keys_iff (h : Rising ranges) (decimals : ℕ) :
    (ranges.map (rangeKey decimals)).Nodup ↔
      ranges.Pairwise fun r s => boundText decimals r.lower ≠ boundText decimals s.upper := by
  rw [List.Nodup, List.pairwise_map]
  constructor
  · intro hkeys
    refine (hkeys.and h.upper_le_lower).imp_of_mem ?_
    rintro r s hr hs ⟨hne, hrs⟩
    rwa [Ne, h.rangeKey_eq_iff_outer hr hs hrs] at hne
  · intro houter
    refine (houter.and h.upper_le_lower).imp_of_mem ?_
    rintro r s hr hs ⟨hne, hrs⟩
    rwa [Ne, h.rangeKey_eq_iff_outer hr hs hrs]

end Rising

/-! ## Computed ranges -/

/-- The ranges that are wider than a point. -/
def wide (ranges : List PriceRange) : List PriceRange :=
  ranges.filter fun r => decide (r.lower < r.upper)

theorem mem_wide {ranges : List PriceRange} {r : PriceRange} :
    r ∈ wide ranges ↔ r ∈ ranges ∧ r.lower < r.upper := by
  rw [wide, List.mem_filter, decide_eq_true_eq]

theorem wide_cons_of_lt {r : PriceRange} (h : r.lower < r.upper) (ranges : List PriceRange) :
    wide (r :: ranges) = r :: wide ranges := by
  unfold wide
  exact List.filter_cons_of_pos (by simpa using h)

section

variable {start step : Float}

theorem interval_ne_neg_zero (hstep : Double.Unsigned step) (i : ℕ) :
    (interval start step i).lower ≠ -0.0 ∧ (interval start step i).upper ≠ -0.0 :=
  ⟨Double.add_ne_neg_zero ((Double.unsigned_ofNat i).mul hstep),
    Double.add_ne_neg_zero ((Double.unsigned_ofNat (i + 1)).mul hstep)⟩

theorem wide_eq_nil_of_low (hlow : Double.units start = -(Double.infinityUnits : ℤ)) (n : ℕ) :
    wide ((List.range n).map (interval start step)) = [] := by
  refine List.filter_eq_nil_iff.mpr ?_
  intro r hr hlt
  obtain ⟨i, -, rfl⟩ := List.mem_map.mp hr
  exact Double.not_lt_add_of_low hlow (of_decide_eq_true hlt)

theorem rising_wide_intervals (hstart : start.isNaN = false)
    (hlow : Double.units start ≠ -(Double.infinityUnits : ℤ)) (hstep : step.isFinite = true)
    (hsign : Double.Unsigned step) {n : ℕ} (hn : n ≤ 2 ^ 64) :
    Rising (wide ((List.range n).map (interval start step))) where
  lower_lt_upper r hr := (mem_wide.mp hr).2
  upper_le_lower := by
    refine List.Pairwise.filter _ (List.pairwise_map.mpr ?_)
    refine List.pairwise_lt_range.imp_of_mem ?_
    intro i j _ hj hij
    have hj' := List.mem_range.mp hj
    exact lower_le_lower (i := i + 1) hstart hlow hstep hsign hij (by omega)
  ne_neg_zero r hr := by
    obtain ⟨i, -, rfl⟩ := List.mem_map.mp (mem_wide.mp hr).1
    exact interval_ne_neg_zero hsign i

end

/-- The ranges computed for some values, except those that are no wider than a point, follow one
another. -/
theorem rising_wide {values : List Float} {maxBuckets : ℕ} {ranges : List PriceRange}
    (h : intervals values maxBuckets = .ok ranges) : Rising (wide ranges) := by
  have hnil : Rising [] := ⟨by simp, .nil, by simp⟩
  obtain rfl | ⟨least, greatest, step, n, hcounted, rfl⟩ := exists_countedOff h
  · exact hnil
  · by_cases hlow : Double.units (Double.floor (least / step) * step) =
        -(Double.infinityUnits : ℤ)
    · rw [wide_eq_nil_of_low hlow]
      exact hnil
    · exact rising_wide_intervals hcounted.isNaN_start hlow hcounted.isFinite_step
        hcounted.unsigned_step hcounted.number_lt.le

/-- In whole steps no two bounds are printed alike. -/
theorem nodup_keys_of_whole_step {values : List Float} {maxBuckets : ℕ}
    {ranges : List PriceRange} (h : intervals values maxBuckets = .ok ranges) {step : Float}
    (hstep : step? values maxBuckets = some step) (hwhole : Double.floor step = step)
    (decimals : ℕ) : ((wide ranges).map (rangeKey decimals)).Nodup := by
  have hrising := rising_wide h
  obtain rfl | ⟨least, greatest, step', n, hcounted, rfl⟩ := exists_countedOff h
  · exact List.nodup_nil
  · obtain rfl : step' = step := Option.some.inj (hcounted.step?_eq.symm.trans hstep)
    have hstep' : Double.Whole step' := hwhole ▸ Double.whole_floor step'
    refine (hrising.nodup_keys_iff decimals).mpr ?_
    refine hrising.upper_le_lower.imp_of_mem ?_
    intro r s hr hs hrs
    obtain ⟨i, -, rfl⟩ := List.mem_map.mp (mem_wide.mp hr).1
    obtain ⟨j, -, rfl⟩ := List.mem_map.mp (mem_wide.mp hs).1
    refine boundText_ne_of_whole (whole_interval hstep' i).1 (whole_interval hstep' j).2 ?_ _
    have hlt := hrising.lower_lt_upper _ hr
    exact Double.lt_of_lt_of_le hlt
      (Double.le_trans hrs (Double.le_of_lt (hrising.lower_lt_upper _ hs)))

/-! ## Steps below one -/

theorem boundDecimals_cons {r : PriceRange} (ranges : List PriceRange)
    (hfin : (r.upper - r.lower).isFinite = true) (hpos : 0 < Double.toRat (r.upper - r.lower))
    (hexp : Double.logFloor (r.upper - r.lower) < 0) :
    boundDecimals (r :: ranges) = min (-Double.logFloor (r.upper - r.lower)).toNat 12 := by
  have hzero : Double.toRat 0 = 0 := by
    have hexact := Double.toRat_ofNat (n := 0) (by decide)
    rwa [Nat.cast_zero] at hexact
  have hle : ¬ r.upper - r.lower ≤ 0 := by
    intro hle
    have hrat := Double.toRat_le_toRat hle
    linarith
  unfold boundDecimals
  simp only [hfin, hle, decide_false, Bool.not_true, Bool.or_self, Bool.false_eq_true, if_false,
    if_neg (Int.not_le.mpr hexp)]

/-- Two ranges next to each other are together wider than a unit of the last printed place, if
the first range is about as wide as a step. -/
theorem one_lt_two_steps {r : PriceRange} (hlower : r.lower.isFinite = true)
    (hupper : r.upper.isFinite = true) {s : ℚ} (hlow : 999 / 10 ^ 15 ≤ s)
    (hwidth : |Double.toRat r.upper - Double.toRat r.lower - s| ≤ s / 2 ^ 8)
    (ranges : List PriceRange) :
    1 < 2 * (s - s / 2 ^ 8) * 10 ^ boundDecimals (r :: ranges) := by
  by_cases hs : 3 / 5 ≤ s
  · have hten : (1 : ℚ) ≤ 10 ^ boundDecimals (r :: ranges) := one_le_pow₀ (by norm_num)
    calc (1 : ℚ) < 2 * (s - s / 2 ^ 8) * 1 := by linarith
      _ ≤ 2 * (s - s / 2 ^ 8) * 10 ^ boundDecimals (r :: ranges) :=
          mul_le_mul_of_nonneg_left hten (by linarith)
  · have hexact := abs_le.mp hwidth
    have hnonneg : 0 ≤ Double.toRat r.upper - Double.toRat r.lower := by linarith
    have hfin : (r.upper - r.lower).isFinite = true := by
      refine Double.isFinite_sub (j := 0) hupper hlower (by decide) ?_
      rw [abs_of_nonneg hnonneg]
      linarith
    have herror := Double.abs_toRat_sub_sub_le hfin
    rw [abs_of_nonneg hnonneg] at herror
    have hdecimals := boundDecimals_cons ranges hfin
    generalize r.upper - r.lower = width at hfin herror hdecimals
    have hrounded := abs_le.mp herror
    unfold Double.roundoff at hrounded
    have hlog := Double.ten_zpow_logFloor_le hfin (by linarith) (by linarith)
    have hexp : Double.logFloor width < 0 := by
      by_contra hexp
      have hone : (1 : ℚ) ≤ 10 ^ Double.logFloor width :=
        one_le_zpow₀ (by norm_num) (Int.not_lt.mp hexp)
      linarith
    rw [hdecimals (by linarith) hexp]
    rcases Nat.le_total (-Double.logFloor width).toNat 12 with hle | hle
    · have hcast : ((-Double.logFloor width).toNat : ℤ) = -Double.logFloor width := by omega
      have hinv : (10 : ℚ) ^ Double.logFloor width * 10 ^ (-Double.logFloor width).toNat = 1 := by
        rw [← zpow_natCast, hcast, ← zpow_add₀ (by norm_num)]
        simp
      rw [Nat.min_eq_left hle, ← hinv]
      refine mul_lt_mul_of_pos_right ?_ (by positivity)
      linarith
    · rw [Nat.min_eq_right hle]
      linarith

section

variable {start step : Float}

theorem boundDecimals_intervals (m : ℕ) :
    boundDecimals ((List.range (m + 1)).map (interval start step)) =
      boundDecimals [interval start step 0] := by
  rw [List.range_succ_eq_map, List.map_cons]
  rfl

/-- Bounds that are not too many steps away from zero are told apart by the places that are
printed, of which there are enough for steps down to `1e-12`. -/
theorem printedUnits_ne_of_near (hstart : start.isFinite = true) (hstep : step.isFinite = true)
    (hsign : Double.Unsigned step) (hfine : 999 / 10 ^ 15 ≤ Double.toRat step) {m i j : ℕ}
    (hnear : ∀ k ∈ List.range (m + 1),
      |Double.toRat (interval start step k).lower| ≤ 2 ^ 40 * Double.toRat step ∧
        |Double.toRat (interval start step k).upper| ≤ 2 ^ 40 * Double.toRat step)
    (hi : i ∈ List.range (m + 1)) (hj : j ∈ List.range (m + 1)) (hj' : j < 2 ^ 64)
    (hiwide : (interval start step i).lower ≤ (interval start step i).upper)
    (hjwide : (interval start step j).lower ≤ (interval start step j).upper)
    (hij : (interval start step i).upper ≤ (interval start step j).lower)
    (hlower : (interval start step i).lower.isFinite = true)
    (hupper : (interval start step j).upper.isFinite = true) :
    printedUnits (boundDecimals ((List.range (m + 1)).map (interval start step)))
        (interval start step i).lower ≠
      printedUnits (boundDecimals ((List.range (m + 1)).map (interval start step)))
        (interval start step j).upper := by
  have hpos : 0 < Double.toRat step := by linarith
  have hzero : 0 ∈ List.range (m + 1) := List.mem_range.mpr (Nat.succ_pos m)
  have hle {k l : ℕ} (hkl : k ≤ l) (hl : l ≤ 2 ^ 64) :
      (interval start step k).lower ≤ (interval start step l).lower :=
    lower_le_lower (Double.isNaN_of_isFinite hstart) (Double.units_of_isFinite hstart).1.ne'
      hstep hsign hkl hl
  have hfirst := isFinite_lower_zero hstart hstep
  have hsecond : (interval start step 0).upper.isFinite = true :=
    Double.isFinite_of_between (hle (Nat.zero_le 1) (by decide))
      (hle (Nat.succ_le_succ (Nat.zero_le j)) hj') hfirst hupper
  have hupper' := Double.isFinite_of_between hiwide (Double.le_trans hij hjwide) hlower hupper
  have hlower' := Double.isFinite_of_between (Double.le_trans hiwide hij) hjwide hlower hupper
  have hsize := (hnear 0 hzero).1
  rw [toRat_lower_zero hstart hstep] at hsize
  have hunit := one_lt_two_steps hfirst hsecond hfine
    (abs_width_sub_le hpos hsize hfirst hsecond (hnear 0 hzero)) []
  have hiwidth := abs_le.mp (abs_width_sub_le hpos hsize hlower hupper' (hnear i hi))
  have hjwidth := abs_le.mp (abs_width_sub_le hpos hsize hlower' hupper (hnear j hj))
  have hinner := Double.toRat_le_toRat hij
  rw [boundDecimals_intervals]
  refine printedUnits_ne_of_apart hlower hupper (hunit.trans_le ?_)
  refine mul_le_mul_of_nonneg_right ?_ (by positivity)
  linarith

end

/-- Bounds that doubles tell well apart: at most `2 ^ 40` steps from zero, in steps of `1e-12` or
more. -/
structure Resolved (step : Float) (ranges : List PriceRange) : Prop where
  fine : 1e-12 ≤ step
  near : ∀ r ∈ ranges, |Double.toRat r.lower| ≤ 2 ^ 40 * Double.toRat step ∧
    |Double.toRat r.upper| ≤ 2 ^ 40 * Double.toRat step

theorem Resolved.le_toRat {step : Float} {ranges : List PriceRange} (h : Resolved step ranges) :
    999 / 10 ^ 15 ≤ Double.toRat step := by
  have hvalue : Double.value 1e-12 =
      .finite false 4951760157141521 4951760157141521099596496896 := by
    decide +kernel
  have hrat := Double.toRat_le_toRat h.fine
  rw [Double.toRat_of_value hvalue] at hrat
  norm_num [Double.signedRat] at hrat ⊢
  linarith

theorem nodup_keys_of_resolved {values : List Float} {maxBuckets : ℕ} {ranges : List PriceRange}
    (h : intervals values maxBuckets = .ok ranges) {step : Float}
    (hstep : step? values maxBuckets = some step) (hresolved : Resolved step ranges) :
    ((wide ranges).map (rangeKey (boundDecimals ranges))).Nodup := by
  have hrising := rising_wide h
  obtain rfl | ⟨least, greatest, step', n, hcounted, rfl⟩ := exists_countedOff h
  · exact List.nodup_nil
  obtain rfl : step' = step := Option.some.inj (hcounted.step?_eq.symm.trans hstep)
  refine (hrising.nodup_keys_iff _).mpr ?_
  refine hrising.upper_le_lower.imp_of_mem ?_
  intro r s hr hs hrs
  have hrlt := hrising.lower_lt_upper r hr
  have hsle := Double.le_of_lt (hrising.lower_lt_upper s hs)
  obtain ⟨i, hi, rfl⟩ := List.mem_map.mp (mem_wide.mp hr).1
  obtain ⟨j, hj, rfl⟩ := List.mem_map.mp (mem_wide.mp hs).1
  have hi' := List.mem_range.mp hi
  have hj' := List.mem_range.mp hj
  have hn := hcounted.number_lt
  obtain ⟨m, rfl⟩ : ∃ m, n = m + 1 := ⟨n - 1, by omega⟩
  refine boundText_ne_of_lt (Double.lt_of_lt_of_le hrlt (Double.le_trans hrs hsle)) ?_
  intro hlower hupper
  exact printedUnits_ne_of_near (isFinite_of_isFinite_lower hlower).1 hcounted.isFinite_step
    hcounted.unsigned_step hresolved.le_toRat
    (fun k hk => hresolved.near _ (List.mem_map_of_mem hk)) hi hj (by omega)
    (Double.le_of_lt hrlt) hsle hrs hlower hupper

/-! ## Reported ranges -/

theorem lower_lt_limit {prices : List PricePoint} {decimals : ℕ} {t : PriceRange × Float}
    {e : String × BucketValue} (h : reported? prices decimals t = some e) : t.1.lower < t.2 := by
  obtain ⟨p, -, hlower, hlimit⟩ := exists_takes_of_countBetween_pos (reported?_eq_some h).1
  exact Double.lt_of_le_of_lt hlower hlimit

theorem keys_reported_cons_sublist {prices : List PricePoint} {decimals : ℕ} (r : PriceRange)
    (limit : Float) {ts : List (PriceRange × Float)} {ranges : List PriceRange}
    (hr : (reported? prices decimals (r, limit)).isSome → r.lower < r.upper)
    (h : ((ts.filterMap (reported? prices decimals)).map Prod.fst).Sublist
      ((wide ranges).map (rangeKey decimals))) :
    ((((r, limit) :: ts).filterMap (reported? prices decimals)).map Prod.fst).Sublist
      ((wide (r :: ranges)).map (rangeKey decimals)) := by
  rw [List.filterMap_cons]
  cases hreported : reported? prices decimals (r, limit) with
  | none => exact h.trans (((List.sublist_cons_self r ranges).filter _).map _)
  | some e =>
      have hlt := hr (by rw [hreported]; rfl)
      obtain ⟨-, rfl⟩ := reported?_eq_some hreported
      rw [wide_cons_of_lt hlt]
      exact h.cons_cons _

/-- A range that is reported is wider than a point, unless it is the last one. -/
theorem keys_reported_sublist {prices : List PricePoint} {decimals : ℕ} {ranges : List PriceRange}
    (hlast : ∀ r ∈ ranges.getLast?, r.lower < r.upper) :
    (((withLimits ranges).filterMap (reported? prices decimals)).map Prod.fst).Sublist
      ((wide ranges).map (rangeKey decimals)) := by
  induction ranges with
  | nil => simp [withLimits]
  | cons r ranges ih =>
      cases ranges with
      | nil => exact keys_reported_cons_sublist r (r.upper + 1) (fun _ => hlast r rfl) (by simp)
      | cons s ranges =>
          rw [List.getLast?_cons_cons] at hlast
          rw [withLimits_cons_cons]
          refine keys_reported_cons_sublist r r.upper ?_ (ih hlast)
          intro hsome
          obtain ⟨e, he⟩ := Option.isSome_iff_exists.mp hsome
          exact (lower_lt_limit he :)

/-- Ranges that are wider than a point have different keys exactly if, of any two of them, the
first does not begin where the second one ends as far as is printed. So they have in whole steps
and wherever doubles tell the bounds well apart. Then no value of a bucket replaces another. -/
theorem wide_keys_nodup_iff {values : List Float} {maxBuckets : ℕ} {ranges : List PriceRange}
    (h : intervals values maxBuckets = .ok ranges) :
    let decimals := boundDecimals ranges
    let keys := (wide ranges).map (rangeKey decimals)
    (keys.Nodup ↔ (wide ranges).Pairwise fun r s =>
        boundText decimals r.lower ≠ boundText decimals s.upper) ∧
      (∀ step, step? values maxBuckets = some step →
        Double.floor step = step ∨ Resolved step ranges → keys.Nodup) ∧
      (keys.Nodup → (∀ r ∈ ranges.getLast?, r.lower < r.upper) → ∀ prices,
        ((reported prices ranges).map Prod.fst).Nodup) := by
  intro decimals keys
  refine ⟨(rising_wide h).nodup_keys_iff decimals, ?_, ?_⟩
  · rintro step hstep (hwhole | hresolved)
    · exact nodup_keys_of_whole_step h hstep hwhole decimals
    · exact nodup_keys_of_resolved h hstep hresolved
  · intro hkeys hlast prices
    exact (keys_reported_sublist hlast).nodup hkeys

/-- Ranges on both sides of zero, some bounds a hair off what is printed for them. -/
theorem wide_keys_nodup_across_zero :
    let ranges := (List.range 8).map (interval (-0.4 : Float) 0.2)
    let prices : List PricePoint := [(-0.3, 1), (0.45, 2), (1.1, 4)]
    intervals (prices.map Prod.fst) 7 = .ok ranges ∧
      ((wide ranges).map (rangeKey (boundDecimals ranges))).Nodup ∧
      (reported prices ranges).map Prod.fst = ["-0.4_-0.2", "0.4_0.6", "1_1.2"] ∧
      ((reported prices ranges).map Prod.fst).Nodup := by
  intro ranges prices
  have hranges : intervals (prices.map Prod.fst) 7 = .ok ranges := by decide +kernel
  obtain ⟨hiff, -, hreported⟩ := wide_keys_nodup_iff hranges
  have hkeys := hiff.mpr (by decide +kernel)
  exact ⟨hranges, hkeys, by decide +kernel, hreported hkeys (by decide +kernel) prices⟩

/-- Steps below `1e-12` need more places than are printed. And where doubles are coarser than the
step, the first range can be wider than others, so that too few places are printed. -/
theorem wide_ranges_share_key :
    let tiny := (List.range 3).map (interval (1e-13 : Float) 1e-13)
    let coarse := (List.range 8).map (interval (-4503599627370497 : Float) 0.5)
    intervals [(1e-13 : Float), 4e-13] 5 = .ok tiny ∧
      (wide tiny).map (rangeKey (boundDecimals tiny)) = ["0_0", "0_0", "0_0"] ∧
      intervals [(-4503599627370497 : Float), -4503599627370493] 8 = .ok coarse ∧
      boundDecimals coarse = 0 ∧
      ¬ ((wide coarse).map (rangeKey (boundDecimals coarse))).Nodup := by
  decide +kernel

end FacetedSearch.Histogram
