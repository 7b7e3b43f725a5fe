import FacetedSearch.Proofs.Histogram.Ranges
import FacetedSearch.Proofs.Scale.Intervals

/-!
# What a histogram loses

The ranges computed for some prices follow one another whatever the rounding does, so nothing is
counted twice. What can be lost is lost in three ways: the first bound is rounded to above the
lowest price, adding one to the last bound leaves it at the highest price, or two ranges that
are not empty are printed alike. These are all the ways there are.
-/

namespace FacetedSearch.Histogram

open Scale OrderedMap

section

variable {start step : Float}

theorem consecutive_intervals (hstart : start.isNaN = false)
    (hlow : Double.units start ≠ -(Double.infinityUnits : ℤ)) (hstep : step.isFinite = true)
    (hsign : Double.Unsigned step) {i n : ℕ} (hn : i + n ≤ 2 ^ 64) :
    Consecutive ((List.range' i n).map (interval start step)) := by
  have hle {j k : ℕ} (hjk : j ≤ k) (hk : k ≤ 2 ^ 64) :
      (interval start step j).lower ≤ (interval start step k).lower :=
    lower_le_lower hstart hlow hstep hsign hjk hk
  induction n generalizing i with
  | zero => trivial
  | succ n ih =>
      have hfirst : (interval start step i).lower ≤ (interval start step i).upper :=
        hle (Nat.le_succ i) (by omega)
      have hupper : (interval start step i).upper.isNaN = false := (Double.le_iff.mp hfirst).2.1
      cases n with
      | zero => exact ⟨hfirst, Double.le_add_one hupper⟩
      | succ n =>
          have hrest := ih (i := i + 1) (by omega)
          exact ⟨hfirst, Double.le_refl hupper, Double.le_refl hupper, hrest⟩

/-- Counted off from negative infinity, no bound has a price below it. -/
theorem partition_of_low (hlow : Double.units start = -(Double.infinityUnits : ℤ)) (n : ℕ) :
    Partition ((List.range n).map (interval start step)) := by
  have hupper {r : PriceRange} (hr : r ∈ (List.range n).map (interval start step)) (x : Float) :
      ¬ x < r.upper ∧ ¬ x < r.upper + 1 := by
    obtain ⟨i, -, rfl⟩ := List.mem_map.mp hr
    exact ⟨Double.not_lt_add_of_low hlow, Double.not_lt_add_add_of_low hlow⟩
  refine partition_of_not_takes ?_ ?_
  · rintro t ht x ⟨-, hx⟩
    obtain ⟨hmem, hlimit | ⟨-, hlimit⟩⟩ := mem_withLimits ht
    · exact (hupper hmem x).1 (hlimit ▸ hx)
    · exact (hupper hmem x).2 (hlimit ▸ hx)
  · rintro x ⟨-, -, last, hlast, -, hx⟩
    exact (hupper (List.mem_of_getLast? hlast) x).2 hx

end

/-- Whatever the values are, the ranges computed for them share out their span. -/
theorem partition_intervals {values : List Float} {maxBuckets : ℕ} {ranges : List PriceRange}
    (h : intervals values maxBuckets = .ok ranges) : Partition ranges := by
  obtain rfl | ⟨least, greatest, step, n, hcounted, rfl⟩ := exists_countedOff h
  · exact Consecutive.partition trivial
  · by_cases hlow : Double.units (Double.floor (least / step) * step) =
        -(Double.infinityUnits : ℤ)
    · exact partition_of_low hlow n
    · have hn := hcounted.number_lt
      rw [List.range_eq_range']
      exact (consecutive_intervals hcounted.isNaN_start hlow hcounted.isFinite_step
        hcounted.unsigned_step (by omega)).partition

/-- A value stands for the range in which a price lies. -/
def CountedIn (prices : List PricePoint) (ranges : List PriceRange) (x : Float)
    (v : BucketValue) : Prop :=
  ∃ t ∈ withLimits ranges, Takes t x ∧
    reported? prices (boundDecimals ranges) t = some (rangeKey (boundDecimals ranges) t.1, v)

/-- The counts of the bucket add up to those of the prices, and each price that anything was
counted for is counted in one value of the bucket. -/
structure Lossless (prices : List PricePoint) (ranges : List PriceRange) (bucket : Bucket) :
    Prop where
  sum_eq : (bucket.values.map BucketValue.count).sum = totalCount prices
  existsUnique : ∀ p ∈ prices, 0 < p.2 →
    ∃! v, v ∈ bucket.values ∧ CountedIn prices ranges p.1 v

theorem le_totalCount {p : PricePoint} {prices : List PricePoint} (h : p ∈ prices) :
    p.2 ≤ totalCount prices := by
  induction prices with
  | nil => simp at h
  | cons x prices ih =>
      rw [totalCount]
      rcases List.mem_cons.mp h with rfl | h
      · exact Nat.le_add_right _ _
      · exact (ih h).trans (Nat.le_add_left _ _)

theorem countBetween_pos {prices : List PricePoint} {p : PricePoint} (hp : p ∈ prices)
    (hpos : 0 < p.2) {t : PriceRange × Float} (ht : Takes t p.1) :
    0 < countBetween prices t.1.lower t.2 := by
  rw [countBetween_eq]
  exact hpos.trans_le (le_totalCount (List.mem_filter.mpr ⟨hp, decide_eq_true ht⟩))

theorem count_pos_of_mem_reported {prices : List PricePoint} {ranges : List PriceRange}
    {e : String × BucketValue} (h : e ∈ reported prices ranges) : 0 < e.2.count := by
  obtain ⟨t, -, ht⟩ := List.mem_filterMap.mp h
  obtain ⟨hpos, rfl⟩ := reported?_eq_some ht
  exact hpos

theorem sum_count_countInRanges (prices : List PricePoint) (ranges : List PriceRange) :
    ((countInRanges prices ranges).values.map BucketValue.count).sum =
      total BucketValue.count (OrderedMap.ofList (reported prices ranges)).entries := by
  rw [countInRanges_eq, values, List.map_map]
  rfl

namespace Partition

variable {ranges : List PriceRange}

theorem eq_of_takes (h : Partition ranges) {t u : PriceRange × Float}
    (ht : t ∈ withLimits ranges) (hu : u ∈ withLimits ranges) {x : Float}
    (htx : Takes t x) (hux : Takes u x) : t = u := by
  by_contra hne
  exact h.disjoint.forall ht hu hne x htx hux

theorem total_reported (h : Partition ranges) (prices : List PricePoint) :
    total BucketValue.count (reported prices ranges) =
      totalCount (prices.filter fun p => Spans ranges p.1) := by
  rw [Histogram.total_reported, sum_countBetween h.disjoint]
  simp only [h.exists_takes_iff]

/-- No price is counted twice. -/
theorem sum_count_le (h : Partition ranges) (prices : List PricePoint) :
    ((countInRanges prices ranges).values.map BucketValue.count).sum ≤ totalCount prices := by
  rw [sum_count_countInRanges]
  calc total BucketValue.count (OrderedMap.ofList (reported prices ranges)).entries
      ≤ total BucketValue.count (reported prices ranges) := total_ofList_le _
    _ = totalCount (prices.filter fun p => Spans ranges p.1) := h.total_reported prices
    _ ≤ totalCount prices := totalCount_filter_le _ _

theorem sum_count_eq_iff (h : Partition ranges) (prices : List PricePoint) :
    ((countInRanges prices ranges).values.map BucketValue.count).sum = totalCount prices ↔
      (∀ p ∈ prices, 0 < p.2 → Spans ranges p.1) ∧
        ((reported prices ranges).map Prod.fst).Nodup := by
  have hpos : ∀ e ∈ reported prices ranges, 0 < e.2.count :=
    fun e he => count_pos_of_mem_reported he
  have hspans : totalCount (prices.filter fun p => Spans ranges p.1) = totalCount prices ↔
      ∀ p ∈ prices, 0 < p.2 → Spans ranges p.1 := by
    simp only [totalCount_filter_eq_iff, decide_eq_true_eq]
  have hkeys := total_ofList_le (f := BucketValue.count) (reported prices ranges)
  have hfilter := totalCount_filter_le (fun p => decide (Spans ranges p.1)) prices
  have htotal := h.total_reported prices
  rw [sum_count_countInRanges, ← hspans, ← total_ofList_eq_iff hpos]
  omega

theorem existsUnique_counted (h : Partition ranges) {prices : List PricePoint}
    (hspans : ∀ p ∈ prices, 0 < p.2 → Spans ranges p.1)
    (hkeys : ((reported prices ranges).map Prod.fst).Nodup) {p : PricePoint} (hp : p ∈ prices)
    (hcount : 0 < p.2) :
    ∃! v, v ∈ (countInRanges prices ranges).values ∧ CountedIn prices ranges p.1 v := by
  obtain ⟨t, ht, htakes⟩ := (h.exists_takes_iff p.1).mpr (hspans p hp hcount)
  have hreported : ∃ v, reported? prices (boundDecimals ranges) t =
      some (rangeKey (boundDecimals ranges) t.1, v) := by
    rw [reported?, if_neg (countBetween_pos hp hcount htakes).ne']
    exact ⟨_, rfl⟩
  obtain ⟨v, hv⟩ := hreported
  refine ⟨v, ⟨?_, t, ht, htakes, hv⟩, ?_⟩
  · rw [countInRanges_eq, values, entries_ofList hkeys]
    exact List.mem_map_of_mem (List.mem_filterMap.mpr ⟨t, ht, hv⟩)
  · rintro w ⟨-, u, hu, hutakes, hw⟩
    obtain rfl := h.eq_of_takes ht hu htakes hutakes
    rw [hv] at hw
    cases hw
    rfl

/-- Nothing is lost exactly if the ranges span all prices that anything was counted for and no
two of the ranges to report are printed alike. -/
theorem lossless_iff (h : Partition ranges) (prices : List PricePoint) :
    Lossless prices ranges (countInRanges prices ranges) ↔
      (∀ p ∈ prices, 0 < p.2 → Spans ranges p.1) ∧
        ((reported prices ranges).map Prod.fst).Nodup := by
  constructor
  · intro hlossless
    exact (h.sum_count_eq_iff prices).mp hlossless.sum_eq
  · intro hkept
    exact ⟨(h.sum_count_eq_iff prices).mpr hkept,
      fun p hp hcount => h.existsUnique_counted hkept.1 hkept.2 hp hcount⟩

end Partition

theorem ofFacets_eq_ok {facets : FacetCounts} {counts : OrderedMap String ℕ} {maxBuckets : ℕ}
    {bucket : Bucket} (hcounts : priceCounts? facets = some counts)
    (h : ofFacets maxBuckets facets = .ok bucket) :
    ∃ ranges, intervals ((pricePoints counts).map Prod.fst) maxBuckets = .ok ranges ∧
      bucket = countInRanges (pricePoints counts) ranges := by
  unfold ofFacets at h
  rw [hcounts] at h
  dsimp only at h
  cases hranges : intervals ((pricePoints counts).map Prod.fst) maxBuckets with
  | ok ranges =>
      rw [hranges] at h
      exact ⟨ranges, rfl, (Outcome.ok.inj h).symm⟩
  | error fault =>
      rw [hranges] at h
      cases h
  | crash =>
      rw [hranges] at h
      cases h

/-- A histogram counts no hit twice. -/
theorem ofFacets_sum_count_le {facets : FacetCounts} {counts : OrderedMap String ℕ}
    {maxBuckets : ℕ} {bucket : Bucket} (hcounts : priceCounts? facets = some counts)
    (h : ofFacets maxBuckets facets = .ok bucket) :
    (bucket.values.map BucketValue.count).sum ≤ totalCount (pricePoints counts) := by
  obtain ⟨ranges, hranges, rfl⟩ := ofFacets_eq_ok hcounts h
  exact (partition_intervals hranges).sum_count_le _

/-- A histogram loses nothing exactly if the ranges computed for it span all prices that
anything was counted for and no two of the ranges to report are printed alike. -/
theorem ofFacets_lossless_iff {facets : FacetCounts} {counts : OrderedMap String ℕ}
    {maxBuckets : ℕ} {bucket : Bucket} (hcounts : priceCounts? facets = some counts)
    (h : ofFacets maxBuckets facets = .ok bucket) :
    ∃ ranges, intervals ((pricePoints counts).map Prod.fst) maxBuckets = .ok ranges ∧
      (Lossless (pricePoints counts) ranges bucket ↔
        (∀ p ∈ pricePoints counts, 0 < p.2 → Spans ranges p.1) ∧
          ((reported (pricePoints counts) ranges).map Prod.fst).Nodup) := by
  obtain ⟨ranges, hranges, rfl⟩ := ofFacets_eq_ok hcounts h
  exact ⟨ranges, hranges, (partition_intervals hranges).lossless_iff _⟩

/-- Prices less than a cent apart can all be counted. -/
theorem ofFacets_lossless_of_sub_cent_prices :
    let prices : List PricePoint := [(0.01, 1), (0.013, 1), (0.02, 1)]
    let counts : OrderedMap String ℕ := .ofList [("0.01", 1), ("0.013", 1), ("0.02", 1)]
    let ranges := (List.range 5).map (interval (0.01 : Float) 0.002)
    ofFacets 5 (.ofList [("price.USD.default", counts)]) = .ok (countInRanges prices ranges) ∧
      Lossless prices ranges (countInRanges prices ranges) := by
  intro prices counts ranges
  have hpoints : pricePoints counts = prices := by decide +kernel
  have hcounts : priceCounts? (.ofList [("price.USD.default", counts)]) = some counts := by
    decide +kernel
  have hranges : intervals (prices.map Prod.fst) 5 = .ok ranges := by decide +kernel
  have hbucket : ofFacets 5 (.ofList [("price.USD.default", counts)]) =
      .ok (countInRanges prices ranges) := by
    decide +kernel
  obtain ⟨r, hr, hlossless⟩ := ofFacets_lossless_iff hcounts hbucket
  rw [hpoints] at hr hlossless
  obtain rfl : ranges = r := Outcome.ok.inj (hranges.symm.trans hr)
  exact ⟨hbucket, hlossless.mpr (by decide +kernel)⟩

/-- In steps of 0.01 the first bound is 15.200000000000001, and the lowest price is below it. -/
theorem ofFacets_loses_lowest_price :
    let counts : OrderedMap String ℕ := .ofList [("15.2", 1), ("15.24", 1)]
    let facets : FacetCounts := .ofList [("price.USD.default", counts)]
    let value : BucketValue :=
      { value := "15.23_15.24", count := 1, lower := some 15.23, upper := some 15.24 }
    priceCounts? facets = some counts ∧ pricePoints counts = [(15.2, 1), (15.24, 1)] ∧
      totalCount (pricePoints counts) = 2 ∧
      ofFacets 5 facets = .ok (.ofList [("15.23_15.24", value)]) := by
  decide +kernel

-- One more than the highest price is the highest price again, and it is in no range.
example : (ofFacets 5 (.ofList [("price.", .ofList [("0", 1), ("1e17", 1)])])).toOption.map
    (·.values.map fun v => (v.value, v.count)) = some [("0_20000000000000000", 1)] := by
  decide +kernel

-- The ranges of both prices are printed alike, and the first one is replaced.
example : (ofFacets 5 (.ofList [("price.", .ofList [("1e-13", 1), ("4e-13", 1)])])).toOption.map
    (·.values.map fun v => (v.value, v.count)) = some [("0_0", 1)] := by
  decide +kernel

end FacetedSearch.Histogram
