import FacetedSearch.Proofs.Histogram.Keys

/-!
# Prices and the keys they are counted under

Prices are compared with the bounds of a range, and the key shows these bounds rounded to decimals.
So a price is found under a key that does not contain it exactly if it lies between a bound and
what is printed for that bound. In whole steps bounds are printed as they are, and in any steps
what is printed is at most half a unit of the last place away.
-/

namespace FacetedSearch.Histogram

open Scale OrderedMap Decimal

/-! ## Reading keys -/

/-- A key is read as two doubles, the texts on both sides of its underscore. -/
def ReadsAs (key : String) (x y : Float) : Prop :=
  ∃ lower upper : String, '_' ∉ lower.toList ∧ '_' ∉ upper.toList ∧
    key = lower ++ "_" ++ upper ∧ readDouble? lower = some x ∧ readDouble? upper = some y

theorem ReadsAs.unique {key : String} {x y x' y' : Float} (h : ReadsAs key x y)
    (h' : ReadsAs key x' y') : x = x' ∧ y = y' := by
  obtain ⟨lower, upper, hlower, hupper, rfl, hx, hy⟩ := h
  obtain ⟨lower', upper', -, -, heq, hx', hy'⟩ := h'
  obtain ⟨rfl, rfl⟩ := (append_underscore_inj hlower hupper).mp heq
  exact ⟨Option.some_inj.mp (hx.symm.trans hx'), Option.some_inj.mp (hy.symm.trans hy')⟩

theorem readsAs_rangeKey {r : PriceRange} (hlower : r.lower.isNaN = false)
    (hupper : r.upper.isNaN = false) (decimals : ℕ) :
    ReadsAs (rangeKey decimals r) (rounded decimals r.lower) (rounded decimals r.upper) :=
  ⟨_, _, underscore_notMem_boundText _ _, underscore_notMem_boundText _ _, rfl,
    readDouble?_boundText hlower decimals, readDouble?_boundText hupper decimals⟩

/-! ## Prices under their keys -/

/-- The key of each value contains the prices that are counted in it: from the first printed
bound up to the second one, which only the last range contains. -/
def Contained (prices : List PricePoint) (ranges : List PriceRange) (bucket : Bucket) : Prop :=
  ∀ e ∈ bucket.entries, e.2.value = e.1 ∧ ∃ x y, ReadsAs e.1 x y ∧
    ∀ t ∈ withLimits ranges, reported? prices (boundDecimals ranges) t = some e →
      ∀ p ∈ prices, Takes t p.1 →
        x ≤ p.1 ∧ (p.1 < y ∨ ranges.getLast? = some t.1 ∧ p.1 ≤ y)

/-- No price lies between a bound of the range it is counted for and what is printed for the
bound. -/
def NoneBetween (prices : List PricePoint) (ranges : List PriceRange) (bucket : Bucket) : Prop :=
  ∀ e ∈ bucket.entries,
    ∀ t ∈ withLimits ranges, reported? prices (boundDecimals ranges) t = some e →
      ∀ p ∈ prices, Takes t p.1 →
        ¬ p.1 < rounded (boundDecimals ranges) t.1.lower ∧
        ¬ rounded (boundDecimals ranges) t.1.upper < p.1 ∧
        (ranges.getLast? = some t.1 ∨ ¬ rounded (boundDecimals ranges) t.1.upper ≤ p.1)

instance (prices : List PricePoint) (ranges : List PriceRange) (bucket : Bucket) :
    Decidable (NoneBetween prices ranges bucket) :=
  inferInstanceAs (Decidable (∀ e ∈ bucket.entries, ∀ t ∈ withLimits ranges, _ → ∀ p ∈ prices, _))

theorem isNaN_of_reported {prices : List PricePoint} {ranges : List PriceRange}
    {t : PriceRange × Float} (ht : t ∈ withLimits ranges) {decimals : ℕ}
    {e : String × BucketValue} (h : reported? prices decimals t = some e) :
    t.1.lower.isNaN = false ∧ t.1.upper.isNaN = false := by
  obtain ⟨hlower, hlimit, -⟩ := Double.lt_iff.mp (lower_lt_limit h)
  rcases (mem_withLimits ht).2 with heq | ⟨-, heq⟩
  · exact ⟨hlower, heq ▸ hlimit⟩
  · exact ⟨hlower, (Double.isNaN_of_isNaN_add (heq ▸ hlimit)).1⟩

theorem readsAs_of_reported {prices : List PricePoint} {ranges : List PriceRange}
    {t : PriceRange × Float} (ht : t ∈ withLimits ranges) {decimals : ℕ}
    {e : String × BucketValue} (h : reported? prices decimals t = some e) :
    ReadsAs e.1 (rounded decimals t.1.lower) (rounded decimals t.1.upper) := by
  obtain ⟨hlower, hupper⟩ := isNaN_of_reported ht h
  obtain ⟨-, rfl⟩ := reported?_eq_some h
  exact readsAs_rangeKey hlower hupper decimals

theorem contains_iff {x y z : Float} (hx : x.isNaN = false) (hy : y.isNaN = false)
    (hz : z.isNaN = false) (last : Prop) :
    x ≤ z ∧ (z < y ∨ last ∧ z ≤ y) ↔ ¬ z < x ∧ ¬ y < z ∧ (last ∨ ¬ y ≤ z) := by
  rw [Double.not_lt hz hx, Double.not_lt hy hz, Double.not_le hy hz]
  have hle : z < y → z ≤ y := Double.le_of_lt
  tauto

/-- What is wrong about a key is that a price lies between a bound and its printed value. -/
theorem contained_iff {prices : List PricePoint} {ranges : List PriceRange} :
    Contained prices ranges (countInRanges prices ranges) ↔
      NoneBetween prices ranges (countInRanges prices ranges) := by
  have hcontains {t : PriceRange × Float} {e : String × BucketValue} (ht : t ∈ withLimits ranges)
      (h : reported? prices (boundDecimals ranges) t = some e) {p : PricePoint}
      (hp : Takes t p.1) (last : Prop) :=
    have hbounds := isNaN_of_reported ht h
    contains_iff (isNaN_rounded hbounds.1 (boundDecimals ranges))
      (isNaN_rounded hbounds.2 (boundDecimals ranges)) (Double.le_iff.mp hp.1).2.1 last
  constructor
  · intro hcontained e he t ht hreported p hp htakes
    obtain ⟨-, x, y, hread, hprices⟩ := hcontained e he
    obtain ⟨rfl, rfl⟩ := hread.unique (readsAs_of_reported ht hreported)
    exact (hcontains ht hreported htakes _).mp (hprices t ht hreported p hp htakes)
  · intro hnone e he
    obtain ⟨t, ht, hreported⟩ := mem_reported_of_mem_countInRanges he
    obtain ⟨-, heq⟩ := reported?_eq_some hreported
    refine ⟨by rw [heq], _, _, readsAs_of_reported ht hreported, ?_⟩
    intro u hu hreported' p hp htakes
    obtain ⟨hlower, hupper⟩ :=
      (readsAs_of_reported ht hreported).unique (readsAs_of_reported hu hreported')
    rw [hlower, hupper]
    exact (hcontains hu hreported' htakes _).mpr (hnone e he u hu hreported' p hp htakes)

/-! ## How far beside a key a price can lie -/

/-- At most half a unit of the last printed place outside of what is printed. Above the upper
bound of the last range prices are cut off at the limit alone. -/
def NearPrinted (decimals : ℕ) (t : PriceRange × Float) (x : Float) : Prop :=
  (t.1.lower.isFinite = true →
      printedUnits decimals t.1.lower - 1 / 2 ≤ Double.toRat x * 10 ^ decimals) ∧
    (t.2 = t.1.upper → t.1.upper.isFinite = true →
      Double.toRat x * 10 ^ decimals < printedUnits decimals t.1.upper + 1 / 2)

theorem Takes.nearPrinted {t : PriceRange × Float} {x : Float} (h : Takes t x) (decimals : ℕ) :
    NearPrinted decimals t x := by
  have hten : (0 : ℚ) < 10 ^ decimals := by positivity
  constructor
  · intro hfin
    have herror := abs_le.mp (abs_printedUnits_sub_le hfin decimals)
    have hle := mul_le_mul_of_nonneg_right (Double.toRat_le_toRat h.1) hten.le
    linarith
  · intro hlimit hfin
    have herror := abs_le.mp (abs_printedUnits_sub_le hfin decimals)
    have hlt := mul_lt_mul_of_pos_right (Double.toRat_lt_toRat (hlimit ▸ h.2)) hten
    linarith

/-! ## Whole steps -/

/-- In whole steps the bounds are printed as they are, and only a fraction of a price can lie
beside the last key. -/
theorem noneBetween_of_whole_step {prices : List PricePoint} {maxBuckets : ℕ}
    {ranges : List PriceRange} (h : intervals (prices.map Prod.fst) maxBuckets = .ok ranges)
    {step : Float} (hstep : step? (prices.map Prod.fst) maxBuckets = some step)
    (hwhole : Double.floor step = step)
    (hlast : ∀ p ∈ prices, Double.floor p.1 = p.1 ∨ ∀ last ∈ ranges.getLast?, p.1 ≤ last.upper) :
    NoneBetween prices ranges (countInRanges prices ranges) := by
  rintro e - t ht - p hp htakes
  obtain rfl | ⟨least, greatest, step', n, hcounted, rfl⟩ := exists_countedOff h
  · cases ht
  obtain rfl : step' = step := Option.some.inj (hcounted.step?_eq.symm.trans hstep)
  obtain ⟨hmem, hlimit⟩ := mem_withLimits ht
  have hbounds : Double.Whole t.1.lower ∧ Double.Whole t.1.upper := by
    obtain ⟨i, -, heq⟩ := List.mem_map.mp hmem
    rw [← heq]
    exact whole_interval (hwhole ▸ Double.whole_floor step') i
  rw [rounded_of_whole hbounds.1, rounded_of_whole hbounds.2]
  refine ⟨Double.not_lt_of_le htakes.1, ?_⟩
  rcases hlimit with hlimit | ⟨hlast', hlimit⟩
  · have hlt : p.1 < t.1.upper := hlimit ▸ htakes.2
    exact ⟨Double.not_lt_of_le (Double.le_of_lt hlt), .inr fun hle => Double.not_lt_of_le hle hlt⟩
  · have hle : p.1 ≤ t.1.upper := by
      rcases hlast p hp with hfloor | hle
      · have hprice : Double.Whole p.1 := hfloor ▸ Double.whole_floor p.1
        exact hprice.le_of_lt_add_one hbounds.2 (hlimit ▸ htakes.2)
      · exact hle t.1 hlast'
    exact ⟨Double.not_lt_of_le hle, .inl hlast'⟩

/-! ## Histograms -/

/-- A histogram counts its prices under keys that contain them exactly if no price lies between
a bound and what is printed for the bound. In whole steps none does. In any steps a price lies
at most half a unit of the last place beside its key. -/
theorem ofFacets_contained_iff {facets : FacetCounts} {counts : OrderedMap String ℕ}
    {maxBuckets : ℕ} {bucket : Bucket} (hcounts : priceCounts? facets = some counts)
    (h : ofFacets maxBuckets facets = .ok bucket) :
    let prices := pricePoints counts
    ∃ ranges, intervals (prices.map Prod.fst) maxBuckets = .ok ranges ∧
      (∀ e ∈ bucket.entries, e.2.value = e.1 ∧ ∃ t ∈ withLimits ranges,
        reported? prices (boundDecimals ranges) t = some e ∧
        ReadsAs e.1 (rounded (boundDecimals ranges) t.1.lower)
          (rounded (boundDecimals ranges) t.1.upper) ∧
        ∀ p ∈ prices, Takes t p.1 → NearPrinted (boundDecimals ranges) t p.1) ∧
      (Contained prices ranges bucket ↔ NoneBetween prices ranges bucket) ∧
      (∀ step, step? (prices.map Prod.fst) maxBuckets = some step → Double.floor step = step →
        (∀ p ∈ prices, Double.floor p.1 = p.1 ∨ ∀ last ∈ ranges.getLast?, p.1 ≤ last.upper) →
        Contained prices ranges bucket) := by
  intro prices
  obtain ⟨ranges, hranges, rfl⟩ := ofFacets_eq_ok hcounts h
  refine ⟨ranges, hranges, ?_, contained_iff, ?_⟩
  · intro e he
    obtain ⟨t, ht, hreported⟩ := mem_reported_of_mem_countInRanges he
    have hread := readsAs_of_reported ht hreported
    refine ⟨?_, t, ht, hreported, hread, fun p _ htakes => htakes.nearPrinted _⟩
    rw [(reported?_eq_some hreported).2]
  · intro step hstep hwhole hlast
    exact contained_iff.mpr (noneBetween_of_whole_step hranges hstep hwhole hlast)

/-- One of the bounds is 0.6000000000000001 and printed as 0.6, and no price is 0.6. -/
theorem ofFacets_contained_of_no_price_at_bound :
    let counts : OrderedMap String ℕ := .ofList [("0.1", 1), ("0.5", 2), ("0.9", 4)]
    let prices : List PricePoint := [(0.1, 1), (0.5, 2), (0.9, 4)]
    let ranges := (List.range 5).map (interval (0 : Float) 0.2)
    pricePoints counts = prices ∧
      ofFacets 4 (.ofList [("price.USD.default", counts)]) = .ok (countInRanges prices ranges) ∧
      (countInRanges prices ranges).values.map (fun v => (v.value, v.count)) =
        [("0_0.2", 1), ("0.4_0.6", 2), ("0.8_1", 4)] ∧
      Contained prices ranges (countInRanges prices ranges) := by
  intro counts prices ranges
  have hpoints : pricePoints counts = prices := by decide +kernel
  have hcounts : priceCounts? (.ofList [("price.USD.default", counts)]) = some counts := by
    decide +kernel
  have hranges : intervals (prices.map Prod.fst) 4 = .ok ranges := by decide +kernel
  have hbucket : ofFacets 4 (.ofList [("price.USD.default", counts)]) =
      .ok (countInRanges prices ranges) := by
    decide +kernel
  obtain ⟨r, hr, -, hiff, -⟩ := ofFacets_contained_iff hcounts hbucket
  rw [hpoints] at hr hiff
  obtain rfl : ranges = r := Outcome.ok.inj (hranges.symm.trans hr)
  exact ⟨hpoints, hbucket, by decide +kernel, hiff.mpr (by decide +kernel)⟩

/-- The price 0.6 is below the bound 0.6000000000000001, and not below what is printed for it. -/
theorem ofFacets_counts_price_beside_key :
    let counts : OrderedMap String ℕ := .ofList [("0.1", 1), ("0.6", 1), ("0.9", 1)]
    let prices : List PricePoint := [(0.1, 1), (0.6, 1), (0.9, 1)]
    let ranges := (List.range 5).map (interval (0 : Float) 0.2)
    pricePoints counts = prices ∧ intervals (prices.map Prod.fst) 4 = .ok ranges ∧
      ofFacets 4 (.ofList [("price.USD.default", counts)]) = .ok (countInRanges prices ranges) ∧
      (countInRanges prices ranges).values.map (fun v => (v.value, v.count)) =
        [("0_0.2", 1), ("0.4_0.6", 1), ("0.8_1", 1)] ∧
      ¬ Contained prices ranges (countInRanges prices ranges) := by
  intro counts prices ranges
  refine ⟨by decide +kernel, by decide +kernel, by decide +kernel, by decide +kernel, ?_⟩
  rw [contained_iff]
  decide +kernel

end FacetedSearch.Histogram
