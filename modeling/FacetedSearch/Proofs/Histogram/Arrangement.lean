import FacetedSearch.Proofs.Double.Value
import FacetedSearch.Proofs.Histogram.Ranges
import FacetedSearch.Proofs.Scale.Intervals

/-!
# What a histogram depends on

The engine may send the values of the price facet in any order and spell them in any way, with
others among them that are no prices. The histogram depends on nothing but how often each price
was counted: its ranges come from the least and the greatest price, and its counts are sums. Of
equal prices the first one is kept, and zeros of both signs are equal without being the same, so
negative zero is left out here.
-/

namespace FacetedSearch.Scale

theorem bounds_eq_none_iff {values : List Float} :
    bounds values = none ↔ values.filter isFinite = [] := by
  unfold bounds
  cases values.filter isFinite <;> simp

/-- The least and the greatest value do not depend on the order of the values. -/
theorem bounds_perm {values values' : List Float} (h : values.Perm values')
    (hzero : ∀ v ∈ values, v ≠ -0.0) : bounds values = bounds values' := by
  have hfilter : (values.filter isFinite).Perm (values'.filter isFinite) := h.filter isFinite
  cases hbounds : bounds values with
  | none =>
      rw [bounds_eq_none_iff] at hbounds
      rw [hbounds] at hfilter
      exact (bounds_eq_none_iff.mpr hfilter.symm.eq_nil).symm
  | some b =>
      cases hbounds' : bounds values' with
      | none =>
          rw [bounds_eq_none_iff] at hbounds'
          rw [hbounds'] at hfilter
          rw [bounds_eq_none_iff.mpr hfilter.eq_nil] at hbounds
          cases hbounds
      | some b' =>
          obtain ⟨least, greatest⟩ := b
          obtain ⟨least', greatest'⟩ := b'
          obtain ⟨⟨hl, hg⟩, hall⟩ := bounds_spec hbounds
          obtain ⟨⟨hl', hg'⟩, hall'⟩ := bounds_spec hbounds'
          have hne {v : Float} (hv : v ∈ values.filter isFinite) : v ≠ -0.0 :=
            hzero v (List.mem_filter.mp hv).1
          rw [← hfilter.mem_iff] at hl' hg'
          have hleast : least = least' := Double.le_antisymm (hall least' hl').1
            (hall' least (hfilter.mem_iff.mp hl)).1 (hne hl) (hne hl')
          have hgreatest : greatest = greatest' := Double.le_antisymm
            (hall' greatest (hfilter.mem_iff.mp hg)).2 (hall greatest' hg').2 (hne hg) (hne hg')
          rw [hleast, hgreatest]

/-- Only the least and the greatest value matter. -/
theorem intervals_congr {values values' : List Float} (h : bounds values = bounds values')
    (maxBuckets : ℕ) : intervals values maxBuckets = intervals values' maxBuckets := by
  unfold intervals
  rw [h]

end FacetedSearch.Scale

namespace FacetedSearch.Histogram

open Scale

theorem totalCount_perm {prices prices' : List PricePoint} (h : prices.Perm prices') :
    totalCount prices = totalCount prices' := by
  induction h with
  | nil => rfl
  | cons p _ ih => rw [totalCount, totalCount, ih]
  | swap p q prices =>
      simp only [totalCount]
      omega
  | trans _ _ ih ih' => exact ih.trans ih'

theorem countBetween_perm {prices prices' : List PricePoint} (h : prices.Perm prices')
    (lower upper : Float) : countBetween prices lower upper = countBetween prices' lower upper :=
  totalCount_perm (h.filter _)

theorem countInRanges_perm {prices prices' : List PricePoint} (h : prices.Perm prices')
    (ranges : List PriceRange) : countInRanges prices ranges = countInRanges prices' ranges := by
  unfold countInRanges
  simp only [countBetween_perm h]

/-- Facets that were counted alike for each price have the same histogram, or the same fault. -/
theorem ofFacets_eq_of_perm {facets facets' : FacetCounts} {counts counts' : OrderedMap String ℕ}
    (hcounts : priceCounts? facets = some counts) (hcounts' : priceCounts? facets' = some counts')
    (hperm : (pricePoints counts).Perm (pricePoints counts'))
    (hzero : ∀ p ∈ pricePoints counts, p.1 ≠ -0.0) (maxBuckets : ℕ) :
    ofFacets maxBuckets facets = ofFacets maxBuckets facets' := by
  have hprices : ∀ v ∈ (pricePoints counts).map Prod.fst, v ≠ -0.0 := by
    simpa using hzero
  have hintervals := intervals_congr (bounds_perm (hperm.map Prod.fst) hprices) maxBuckets
  unfold ofFacets
  rw [hcounts, hcounts']
  dsimp only
  rw [hintervals]
  cases intervals ((pricePoints counts').map Prod.fst) maxBuckets with
  | ok ranges => exact congrArg Outcome.ok (countInRanges_perm hperm ranges)
  | error fault => rfl
  | crash => rfl

/-- Other spellings, another order, other facets around, and values that are no prices. -/
theorem ofFacets_eq_of_respelled_prices :
    let counts : OrderedMap String ℕ := .ofList [("10", 3), ("25", 2), ("49.50", 3)]
    let counts' : OrderedMap String ℕ :=
      .ofList [("n/a", 7), (" +4.95e1 ", 3), ("1e999", 1), ("10.0", 3), ("025", 2)]
    let facets : FacetCounts := .ofList [("price.USD.default", counts)]
    let facets' : FacetCounts := .ofList [("color", counts), ("price.EUR.group_1", counts')]
    pricePoints counts ≠ pricePoints counts' ∧ ofFacets 5 facets = ofFacets 5 facets' := by
  intro counts counts' facets facets'
  have hperm : (pricePoints counts).Perm (pricePoints counts') := by decide +kernel
  have hzero : ∀ p ∈ pricePoints counts, p.1 ≠ -0.0 := by decide +kernel
  have hcounts : priceCounts? facets = some counts := by decide +kernel
  have hcounts' : priceCounts? facets' = some counts' := by decide +kernel
  exact ⟨by decide +kernel, ofFacets_eq_of_perm hcounts hcounts' hperm hzero 5⟩

end FacetedSearch.Histogram
