import FacetedSearch.Proofs.Histogram.Lossless

/-!
# Counting over given ranges

The ranges of a histogram may also be given. It is enough that none ends before it begins and
that each ends where the next one begins: then no price is counted twice, and what is counted is
what the ranges span, up to ranges that are printed alike. The equality of bounds is that of
numbers, so a range may end at zero and the next one begin at negative zero.
-/

namespace FacetedSearch.Histogram

open Scale OrderedMap

/-- Ranges in a row: none ends before it begins, and each ends where the next one begins. -/
structure Chained (ranges : List PriceRange) : Prop where
  lower_le_upper : ∀ r ∈ ranges, r.lower ≤ r.upper
  upper_beq_lower : ranges.IsChain fun r s => (r.upper == s.lower) = true

namespace Chained

theorem tail {r : PriceRange} {ranges : List PriceRange} (h : Chained (r :: ranges)) :
    Chained ranges where
  lower_le_upper s hs := h.lower_le_upper s (List.mem_cons_of_mem r hs)
  upper_beq_lower := h.upper_beq_lower.tail

theorem consecutive {ranges : List PriceRange} (h : Chained ranges) : Consecutive ranges := by
  induction ranges with
  | nil => trivial
  | cons r ranges ih =>
      have hr := h.lower_le_upper r List.mem_cons_self
      cases ranges with
      | nil => exact ⟨hr, Double.le_add_one (Double.le_iff.mp hr).2.1⟩
      | cons s ranges =>
          have hmeet := (List.isChain_cons_cons.mp h.upper_beq_lower).1
          exact ⟨hr, Double.le_of_beq hmeet, Double.ge_of_beq hmeet, ih h.tail⟩

end Chained

/-- Given ranges share out the prices from the first bound up to one above the last: no price is
counted twice, and the prices that are counted are exactly these as long as no two of the ranges
to report are printed alike. -/
theorem countInRanges_shares_out {ranges : List PriceRange} (h : Chained ranges)
    (prices : List PricePoint) :
    (withLimits ranges).Pairwise Apart ∧
      (∀ e ∈ (countInRanges prices ranges).entries, 0 < e.2.count ∧ e.2.value = e.1 ∧
        ∃ r ∈ ranges, e.2.lower = some r.lower ∧ e.2.upper = some r.upper) ∧
      ((countInRanges prices ranges).values.map BucketValue.count).sum ≤
        totalCount (prices.filter fun p => Spans ranges p.1) ∧
      (((reported prices ranges).map Prod.fst).Nodup →
        ((countInRanges prices ranges).values.map BucketValue.count).sum =
            totalCount (prices.filter fun p => Spans ranges p.1) ∧
          (countInRanges prices ranges).entries = reported prices ranges) := by
  have hpartition := h.consecutive.partition
  have htotal := hpartition.total_reported prices
  refine ⟨hpartition.disjoint, ?_, ?_, ?_⟩
  · intro e he
    obtain ⟨t, ht, hreported⟩ := mem_reported_of_mem_countInRanges he
    obtain ⟨hpos, rfl⟩ := reported?_eq_some hreported
    exact ⟨hpos, rfl, t.1, (mem_withLimits ht).1, rfl, rfl⟩
  · rw [sum_count_countInRanges, ← htotal]
    exact total_ofList_le _
  · intro hkeys
    have hentries : (countInRanges prices ranges).entries = reported prices ranges := by
      rw [countInRanges_eq, entries_ofList hkeys]
    refine ⟨?_, hentries⟩
    rw [sum_count_countInRanges, entries_ofList hkeys, htotal]

/-- A range without width, bounds at zeros of both signs, and a price above the last bound. -/
theorem countInRanges_shares_out_over_zeros :
    let ranges : List PriceRange := [⟨-10, -0.0⟩, ⟨0, 0⟩, ⟨-0.0, 10⟩]
    let prices : List PricePoint := [(10.5, 1), (-0.0, 2), (-3, 4), (11, 8), (0, 16)]
    Chained ranges ∧
      ((countInRanges prices ranges).values.map BucketValue.count).sum = 23 ∧
      (countInRanges prices ranges).keys = ["-10_-0", "-0_10"] := by
  intro ranges prices
  have hchained : Chained ranges := ⟨by decide +kernel, by decide +kernel⟩
  obtain ⟨-, -, -, hexact⟩ := countInRanges_shares_out hchained prices
  obtain ⟨hsum, hentries⟩ := hexact (by decide +kernel)
  refine ⟨hchained, hsum.trans (by decide +kernel), ?_⟩
  rw [keys, hentries]
  decide +kernel

end FacetedSearch.Histogram
