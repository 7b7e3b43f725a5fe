import FacetedSearch.Histogram
import FacetedSearch.Proofs.Scale.Intervals

/-!
# Room for ranges

The number of ranges is counted before there are any. It is small wherever the bounds are finite and
few buckets are asked for, but the last bound can be beyond the doubles, and any number of buckets
can be asked for. A histogram crashes exactly if there cannot be a list of as many ranges as were
counted.
-/

namespace FacetedSearch.Histogram

open Scale

/-- The ranges over some prices, counted off in steps from below the least one, are more than a list
can hold. -/
def TooManyRanges (maxBuckets : ℕ) (facets : FacetCounts) : Prop :=
  maxBuckets ≠ 0 ∧ ∃ counts least greatest step, priceCounts? facets = some counts ∧
    bounds ((pricePoints counts).map Prod.fst) = some (least, greatest) ∧
    (greatest - least == 0) = false ∧
    niceNumber .up ((greatest - least) / Float.ofNat maxBuckets) = .ok step ∧
    Text.wordLimit / 2 ≤ 16 * Double.roundToNat
      ((Double.ceil (greatest / step) * step - Double.floor (least / step) * step) / step)

theorem holdsIntervals_eq_false_iff {count : ℕ} :
    holdsIntervals Float count = false ↔ Text.wordLimit / 2 ≤ 16 * count := by
  rw [← Bool.not_eq_true, ← Nat.not_lt]
  exact not_congr canHold_eq_true_iff

theorem ofFacets_eq_crash_iff {maxBuckets : ℕ} {facets : FacetCounts} :
    ofFacets maxBuckets facets = .crash ↔ TooManyRanges maxBuckets facets := by
  have hcrash (counts : OrderedMap String ℕ) (hcounts : priceCounts? facets = some counts) :
      ofFacets maxBuckets facets = .crash ↔
        intervals ((pricePoints counts).map Prod.fst) maxBuckets = .crash := by
    unfold ofFacets
    rw [hcounts]
    dsimp only
    cases intervals ((pricePoints counts).map Prod.fst) maxBuckets <;> simp
  unfold TooManyRanges
  cases hcounts : priceCounts? facets with
  | none => simp [ofFacets, hcounts]
  | some counts =>
      rw [hcrash counts hcounts, intervals_eq_crash_iff]
      simp only [holdsIntervals_eq_false_iff, Option.some.injEq, exists_and_left, exists_eq_left']
      rfl

end FacetedSearch.Histogram
