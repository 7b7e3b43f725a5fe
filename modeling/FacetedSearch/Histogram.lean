import FacetedSearch.Bucket.Basic
import FacetedSearch.Decimal.Layout
import FacetedSearch.Decimal.Reader
import FacetedSearch.Fault
import FacetedSearch.Scale.Double
import FacetedSearch.Text.Blank
import FacetedSearch.Text.Split

/-!
# Price histograms

The counts of single prices summed up over ranges of a nice width. The ranges are printed with
as many decimals as their width needs.
-/

namespace FacetedSearch.Histogram

open Scale

abbrev PriceRange := Scale.Interval Float

/-- A price and the number of hits that have it. -/
abbrev PricePoint := Float × Nat

/-- How many decimals tell the bounds of the ranges apart: one for each power of ten that their
width is below one, twelve at most, and two where there is no width. -/
def boundDecimals : List PriceRange → Nat
  | [] => 2
  | r :: _ =>
    let width := r.upper - r.lower
    if !width.isFinite || decide (width ≤ 0) then 2
    else
      let e := Double.logFloor width
      if 0 ≤ e then 0 else min (-e).toNat 12

/-- Drops the zeros at the end of a fraction, and a point at the end. -/
def trimFraction (cs : List Char) : List Char :=
  if cs.contains '.' then
    ((cs.reverse.dropWhile (· == '0')).dropWhile (· == '.')).reverse
  else cs

def boundText (decimals : Nat) (x : Float) : String :=
  String.ofList (trimFraction (Decimal.fixedChars decimals x))

example : boundText 3 0.012000000000000002 = "0.012" ∧ boundText 0 100 = "100" := by
  decide +kernel

def rangeKey (decimals : Nat) (r : PriceRange) : String :=
  boundText decimals r.lower ++ "_" ++ boundText decimals r.upper

/-- The number of hits behind some prices. -/
def totalCount : List PricePoint → Nat
  | [] => 0
  | p :: ps => p.2 + totalCount ps

/-- The number of hits from `lower` up to, and without, `upper`. -/
def countBetween (prices : List PricePoint) (lower upper : Float) : Nat :=
  totalCount (prices.filter fun p => decide (lower ≤ p.1) && decide (p.1 < upper))

/-- The ranges with the bound up to which each takes prices: its own, and one more than it for
the last, so that the highest price is counted. -/
def withLimits : List PriceRange → List (PriceRange × Float)
  | [] => []
  | [r] => [(r, r.upper + 1)]
  | r :: rs => (r, r.upper) :: withLimits rs

/-- Sums up the counts of prices over ranges. Empty ranges are left out. -/
def countInRanges (prices : List PricePoint) (ranges : List PriceRange) : Bucket :=
  let decimals := boundDecimals ranges
  (withLimits ranges).foldl (fun bucket (r, limit) =>
    let count := countBetween prices r.lower limit
    if count = 0 then bucket
    else
      let key := rangeKey decimals r
      bucket.insert key
        { value := key, count, lower := some r.lower, upper := some r.upper }) ∅

/-- Reads a facet value as a finite price. -/
def price? (raw : String) : Option Float :=
  (Decimal.readDouble? (Text.trim raw)).filter Float.isFinite

def pricePoints (counts : OrderedMap String Nat) : List PricePoint :=
  counts.entries.filterMap fun e => (price? e.1).map (·, e.2)

/-- The counts of the first price facet. Its name goes on with the currency and customer group
of a scope. -/
def priceCounts? (facets : FacetCounts) : Option (OrderedMap String Nat) :=
  (facets.entries.find? fun e => Text.startsWith "price." e.1).map Prod.snd

/-- The histogram of the price facet, empty without one. -/
def ofFacets (maxBuckets : Nat) (facets : FacetCounts) : Outcome Fault Bucket :=
  match priceCounts? facets with
  | none => .ok ∅
  | some counts =>
    let prices := pricePoints counts
    match intervals (prices.map Prod.fst) maxBuckets with
    | .ok ranges => .ok (countInRanges prices ranges)
    | .error fault => .error (.ofScale fault)
    | .crash => .crash

end FacetedSearch.Histogram
