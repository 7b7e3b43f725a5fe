import FacetedSearch.OrderedMap

/-!
# Buckets

What is reported for a requested aggregation: values with the number of hits behind each.
-/

namespace FacetedSearch

/-- A value of a bucket. Only price ranges have bounds. -/
structure BucketValue where
  value : String
  count : Nat
  lower : Option Float := none
  upper : Option Float := none
deriving Repr, DecidableEq

/-- The values of one aggregation under their identifiers. -/
abbrev Bucket := OrderedMap String BucketValue

/-- Buckets under the names of their aggregations. -/
abbrev Aggregations := OrderedMap String Bucket

/-- The engine's counts: for each facet, the number of hits for each of its values. -/
abbrev FacetCounts := OrderedMap String (OrderedMap String Nat)

end FacetedSearch
