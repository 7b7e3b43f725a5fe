import FacetedSearch.Histogram
import FacetedSearch.Lookup.Basic

/-!
# Aggregations

The engine's facet counts as the buckets of a request: options of attributes, categories by
their paths, and price ranges.
-/

namespace FacetedSearch.Aggregation

/-- The counts of an attribute under the options that the labels belong to. Labels without an
option are dropped. -/
def attributeBucket (l : Lookups) (field : String) (counts : OrderedMap String Nat) : Bucket :=
  counts.entries.foldl (fun bucket (label, count) =>
    match nonEmpty (l.optionId field label) with
    | some id => bucket.insert id { value := id, count }
    | none => bucket) ∅

/-- The counts of all category paths, over all levels. Of a path that is repeated the first
count stays. -/
def categoryCounts (facets : FacetCounts) : OrderedMap String Nat :=
  facets.entries.foldl (fun flat (name, counts) =>
    if Text.startsWith "categories.level" name then
      counts.entries.foldl (fun flat (path, count) => flat.insertIfNew path count) flat
    else flat) ∅

/-- The counts of the candidates whose path was counted. -/
def categoryBucket (l : Lookups) (candidates : List String) (facets : FacetCounts)
    (scope : Option Scope) : Bucket :=
  if candidates.isEmpty then ∅
  else
    let paths := l.paths candidates scope
    let counts := categoryCounts facets
    candidates.foldl (fun bucket id =>
      match (paths.get? id).bind counts.get? with
      | some count => bucket.insert id { value := id, count }
      | none => bucket) ∅

/-- The bucket of one aggregation. A histogram that cannot be computed is empty, and one that
crashes ends the program. -/
def bucketOf? (l : Lookups) (maxBuckets : Nat) (facets : FacetCounts) (scope : Option Scope)
    (d : BucketDefinition) : Option Bucket :=
  if d.field = "category_ids" ∧ d.kind = .term then
    some (categoryBucket l d.candidates facets scope)
  else if d.field = "price" then (Histogram.ofFacets maxBuckets facets).recover ∅
  else
    match facets.get? d.field with
    | some counts => some (attributeBucket l d.field counts)
    | none => some ∅

/-- The buckets of all requested aggregations, unless one of them crashes. -/
def build? (l : Lookups) (maxBuckets : Nat) (definitions : List BucketDefinition)
    (facets : FacetCounts) (scope : Option Scope) : Option Aggregations :=
  definitions.foldlM (fun result d =>
    (bucketOf? l maxBuckets facets scope d).map (result.insert d.name ·)) ∅

end FacetedSearch.Aggregation
