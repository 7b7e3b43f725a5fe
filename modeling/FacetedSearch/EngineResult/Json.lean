import FacetedSearch.Bucket.Json
import FacetedSearch.EngineResult.Basic

/-! The JSON form of engine results, under the engine's own names. -/

namespace FacetedSearch

open Json

def countValue : Option Nat → Value
  | none => .null
  | some n => .ofNat n

def EngineResult.toValue (r : EngineResult) : Value :=
  .object [("hits", .array r.hits), ("nbHits", .ofNat r.hitCount),
    ("nbPages", countValue r.pageCount), ("hitsPerPage", countValue r.hitsPerPage),
    ("page", countValue r.page), ("facets", FacetCounts.toValue r.facets)]

def EngineResult.decode : Decoder EngineResult :=
  .record ["hits", "nbHits", "nbPages", "hitsPerPage", "page", "facets"] fun room f => do
    return {
      hits := ← f.withDefault (.list .value) [] room "hits"
      hitCount := ← f.withDefault .word 0 room "nbHits"
      pageCount := ← f.withDefault (.nullable .word) none room "nbPages"
      hitsPerPage := ← f.withDefault (.nullable .word) none room "hitsPerPage"
      page := ← f.withDefault (.nullable .word) none room "page"
      facets := ← f.withDefault FacetCounts.decode ∅ room "facets" }

end FacetedSearch
