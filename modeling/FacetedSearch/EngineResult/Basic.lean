import FacetedSearch.Bucket.Basic
import FacetedSearch.Json.Value

/-! What the engine answers to one query. -/

namespace FacetedSearch

/-- The hits of one page and the counters the engine reports. -/
structure EngineResult where
  hits : List Json.Value := []
  hitCount : Nat := 0
  pageCount : Option Nat := none
  hitsPerPage : Option Nat := none
  page : Option Nat := none
  facets : FacetCounts := ∅

end FacetedSearch
