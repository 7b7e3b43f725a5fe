import FacetedSearch.EngineResult.Basic
import FacetedSearch.Json.Writer
import FacetedSearch.Paging

/-!
# Responses

What the storefront gets back: the documents of one page, its counters, and the aggregations.
-/

namespace FacetedSearch

structure Document where
  id : String
deriving Repr, DecidableEq

/-- An identifier: a text that is not empty, or a number as it is written. -/
def idText? : Json.Value → Option String
  | .string s => if s.isEmpty then none else some s
  | .number n => some (n.text .shortest)
  | _ => none

/-- The identifier of a hit: its own, or else that of its nested fields. -/
def hitId? (hit : Json.Value) : Option String :=
  ((hit.member? "objectID").bind idText?).or
    (((hit.member? "fields").bind (·.member? "objectID")).bind idText?)

/-- The hits that have an identifier. -/
def documentsOf (hits : List Json.Value) : List Document :=
  hits.filterMap fun hit => (hitId? hit).map Document.mk

/-- How many pages of a size hold a number of items. -/
def pagesFor (count pageSize : Nat) : Nat :=
  (count + pageSize - 1) / pageSize

/-- The documents of a page with its counters. -/
structure ResultPage where
  documents : List Document
  totalCount : Nat
  totalPages : Nat
  pageSize : Nat
  currentPage : Nat
deriving Repr, DecidableEq

/-- The page that the engine answered. The counters that it reports itself win over those that
follow from the request. -/
def ResultPage.ofEngine (result : EngineResult) (p : Paging) : ResultPage where
  documents := documentsOf result.hits
  totalCount := result.hitCount
  totalPages := result.pageCount.getD (pagesFor result.hitCount p.pageSize)
  pageSize := result.hitsPerPage.getD p.pageSize
  currentPage := p.pageNumber

structure Response extends ResultPage where
  aggregations : Aggregations
deriving Repr, DecidableEq

/-- Documents and counts that come without paging. -/
structure ResultBundle where
  documents : List Json.Value := []
  facets : FacetCounts := ∅
  total : Option Nat := none

/-- One bucket for each facet, under the values of the engine. -/
def facetBuckets (facets : FacetCounts) : Aggregations :=
  facets.map fun _ counts => counts.map fun value count => { value, count }

/-- The response to a bundle: all of it is one page. -/
def Response.ofBundle (b : ResultBundle) : Response :=
  let documents := documentsOf b.documents
  let totalCount := b.total.getD 0
  { documents
    totalCount
    totalPages :=
      if 0 < totalCount ∧ 0 < documents.length then pagesFor totalCount documents.length else 0
    pageSize := documents.length
    currentPage := 1
    aggregations := facetBuckets b.facets }

def Response.ofPage (page : ResultPage) (aggregations : Aggregations) : Response :=
  { page with aggregations }

end FacetedSearch
