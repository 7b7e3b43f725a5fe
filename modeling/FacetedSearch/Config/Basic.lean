import FacetedSearch.OrderedMap
import FacetedSearch.Scope

/-!
# Configuration

What a storefront configures: its facets, with overrides for single scopes, the codes it stores
visibility under, and the limits of a query.
-/

namespace FacetedSearch

/-- The codes of the storefront for where a product is visible, and the fields of the records
that say so. -/
structure Visibility where
  catalogCode : String := "2"
  searchCode : String := "3"
  /-- Both fields of the records account for this code already. -/
  bothCode : String := "4"
  catalogField : String := "visibility_catalog"
  searchField : String := "visibility_search"
deriving Repr, DecidableEq

structure FacetSettings where
  common : List String := []
  /-- A scope that is listed uses its own facets alone, be it none at all. -/
  byScope : OrderedMap Scope (List String) := ∅
deriving Repr, DecidableEq

namespace FacetSettings

def forScope (s : FacetSettings) (scope : Option Scope) : List String :=
  (scope.bind s.byScope.get?).getD s.common

def isConfigured (s : FacetSettings) (scope : Option Scope) (field : String) : Bool :=
  (s.forScope scope).contains field

end FacetSettings

structure Config where
  maxValuesPerFacet : Nat := 100
  ruleContext : String := "magento_filters"
  /-- How many level facets stand for the categories. -/
  categoryLevels : Nat := 10
  facets : FacetSettings := {}
  visibility : Visibility := {}
  priceCacheSeconds : Nat := 3600
deriving Repr, DecidableEq

end FacetedSearch
