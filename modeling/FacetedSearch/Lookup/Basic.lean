import FacetedSearch.Fault
import FacetedSearch.OrderedMap
import FacetedSearch.Request.Basic
import FacetedSearch.Text.Split

/-!
# Lookups

What the storefront is asked for while a request is compiled and its result is read. An empty
label or option counts as a miss; an empty price key or path is taken as it is.
-/

namespace FacetedSearch

structure Lookups where
  scope : Dimension → Except Fault Scope
  /-- What qualifies the price of a scope: currency and customer group, such as
  `USD.default`. -/
  priceKey : Scope → Except Fault String
  /-- The label of an option of a field. -/
  label : String → String → Option String
  /-- The option of a field that has the label. -/
  optionId : String → String → Option String
  /-- The paths of categories in a scope. -/
  paths : List String → Option Scope → OrderedMap String String

def nonEmpty (s : Option String) : Option String :=
  s.filter fun s => !s.isEmpty

/-- The facet that holds the prices of a scope. -/
def Lookups.priceFacet (l : Lookups) (scope : Scope) : Except Fault String := do
  let suffix ← l.priceKey scope
  return "price." ++ Text.dropLeading '.' suffix

end FacetedSearch
