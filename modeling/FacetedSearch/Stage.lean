import FacetedSearch.Attempt
import FacetedSearch.Config.Basic
import FacetedSearch.Lookup.Basic
import FacetedSearch.Params

/-!
# Filter stages

Each stage takes the filters that it understands out of the map and adds the clauses that say
the same to the parameters. A filter under a known name whose shape is not the expected one is
left alone.
-/

namespace FacetedSearch

inductive Stage where
  | category
  | priceRange
  | visibility
  | attribute
deriving Repr, DecidableEq

/-- What the stages work on. -/
structure Work where
  params : Params
  filters : FilterMap

namespace Stage

/-- The stages in the order in which they have to run. Attributes come last, since they take
whatever configured fields are left. -/
def pipeline : List Stage := [.category, .priceRange, .visibility, .attribute]

def name : Stage → String
  | .category => "category"
  | .priceRange => "price_range"
  | .visibility => "visibility"
  | .attribute => "attribute"

/-- A category is a facet value, and the rules for it may apply. -/
def runCategory (w : Work) : Work :=
  match w.filters.get? "category" with
  | some (.term t) =>
    { params :=
        (w.params.append Params.facetFilters ("categoryIds:" ++ t.value)).append
          Params.ruleContexts ("magento-category-" ++ t.value)
      filters := w.filters.erase "category" }
  | _ => w

/-- The conditions of a price range on a facet, the lower bound first. -/
def priceClauses (facet : String) (r : RangeFilter) : List String :=
  (r.lower.map fun x =>
    facet ++ (if r.lowerInclusive then ">=" else ">") ++ Decimal.fixed 3 x).toList ++
  (r.upper.map fun x =>
    facet ++ (if r.upperInclusive then "<=" else "<") ++ Decimal.fixed 3 x).toList

/-- Prices belong to a scope; without one the range is left. -/
def runPriceRange (l : Lookups) (scope : Option Scope) (w : Work) : Attempt Work :=
  match w.filters.get? "price", scope with
  | some (.range r), some scope =>
    match l.priceFacet scope with
    | .ok facet =>
      .done {
        params := w.params.appendAll Params.numericFilters (priceClauses facet r)
        filters := w.filters.erase "price" }
    | .error fault => .failed w fault
  | _, _ => .done w

/-- The codes a visibility filter asks for. -/
def visibilityCodes? : FilterNode → Option (List String)
  | .term t => some [t.value]
  | .values m => some m.values
  | .range _ => none

def wantsSearch (v : Visibility) (codes : List String) : Bool :=
  codes.any (· == v.searchCode)

/-- Whether one of the codes asks for the catalogue. Where the two codes are the same text, it
asks for the search alone. -/
def wantsCatalog (v : Visibility) (codes : List String) : Bool :=
  codes.any fun code => code != v.searchCode && code == v.catalogCode

def visibilityClauses (v : Visibility) (codes : List String) : List String :=
  (if wantsSearch v codes then [v.searchField ++ "=1"] else []) ++
  (if wantsCatalog v codes then [v.catalogField ++ "=1"] else [])

/-- Each of the two visibilities that is asked for becomes one condition. The code for both and
unknown codes ask for none. -/
def runVisibility (config : Config) (w : Work) : Work :=
  match (w.filters.get? "visibility").bind visibilityCodes? with
  | some codes =>
    { params :=
        w.params.appendAll Params.numericFilters (visibilityClauses config.visibility codes)
      filters := w.filters.erase "visibility" }
  | none => w

/-- The facet value that a filter asks for, if its field is configured and the option has a
label. -/
def attributeClause? (config : Config) (l : Lookups) (scope : Option Scope) :
    FilterNode → Option String
  | .term t =>
    if config.facets.isConfigured scope t.field then
      (nonEmpty (l.label t.field t.value)).map fun label => t.field ++ ":" ++ label
    else none
  | _ => none

def runAttribute (config : Config) (l : Lookups) (scope : Option Scope) (w : Work) : Work where
  params :=
    w.params.appendAll Params.facetFilters
      (w.filters.values.filterMap (attributeClause? config l scope))
  filters := w.filters.filter fun _ n => (attributeClause? config l scope n).isNone

/-- Runs one stage. Only a price key that is not available stops one. -/
def run (config : Config) (l : Lookups) (scope : Option Scope) : Stage → Work → Attempt Work
  | .category, w => .done (runCategory w)
  | .priceRange, w => runPriceRange l scope w
  | .visibility, w => .done (runVisibility config w)
  | .attribute, w => .done (runAttribute config l scope w)

/-- Runs stages one after another up to the first that fails. -/
def runAll (config : Config) (l : Lookups) (scope : Option Scope) :
    List Stage → Work → Attempt Work
  | [], w => .done w
  | s :: ss, w =>
    let a := s.run config l scope w
    match a.fault? with
    | none => runAll config l scope ss a.state
    | some fault => .failed a.state fault

end Stage

end FacetedSearch
