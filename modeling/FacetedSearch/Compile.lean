import FacetedSearch.Paging
import FacetedSearch.Stage

/-!
# Compiling requests

A request becomes the parameters of one engine query. What cannot be resolved costs the request its
facets or some filters, not the search. Only a list of facets that is too long for any memory ends
the program.
-/

namespace FacetedSearch

/-- The parameters of a request, and the filters that no stage took. -/
structure Compiled where
  params : Params
  remainder : FilterMap

namespace SearchRequest

/-- The scope of the first dimension, if it can be resolved. -/
def resolvedScope (r : SearchRequest) (l : Lookups) : Option Scope :=
  r.dimensions.head?.bind fun d => (l.scope d).toOption

end SearchRequest

/-- The facets of the engine that stand for a configured one. -/
def engineFacets (config : Config) (l : Lookups) (scope : Option Scope) (name : String) :
    Except Fault (List String) :=
  if name = "price" then
    match scope with
    | some scope => (l.priceFacet scope).map ([·])
    | none => .error (.scopeNotFound "price facet needs a scope")
  else if name = "categories" then
    .ok ((List.range config.categoryLevels).map fun level =>
      "categories.level" ++ Fault.natText level)
  else .ok [name]

/-- Whether there can be a list of so many texts. A text is a pointer, a room and a length. -/
def holdsTexts (count : Nat) : Bool := canHold 24 count

/-- Adds the facets of one configured name after another, up to one that cannot be resolved. -/
def flattenFacets (config : Config) (l : Lookups) (scope : Option Scope) (facets : List String) :
    List String → Outcome Fault (List String)
  | [] => .ok facets
  | name :: names =>
    match engineFacets config l scope name with
    | .error fault => .error fault
    | .ok more =>
      if holdsTexts (facets.length + more.length) then
        flattenFacets config l scope (facets ++ more) names
      else .crash

/-- The facets to count, or none at all if one of them cannot be resolved. Room for all names and
for one more facet for each level is set aside first. -/
def facetList? (config : Config) (l : Lookups) (scope : Option Scope) : Option (List String) :=
  let names := config.facets.forScope scope
  -- a sum beyond a word would crash by itself, and there is no room for it either
  if holdsTexts (names.length + config.categoryLevels) then
    (flattenFacets config l scope [] names).recover []
  else none

namespace SearchRequest

/-- The parameters that do not depend on the filters. -/
def seed (r : SearchRequest) (config : Config) (p : Paging) (facets : List String) : Params :=
  let params : Params :=
    ((((∅ : Params).insert Params.hitsPerPage (.ofNat p.pageSize)).insert
      Params.page (.ofNat p.enginePage)).insert
      Params.facets (.ofStrings facets)).insert
      Params.maxValuesPerFacet (.ofNat config.maxValuesPerFacet)
  let params := params.append Params.ruleContexts config.ruleContext
  match r.text? with
  | some text => params.insert Params.query (.string text)
  | none => params

/-- Compiles a request in a scope, with the facets to count. A stage that fails ends the pipeline
and keeps what the stages before it did. -/
def compileWith (r : SearchRequest) (config : Config) (l : Lookups) (p : Paging)
    (scope : Option Scope) (facets : List String) : Compiled :=
  let params := r.seed config p facets
  match r.filters? with
  | none => { params, remainder := ∅ }
  | some filters =>
    let w := (Stage.runAll config l scope Stage.pipeline { params, filters }).state
    { params := w.params, remainder := w.filters }

/-- Compiles a request in a scope. -/
def compileIn? (r : SearchRequest) (config : Config) (l : Lookups) (p : Paging)
    (scope : Option Scope) : Option Compiled :=
  (facetList? config l scope).map (r.compileWith config l p scope)

/-- Compiles a request in its own scope. -/
def compile? (r : SearchRequest) (config : Config) (l : Lookups) (p : Paging) : Option Compiled :=
  r.compileIn? config l p (r.resolvedScope l)

end SearchRequest

end FacetedSearch
