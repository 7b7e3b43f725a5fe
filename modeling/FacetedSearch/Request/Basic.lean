import FacetedSearch.Query.Basic

/-!
# Search requests

What the storefront asks for: a query on an index, in the scope of its first dimension, with the
aggregations to report and the part of the results to show.
-/

namespace FacetedSearch

/-- A dimension of a request, such as the scope it is made in. -/
structure Dimension where
  name : String
  value : String
deriving Repr, DecidableEq

inductive BucketKind where
  | term
  | dynamic
  | range
deriving Repr, DecidableEq

/-- A requested aggregation. -/
structure BucketDefinition where
  name : String
  field : String
  kind : BucketKind
  /-- Candidate values, given one by one. -/
  candidates : List String := []
deriving Repr, DecidableEq

structure SearchRequest where
  name : String := ""
  index : String
  dimensions : List Dimension := []
  query : QueryNode
  aggregations : List BucketDefinition := []
  offset : Nat := 0
  size : Nat := 20
deriving Repr

namespace SearchRequest

/-- The filters that all have to hold, if the query has clauses at all. -/
def filters? (r : SearchRequest) : Option FilterMap :=
  r.query.bool?.map BoolQuery.filters

/-- The free text that is looked for. -/
def text? (r : SearchRequest) : Option String :=
  r.query.bool?.bind BoolQuery.text?

end SearchRequest

end FacetedSearch
