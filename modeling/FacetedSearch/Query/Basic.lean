import FacetedSearch.Filter.Basic

/-!
# Queries

The boolean query of a request: clauses with names, each a free text, a filter, or a query
again.
-/

namespace FacetedSearch

/-- A free text to look for in a field. -/
structure MatchQuery where
  field : String
  text : String
deriving Repr, DecidableEq

/-- A node of a query. Clauses stand under their names, each name once. -/
inductive QueryNode where
  | bool (must should mustNot : List (String × QueryNode))
  | matching (query : MatchQuery)
  | filter (node : FilterNode)
deriving Repr

/-- The clauses of a query. -/
structure BoolQuery where
  must : List (String × QueryNode) := []
  should : List (String × QueryNode) := []
  mustNot : List (String × QueryNode) := []
deriving Repr

namespace QueryNode

def ofBool (q : BoolQuery) : QueryNode := .bool q.must q.should q.mustNot

def bool? : QueryNode → Option BoolQuery
  | .bool must should mustNot => some { must, should, mustNot }
  | _ => none

def matching? : QueryNode → Option MatchQuery
  | .matching q => some q
  | _ => none

def filter? : QueryNode → Option FilterNode
  | .filter n => some n
  | _ => none

end QueryNode

namespace BoolQuery

/-- The filters that all have to hold, in the order of their clauses. -/
def filters (q : BoolQuery) : FilterMap :=
  .ofList (q.must.filterMap fun c => c.2.filter?.map (c.1, ·))

/-- The free text: that of the first clause that matches one, optional clauses first. -/
def text? (q : BoolQuery) : Option String :=
  (q.should ++ q.must).findSome? fun c => c.2.matching?.map (·.text)

end BoolQuery

end FacetedSearch
