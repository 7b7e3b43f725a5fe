import FacetedSearch.OrderedMap

/-!
# Filters

The conditions of a storefront request, already parsed: a value, a numeric range, or a set of
values, each on one field.
-/

namespace FacetedSearch

/-- The field has the value. -/
structure TermFilter where
  field : String
  value : String
deriving Repr, DecidableEq

/-- The field lies in a range. A bound that is missing is open. -/
structure RangeFilter where
  field : String
  lower : Option Float
  upper : Option Float
  lowerInclusive : Bool := true
  upperInclusive : Bool := true
deriving Repr, DecidableEq

/-- The field has one of the values. -/
structure ValuesFilter where
  field : String
  values : List String
deriving Repr, DecidableEq

inductive FilterNode where
  | term (filter : TermFilter)
  | range (filter : RangeFilter)
  | values (filter : ValuesFilter)
deriving Repr, DecidableEq

namespace FilterNode

def ofTerm (field value : String) : FilterNode := .term ⟨field, value⟩

/-- A range with both bounds included. -/
def ofRange (field : String) (lower upper : Option Float) : FilterNode :=
  .range { field, lower, upper }

def ofValues (field : String) (values : List String) : FilterNode := .values ⟨field, values⟩

def range? : FilterNode → Option RangeFilter
  | .range r => some r
  | _ => none

end FilterNode

/-- The filters of a request under the names of their clauses. -/
abbrev FilterMap := OrderedMap String FilterNode

end FacetedSearch
