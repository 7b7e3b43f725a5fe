import FacetedSearch.Json.Decoder

/-!
# Engine parameters

The parameters of one engine query, in the order in which they were first set. Families of
clauses are arrays that grow at the end.
-/

namespace FacetedSearch

abbrev Params := OrderedMap String Json.Value

namespace Params

def hitsPerPage : String := "hitsPerPage"
def page : String := "page"
def query : String := "query"
def facets : String := "facets"
def maxValuesPerFacet : String := "maxValuesPerFacet"
def facetFilters : String := "facetFilters"
def numericFilters : String := "numericFilters"
def ruleContexts : String := "ruleContexts"

/-- Adds a clause at the end of a family. What stands there and is no array becomes the first
clause. -/
def append (p : Params) (family clause : String) : Params :=
  match p.get? family with
  | none => p.insert family (.array [.string clause])
  | some (.array items) => p.insert family (.array (items ++ [.string clause]))
  | some v => p.insert family (.array [v, .string clause])

/-- Adds clauses one after another. -/
def appendAll (p : Params) (family : String) (clauses : List String) : Params :=
  clauses.foldl (fun p clause => p.append family clause) p

/-- The texts among the clauses of a family. -/
def clauses (p : Params) (family : String) : List String :=
  match p.get? family with
  | some (.array items) => items.filterMap Json.Value.string?
  | some (.string s) => [s]
  | _ => []

/-- The natural number under a name. -/
def natural? (p : Params) (name : String) : Option Nat :=
  match p.get? name with
  | some (.number (.whole n)) => if 0 ≤ n then some n.toNat else none
  | _ => none

def toValue (p : Params) : Json.Value := .ofMap id p

def decode : Json.Decoder Params := .map .value

end Params

end FacetedSearch
