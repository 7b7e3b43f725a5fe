import FacetedSearch.Filter.Json
import FacetedSearch.Query.Basic

/-! The JSON form of queries. A node is told by its `kind`. -/

namespace FacetedSearch

open Json

def MatchQuery.members (q : MatchQuery) : List (String × Value) :=
  [("field", .string q.field), ("text", .string q.text)]

mutual

def QueryNode.toValue : QueryNode → Value
  | .bool must should mustNot =>
    .object [("kind", .string "bool"), ("must", .object (clauseMembers must)),
      ("should", .object (clauseMembers should)), ("mustNot", .object (clauseMembers mustNot))]
  | .matching q => .object (("kind", .string "match") :: q.members)
  | .filter n => .object [("kind", .string "filter"), ("filter", n.toValue)]

def clauseMembers : List (String × QueryNode) → List (String × Value)
  | [] => []
  | (name, node) :: cs => (name, node.toValue) :: clauseMembers cs

end

def BoolQuery.toValue (q : BoolQuery) : Value :=
  .object [("must", .object (clauseMembers q.must)), ("should", .object (clauseMembers q.should)),
    ("mustNot", .object (clauseMembers q.mustNot))]

def MatchQuery.decode : Decoder MatchQuery :=
  .record ["field", "text"] fun room f => do
    return {
      field := ← f.required .text room "field"
      text := ← f.required .text room "text" }

/-- Clauses under their names, a repeated name keeping its first place and its last clause. -/
def clauses (d : Decoder QueryNode) : Decoder (List (String × QueryNode)) := fun room t =>
  (Decoder.map d room t).map OrderedMap.entries

/-- The clauses of a query, given how nodes are read. -/
def BoolQuery.decodeWith (d : Decoder QueryNode) : Decoder BoolQuery :=
  .record ["must", "should", "mustNot"] fun room f => do
    return {
      must := ← f.withDefault (clauses d) [] room "must"
      should := ← f.withDefault (clauses d) [] room "should"
      mustNot := ← f.withDefault (clauses d) [] room "mustNot" }

def QueryNode.variants : List String := ["bool", "match", "filter"]

/-- A node that was read in full already. The fuel bounds how deep nodes lie in one another. -/
def QueryNode.decodeRead : Nat → Bool → Decoder QueryNode
  | 0, _, _, _ => none
  | fuel + 1, inner, room, t => do
    let (i, t) ← tagged? "kind" variants inner t
    match i with
    | 0 => (BoolQuery.decodeWith (decodeRead fuel true) room t).map .ofBool
    | 1 => (MatchQuery.decode room t).map .matching
    | _ =>
      Decoder.record ["filter"]
        (fun room f => (f.required (FilterNode.decodeRead true) room "filter").map .filter) room t

/-- A node opens an object of its own, so nodes cannot lie deeper than there is room for. -/
def QueryNode.decode : Decoder QueryNode := fun room t =>
  if t.readable room then decodeRead room false room t else none

def BoolQuery.decode : Decoder BoolQuery := decodeWith QueryNode.decode

end FacetedSearch
