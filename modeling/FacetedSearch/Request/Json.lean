import FacetedSearch.Query.Json
import FacetedSearch.Request.Basic

/-! The JSON form of search requests. -/

namespace FacetedSearch

open Json

def Dimension.toValue (d : Dimension) : Value :=
  .object [("name", .string d.name), ("value", .string d.value)]

def BucketKind.text : BucketKind → String
  | .term => "term"
  | .dynamic => "dynamic"
  | .range => "range"

def BucketDefinition.toValue (d : BucketDefinition) : Value :=
  .object [("name", .string d.name), ("field", .string d.field), ("kind", .string d.kind.text),
    ("include", .ofStrings d.candidates)]

def SearchRequest.toValue (r : SearchRequest) : Value :=
  .object [("name", .string r.name), ("index", .string r.index),
    ("dimensions", .array (r.dimensions.map Dimension.toValue)), ("query", r.query.toValue),
    ("aggregations", .array (r.aggregations.map BucketDefinition.toValue)),
    ("from", .ofNat r.offset), ("size", .ofNat r.size)]

def Dimension.decode : Decoder Dimension :=
  .record ["name", "value"] fun room f => do
    return {
      name := ← f.required .text room "name"
      value := ← f.required .text room "value" }

def BucketKind.ofText? : String → Option BucketKind
  | "term" => some .term
  | "dynamic" => some .dynamic
  | "range" => some .range
  | _ => none

/-- A kind is its name, or an object whose only member has that name and says nothing. -/
def BucketKind.decode : Decoder BucketKind
  | _, .string s => s.bind ofText?
  | _ + 1, .object [(name, .null)] => name.text?.bind ofText?
  | _, _ => none

def BucketDefinition.decode : Decoder BucketDefinition :=
  .record ["name", "field", "kind", "include"] fun room f => do
    return {
      name := ← f.required .text room "name"
      field := ← f.required .text room "field"
      kind := ← f.required BucketKind.decode room "kind"
      candidates := ← f.withDefault (.list .text) [] room "include" }

def SearchRequest.decode : Decoder SearchRequest :=
  .record ["name", "index", "dimensions", "query", "aggregations", "from", "size"]
    fun room f => do
      return {
        name := ← f.withDefault .text "" room "name"
        index := ← f.required .text room "index"
        dimensions := ← f.withDefault (.list Dimension.decode) [] room "dimensions"
        query := ← f.required QueryNode.decode room "query"
        aggregations := ← f.withDefault (.list BucketDefinition.decode) [] room "aggregations"
        offset := ← f.withDefault .word 0 room "from"
        size := ← f.withDefault .word 20 room "size" }

end FacetedSearch
