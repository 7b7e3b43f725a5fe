import FacetedSearch.Filter.Basic
import FacetedSearch.Json.Decoder

/-! The JSON form of filters. A node is told by its `type`. -/

namespace FacetedSearch

open Json

def TermFilter.members (f : TermFilter) : List (String × Value) :=
  [("field", .string f.field), ("value", .string f.value)]

def boundValue : Option Float → Value
  | none => .null
  | some x => .ofFloat x

def RangeFilter.members (f : RangeFilter) : List (String × Value) :=
  [("field", .string f.field), ("from", boundValue f.lower), ("to", boundValue f.upper),
    ("fromInclusive", .bool f.lowerInclusive), ("toInclusive", .bool f.upperInclusive)]

def ValuesFilter.members (f : ValuesFilter) : List (String × Value) :=
  [("field", .string f.field), ("values", .ofStrings f.values)]

def FilterNode.toValue : FilterNode → Value
  | .term f => .object (("type", .string "term") :: f.members)
  | .range f => .object (("type", .string "range") :: f.members)
  | .values f => .object (("type", .string "multiValue") :: f.members)

def FilterMap.toValue (m : FilterMap) : Value := .ofMap FilterNode.toValue m

def TermFilter.decode : Decoder TermFilter :=
  .record ["field", "value"] fun room f => do
    return {
      field := ← f.required .text room "field"
      value := ← f.required .text room "value" }

def RangeFilter.decode : Decoder RangeFilter :=
  .record ["field", "from", "to", "fromInclusive", "toInclusive"] fun room f => do
    return {
      field := ← f.required .text room "field"
      lower := ← f.withDefault (.nullable .double) none room "from"
      upper := ← f.withDefault (.nullable .double) none room "to"
      lowerInclusive := ← f.withDefault .bool true room "fromInclusive"
      upperInclusive := ← f.withDefault .bool true room "toInclusive" }

def ValuesFilter.decode : Decoder ValuesFilter :=
  .record ["field", "values"] fun room f => do
    return {
      field := ← f.required .text room "field"
      values := ← f.required (.list .text) room "values" }

def FilterNode.variants : List String := ["term", "range", "multiValue"]

/-- A node that was read in full already. -/
def FilterNode.decodeRead (inner : Bool) : Decoder FilterNode := fun room t => do
  let (i, t) ← tagged? "type" variants inner t
  match i with
  | 0 => (TermFilter.decode room t).map .term
  | 1 => (RangeFilter.decode room t).map .range
  | _ => (ValuesFilter.decode room t).map .values

def FilterNode.decode : Decoder FilterNode := fun room t =>
  if t.readable room then decodeRead false room t else none

def FilterMap.decode : Decoder FilterMap := .map FilterNode.decode

end FacetedSearch
