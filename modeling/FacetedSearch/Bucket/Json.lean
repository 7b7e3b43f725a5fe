import FacetedSearch.Bucket.Basic
import FacetedSearch.Json.Decoder

/-! The JSON form of buckets and facet counts. A bound that is missing is left out. -/

namespace FacetedSearch

open Json

def boundMember (name : String) : Option Float → List (String × Value)
  | none => []
  | some x => [(name, .ofFloat x)]

def BucketValue.toValue (b : BucketValue) : Value :=
  .object ([("value", .string b.value), ("count", .ofNat b.count)] ++
    boundMember "from" b.lower ++ boundMember "to" b.upper)

def Aggregations.toValue (a : Aggregations) : Value :=
  .ofMap (Value.ofMap BucketValue.toValue) a

def FacetCounts.toValue (f : FacetCounts) : Value :=
  .ofMap (Value.ofMap Value.ofNat) f

/-- A bound may be missing where fields have names, and only there. -/
def bound (room : Nat) (f : Fields) (name : String) : Option (Option Float) :=
  if f.isNamed then f.withDefault (.nullable .double) none room name
  else f.required (.nullable .double) room name

def BucketValue.decode : Decoder BucketValue :=
  .record ["value", "count", "from", "to"] fun room f => do
    return {
      value := ← f.required .text room "value"
      count := ← f.required .word room "count"
      lower := ← bound room f "from"
      upper := ← bound room f "to" }

def Aggregations.decode : Decoder Aggregations := .map (.map BucketValue.decode)

def FacetCounts.decode : Decoder FacetCounts := .map (.map .word)

end FacetedSearch
