import FacetedSearch.Bucket.Json
import FacetedSearch.Response.Basic

/-! The JSON form of responses. -/

namespace FacetedSearch

open Json

def Document.toValue (d : Document) : Value := .object [("id", .string d.id)]

def Document.decode : Decoder Document :=
  .record ["id"] fun room f => do
    return { id := ← f.required .text room "id" }

def Response.toValue (r : Response) : Value :=
  .object [("documents", .array (r.documents.map Document.toValue)),
    ("aggregations", Aggregations.toValue r.aggregations), ("totalCount", .ofNat r.totalCount),
    ("totalPages", .ofNat r.totalPages), ("pageSize", .ofNat r.pageSize),
    ("currentPage", .ofNat r.currentPage)]

end FacetedSearch
