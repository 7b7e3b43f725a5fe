import FacetedSearch.EngineResult.Json
import FacetedSearch.Params
import FacetedSearch.Proofs.Json.Doubles
import FacetedSearch.Proofs.Query.Json
import FacetedSearch.Request.Json

/-!
# Documents

Requests, filters, engine results and parameters are read back from their own texts, entry by
entry in the same order.
-/

namespace FacetedSearch

open Json

/-! ## Requests -/

/-- The requests that a text can carry: a well-formed query, and a part of the results that is
counted in words. -/
structure SearchRequest.WellFormed (r : SearchRequest) : Prop where
  query : r.query.WellFormed
  offset : r.offset < Text.wordLimit
  size : r.size < Text.wordLimit

theorem Dimension.readsBack (d : Dimension) : ReadsBack decode d.toValue d := by
  have hname := ReadsBack.text d.name
  have hvalue := ReadsBack.text d.value
  refine .record (by change ["name", "value"].Nodup; decide) ?_ fun room hroom => ?_
  · simp [hname.wellFormed, hvalue.wellFormed]
  · rw [hname.required hroom rfl, hvalue.required hroom rfl]
    rfl

theorem BucketKind.readsBack (k : BucketKind) : ReadsBack decode (.string k.text) k :=
  ⟨.string k.text, fun _ => by cases k <;> rfl⟩

theorem BucketDefinition.readsBack (d : BucketDefinition) : ReadsBack decode d.toValue d := by
  have hname := ReadsBack.text d.name
  have hfield := ReadsBack.text d.field
  have hkind := BucketKind.readsBack d.kind
  have hcandidates := readsBack_ofStrings d.candidates
  refine .record (by change ["name", "field", "kind", "include"].Nodup; decide)
    ?_ fun room hroom => ?_
  · simp [hname.wellFormed, hfield.wellFormed, hkind.wellFormed, hcandidates.wellFormed]
  · rw [hname.required hroom rfl, hfield.required hroom rfl, hkind.required hroom rfl,
      hcandidates.withDefault hroom rfl]
    rfl

theorem SearchRequest.readsBack {r : SearchRequest} (h : r.WellFormed) :
    ReadsBack decode r.toValue r := by
  have hname := ReadsBack.text r.name
  have hindex := ReadsBack.text r.index
  have hdimensions := ReadsBack.list fun d (_ : d ∈ r.dimensions) => d.readsBack
  have hquery := QueryNode.readsBack h.query
  have haggregations := ReadsBack.list fun d (_ : d ∈ r.aggregations) => d.readsBack
  have hoffset := ReadsBack.word h.offset
  have hsize := ReadsBack.word h.size
  refine .record (by
    change ["name", "index", "dimensions", "query", "aggregations", "from", "size"].Nodup
    decide) ?_ fun room hroom => ?_
  · simp [hname.wellFormed, hindex.wellFormed, hdimensions.wellFormed, hquery.wellFormed,
      haggregations.wellFormed, hoffset.wellFormed, hsize.wellFormed]
  · rw [hname.withDefault hroom rfl, hindex.required hroom rfl, hdimensions.withDefault hroom rfl,
      hquery.required hroom rfl, haggregations.withDefault hroom rfl,
      hoffset.withDefault hroom rfl, hsize.withDefault hroom rfl]
    rfl

/-! ## Engine results and parameters -/

/-- The engine results that a text can carry: hits that are well-formed, and numbers that are
words. -/
structure EngineResult.WellFormed (r : EngineResult) : Prop where
  hits : ∀ hit ∈ r.hits, hit.WellFormed
  hitCount : r.hitCount < Text.wordLimit
  pageCount : ∀ n ∈ r.pageCount, n < Text.wordLimit
  hitsPerPage : ∀ n ∈ r.hitsPerPage, n < Text.wordLimit
  page : ∀ n ∈ r.page, n < Text.wordLimit
  facets : ∀ facet ∈ r.facets.entries, ∀ count ∈ facet.2.entries, count.2 < Text.wordLimit

theorem readsBack_countValue {b : Option ℕ} (h : ∀ n ∈ b, n < Text.wordLimit) :
    ReadsBack (.nullable .word) (countValue b) b := by
  cases b with
  | none => exact .null .word
  | some n => exact .nullable (.word (h n rfl)) (by nofun)

theorem readsBack_hits {hits : List Value} (h : ∀ hit ∈ hits, hit.WellFormed) :
    ReadsBack (.list .value) (.array hits) hits := by
  have hlist := ReadsBack.list (d := .value) (f := id) fun hit hmem => .value (h hit hmem)
  rwa [List.map_id] at hlist

theorem FacetCounts.readsBack {f : FacetCounts}
    (h : ∀ facet ∈ f.entries, ∀ count ∈ facet.2.entries, count.2 < Text.wordLimit) :
    ReadsBack decode f.toValue f :=
  .map fun facet hfacet => .map fun count hcount => .word (h facet hfacet count hcount)

theorem EngineResult.readsBack {r : EngineResult} (h : r.WellFormed) :
    ReadsBack decode r.toValue r := by
  have hhits := readsBack_hits h.hits
  have hhitCount := ReadsBack.word h.hitCount
  have hpageCount := readsBack_countValue h.pageCount
  have hhitsPerPage := readsBack_countValue h.hitsPerPage
  have hpage := readsBack_countValue h.page
  have hfacets := FacetCounts.readsBack h.facets
  refine .record (by
    change ["hits", "nbHits", "nbPages", "hitsPerPage", "page", "facets"].Nodup
    decide) ?_ fun room hroom => ?_
  · simp [hhits.wellFormed, hhitCount.wellFormed, hpageCount.wellFormed, hhitsPerPage.wellFormed,
      hpage.wellFormed, hfacets.wellFormed]
  · rw [hhits.withDefault hroom rfl, hhitCount.withDefault hroom rfl,
      hpageCount.withDefault hroom rfl, hhitsPerPage.withDefault hroom rfl,
      hpage.withDefault hroom rfl, hfacets.withDefault hroom rfl]
    rfl

theorem Params.readsBack {p : Params} (h : ∀ e ∈ p.entries, e.2.WellFormed) :
    ReadsBack decode p.toValue p :=
  .map fun e he => .value (h e he)

/-! ## Whole texts -/

/-- Every document of the data model is read back from its own compact text, if the text opens
fewer than 128 arrays and objects one inside another and what is written for finite doubles is read
as them. -/
theorem Json.read?_render {doubles : DoubleFormat} (hdoubles : doubles.Faithful) :
    (∀ r : SearchRequest, r.WellFormed → r.toValue.depth < 128 →
      SearchRequest.decode.read? doubles (r.toValue.render doubles) = some r) ∧
    (∀ m : FilterMap, (∀ e ∈ m.entries, e.2.IsFinite) → m.toValue.depth < 128 →
      FilterMap.decode.read? doubles (m.toValue.render doubles) = some m) ∧
    (∀ r : EngineResult, r.WellFormed → r.toValue.depth < 128 →
      EngineResult.decode.read? doubles (r.toValue.render doubles) = some r) ∧
    ∀ p : Params, (∀ e ∈ p.entries, e.2.WellFormed) → p.toValue.depth < 128 →
      Params.decode.read? doubles (p.toValue.render doubles) = some p := by
  refine ⟨fun r h hdepth => ?_, fun m h hdepth => ?_, fun r h hdepth => ?_, fun p h hdepth => ?_⟩
  · exact (SearchRequest.readsBack h).read?_eq hdoubles (Nat.le_of_lt_succ hdepth)
  · exact (FilterMap.readsBack h).read?_eq hdoubles (Nat.le_of_lt_succ hdepth)
  · exact (EngineResult.readsBack h).read?_eq hdoubles (Nat.le_of_lt_succ hdepth)
  · exact (Params.readsBack h).read?_eq hdoubles (Nat.le_of_lt_succ hdepth)

namespace Json.Sample

/-- A price range without an upper bound. -/
def price : FilterNode :=
  .range { field := "price", lower := some 0.1, upper := none, upperInclusive := false }

/-- Nested queries, with names and texts that need escapes. -/
def request : SearchRequest where
  index := "products\\\"\x01"
  dimensions := [⟨"scope", "é\n"⟩]
  query := .bool
    [("price", .filter price),
      ("", .bool [] [("\"", .matching ⟨"name", "\t"⟩)] [("brand", .filter (.ofTerm "b" "/"))])]
    [] [("colors", .filter (.ofValues "color" ["red", ""]))]
  aggregations := [⟨"price", "price", .dynamic, []⟩]
  offset := 18446744073709551615

def filters : FilterMap := ⟨[("z", .ofTerm "f" "v"), ("a", price)], by decide⟩

def result : EngineResult where
  hits := [.object [("id", .string "7"), ("score", .ofFloat (-0.0)), ("n", .number (.whole (-1)))]]
  hitCount := 18446744073709551615
  page := some 0
  facets := ⟨[("brand", ⟨[("B", 2), ("A", 1)], by decide⟩)], by decide⟩

def params : Params := ⟨[("page", .ofNat 0), ("boost", .array [.ofFloat 1e300, .null])], by decide⟩

theorem isFinite_price : price.IsFinite := by decide +kernel

theorem wellFormed_request : request.WellFormed := by
  refine ⟨.bool (by decide) (by decide) (by decide) ?_ nofun ?_, by decide, by decide⟩
  · simp only [List.forall_mem_cons, List.not_mem_nil, false_imp_iff, implies_true, and_true]
    refine ⟨.filter isFinite_price, .bool (by decide) (by decide) (by decide) nofun ?_ ?_⟩
    · simpa using .matching _
    · simpa using .filter trivial
  · simpa using .filter trivial

theorem isFinite_filters : ∀ e ∈ filters.entries, e.2.IsFinite := by decide +kernel

theorem wellFormed_result : result.WellFormed := by
  refine ⟨?_, by decide, nofun, nofun, ?_, ?_⟩
  · refine List.forall_mem_singleton.mpr (.object (by decide) ?_)
    simp only [List.forall_mem_cons, List.not_mem_nil, false_imp_iff, implies_true, and_true]
    exact ⟨.string "7", .number (by decide +kernel), .number (by decide)⟩
  · intro n hn
    obtain rfl := Option.some_inj.mp hn
    decide
  · simp only [result, List.forall_mem_cons, List.not_mem_nil, false_imp_iff, implies_true,
      and_true]
    decide

theorem wellFormed_params : ∀ e ∈ params.entries, e.2.WellFormed := by
  simp only [params, List.forall_mem_cons, List.not_mem_nil, false_imp_iff, implies_true, and_true]
  refine ⟨.number (by decide), .array ?_⟩
  simp only [List.forall_mem_cons, List.not_mem_nil, false_imp_iff, implies_true, and_true]
  exact ⟨.number (by decide +kernel), .null⟩

end Json.Sample

open Json.Sample in
/-- Doubles are written with the shortest digits here, and the nearest double is read. -/
theorem Json.read?_render_of_sample :
    DoubleFormat.shortest.Faithful ∧
    (request.toValue.depth = 7 ∧ SearchRequest.decode.read? .shortest
      (request.toValue.render .shortest) = some request) ∧
    FilterMap.decode.read? .shortest (filters.toValue.render .shortest) = some filters ∧
    EngineResult.decode.read? .shortest (result.toValue.render .shortest) = some result ∧
    Params.decode.read? .shortest (params.toValue.render .shortest) = some params := by
  obtain ⟨hrequest, hfilters, hresult, hparams⟩ :=
    Json.read?_render DoubleFormat.faithful_shortest
  exact ⟨DoubleFormat.faithful_shortest,
    ⟨by decide, hrequest request wellFormed_request (by decide)⟩,
    hfilters filters isFinite_filters (by decide), hresult result wellFormed_result (by decide),
    hparams params wellFormed_params (by decide)⟩

end FacetedSearch
