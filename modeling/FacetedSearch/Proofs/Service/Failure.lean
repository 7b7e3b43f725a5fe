import FacetedSearch.Lookup.Table
import FacetedSearch.Proofs.Aggregation
import FacetedSearch.Proofs.Compile.Facets
import FacetedSearch.Proofs.Histogram.Room
import FacetedSearch.Proofs.Service

/-!
# How a search fails

A search fails on paging that is not valid, and then the engine is not called. Otherwise the
engine is called once and the search answers as the engine does. Scopes, price keys, labels, paths
and histograms that cannot be found or computed cost filters, facets and buckets only. What ends a
search besides is a lack of room: for its facets before the call, and for the ranges of a histogram
after it.
-/

namespace FacetedSearch.Service

/-- The requests whose page cannot be counted: pages of no items, and the one page number that
does not fit a word. -/
def InvalidPaging (r : SearchRequest) : Prop :=
  r.size = 0 ∨ r.size = 1 ∧ r.offset = Text.wordLimit - 1

theorem ofOffset_of_invalid {r : SearchRequest} (h : InvalidPaging r) :
    ∃ cause, Paging.ofOffset r.offset r.size = .error (.invalidArgument cause) := by
  rcases h with hsize | ⟨hsize, hoffset⟩
  · rw [hsize]
    exact ⟨_, Paging.ofOffset_zero r.offset⟩
  · rw [hsize, hoffset, Paging.ofOffset_of_pos Nat.one_pos (by decide), Nat.div_one,
      if_neg (by decide)]
    exact ⟨_, rfl⟩

theorem ofOffset_of_valid {r : SearchRequest} (hoffset : r.offset < Text.wordLimit)
    (h : ¬ InvalidPaging r) : ∃ p, Paging.ofOffset r.offset r.size = .ok p := by
  obtain ⟨hzero, hlast⟩ := not_or.mp h
  have hsize : 0 < r.size := Nat.pos_of_ne_zero hzero
  rw [Paging.ofOffset_of_pos hsize hoffset,
    if_pos ((Paging.number_lt_iff hsize hoffset).mpr hlast)]
  exact ⟨_, rfl⟩

/-- A histogram of prices is requested, and the prices of a result are spread over more ranges than
a list can hold. -/
def HistogramTooLong (r : SearchRequest) (result : EngineResult) : Prop :=
  (∃ d ∈ r.aggregations, d.field = "price") ∧
    Histogram.TooManyRanges Scale.defaultBuckets result.facets

section

variable {s : Service} {r : SearchRequest} {p : Paging}

theorem callFor?_eq_none_iff :
    s.callFor? r p = none ↔ FacetsTooLong s.config s.lookups (r.resolvedScope s.lookups) := by
  unfold callFor? SearchRequest.compile?
  rw [Option.map_eq_none_iff, SearchRequest.compileIn?_eq_none_iff, facetList?_eq_none_iff]

theorem respond?_eq_none_iff {result : EngineResult} :
    s.respond? r p result = none ↔ HistogramTooLong r result := by
  unfold respond? HistogramTooLong
  rw [Option.map_eq_none_iff, Aggregation.build?_eq_none_iff, Histogram.ofFacets_eq_crash_iff]

theorem keys_aggregations_of_respond? {result : EngineResult} {response : Response}
    (h : s.respond? r p result = some response) :
    response.aggregations.keys = (r.aggregations.map BucketDefinition.name).eraseDups := by
  obtain ⟨aggregations, haggregations, rfl⟩ := Option.map_eq_some_iff.mp h
  exact Aggregation.keys_of_build? haggregations

theorem answerTo_eq_error_iff {given : Except Fault EngineResult} {fault : Fault} :
    s.answerTo r p given = .error fault ↔ given = .error fault := by
  cases given with
  | error other => simp [answerTo]
  | ok result =>
      obtain ⟨-, he⟩ | ⟨response, -, he, -⟩ := s.answerTo_ok_cases r p result <;> simp [he]

/-- For a result there is a response with one aggregation for each requested name, if there is room
for the histogram. -/
theorem answerTo_ok (s : Service) (r : SearchRequest) (p : Paging) (result : EngineResult) :
    (HistogramTooLong r result → s.answerTo r p (.ok result) = .crash) ∧
      (¬ HistogramTooLong r result → ∃ response, s.answerTo r p (.ok result) = .ok response ∧
        response.aggregations.keys = (r.aggregations.map BucketDefinition.name).eraseDups) := by
  rw [← respond?_eq_none_iff (s := s) (p := p)]
  obtain ⟨hnone, he⟩ | ⟨response, hresponse, he, -⟩ := s.answerTo_ok_cases r p result
  · exact ⟨fun _ => he, fun h => absurd hnone h⟩
  · refine ⟨fun h => ?_, fun _ => ⟨response, he, keys_aggregations_of_respond? hresponse⟩⟩
    rw [hresponse] at h
    cases h

end

/-- Only paging that is not valid and a failed call of the engine are answered with errors. The
program ends where there is no room for the facets of the scope, and then the engine is not called,
or for the ranges of a histogram. In all other cases a search answers with one aggregation for each
requested name. -/
theorem search_outcome (s : Service) (engine : EngineCall → Except Fault EngineResult)
    {r : SearchRequest} (hoffset : r.offset < Text.wordLimit) :
    let crowded := FacetsTooLong s.config s.lookups (r.resolvedScope s.lookups)
    (InvalidPaging r → (s.search engine r).calls = [] ∧
      ∃ cause, (s.search engine r).answer = .error (.invalidArgument cause)) ∧
    (¬ InvalidPaging r → crowded →
      (s.search engine r).calls = [] ∧ (s.search engine r).answer = .crash) ∧
    (¬ InvalidPaging r → ¬ crowded →
      ∃ call, (s.search engine r).calls = [call] ∧ call.index = r.index ∧
      (∀ fault, (s.search engine r).answer = .error fault ↔ engine call = .error fault) ∧
      ∀ result, engine call = .ok result →
        (HistogramTooLong r result → (s.search engine r).answer = .crash) ∧
        (¬ HistogramTooLong r result → ∃ response, (s.search engine r).answer = .ok response ∧
          response.aggregations.keys =
            (r.aggregations.map BucketDefinition.name).eraseDups)) := by
  intro crowded
  refine ⟨fun hinvalid => ?_, fun hvalid hcrowded => ?_, fun hvalid hroom => ?_⟩
  · obtain ⟨cause, hcause⟩ := ofOffset_of_invalid hinvalid
    rw [search_of_invalid engine hcause]
    exact ⟨rfl, cause, rfl⟩
  · obtain ⟨p, hp⟩ := ofOffset_of_valid hoffset hvalid
    rw [search_of_crash engine hp (callFor?_eq_none_iff.mpr hcrowded)]
    exact ⟨rfl, rfl⟩
  · obtain ⟨p, hp⟩ := ofOffset_of_valid hoffset hvalid
    obtain ⟨call, hcall⟩ := Option.ne_none_iff_exists'.mp (mt callFor?_eq_none_iff.mp hroom)
    obtain ⟨compiled, -, rfl⟩ := exists_compiled_of_callFor? hcall
    rw [search_of_call engine hp hcall]
    refine ⟨_, rfl, rfl, fun fault => answerTo_eq_error_iff, fun result hresult => ?_⟩
    dsimp only
    rw [hresult]
    exact answerTo_ok s r p result

/-- Every lookup fails, the range filter on prices is left and the last offset is asked for: the
engine is called all the same, and both aggregations are answered. -/
theorem search_outcome_without_lookups :
    let s : Service := {
      config := { facets := { common := ["price", "color"] } }
      lookups := { scope := fun d => .error (.scopeNotFound d.value),
                   priceKey := fun scope => .error (.priceKeyUnavailable scope),
                   label := fun _ _ => none, optionId := fun _ _ => none,
                   paths := fun _ _ => ∅ } }
    let r : SearchRequest := {
      index := "products"
      dimensions := [⟨"scope", "default"⟩]
      query := .bool [("price", .filter (.ofRange "price" (some 10) none)),
        ("color", .filter (.ofTerm "color" "49"))] [] []
      aggregations := [{ name := "prices", field := "price", kind := .dynamic },
        { name := "colors", field := "color", kind := .term }]
      offset := Text.wordLimit - 1
      size := 2 }
    let engine : EngineCall → Except Fault EngineResult := fun _ => .ok { hitCount := 1 }
    r.offset < Text.wordLimit ∧ ∃ call response, (s.search engine r).calls = [call] ∧
      (s.search engine r).answer = .ok response ∧
      response.aggregations.keys = ["prices", "colors"] := by
  intro s r engine
  have hoffset : r.offset < Text.wordLimit := by
    change Text.wordLimit - 1 < Text.wordLimit
    decide
  have hvalid : ¬ InvalidPaging r := by
    rintro (hsize | ⟨hsize, -⟩) <;> cases hsize
  have hroom : ¬ FacetsTooLong s.config s.lookups (r.resolvedScope s.lookups) := by
    decide +kernel
  have hcounted : ¬ HistogramTooLong r { hitCount := 1 } := by
    rintro ⟨-, -, counts, least, greatest, step, hcounts, -⟩
    cases hcounts
  obtain ⟨call, hcalls, -, -, hanswer⟩ := (search_outcome s engine hoffset).2.2 hvalid hroom
  obtain ⟨response, hresponse, hkeys⟩ := (hanswer _ rfl).2 hcounted
  exact ⟨hoffset, call, response, hcalls, hresponse, hkeys⟩

/-- Room for one facet for each level of categories is set aside before the engine is called, though
no categories are shown. The prices of a result are spread so far that the last bound of their
ranges is beyond the doubles. -/
theorem search_crashes_on_levels_and_on_ranges :
    let lookups := ({} : Tables).lookups
    let crowded : Service := {
      config := { categoryLevels := 9223372036854775808, facets := { common := ["color"] } }
      lookups }
    let s : Service := { config := {}, lookups }
    let r : SearchRequest := {
      index := "products", query := .bool [] [] [], size := 20
      aggregations := [{ name := "prices", field := "price", kind := .dynamic }] }
    let result : EngineResult := {
      hitCount := 2
      facets := .ofList [("price.USD.default", .ofList [("0", 1), ("1.7e308", 1)])] }
    let engine : EngineCall → Except Fault EngineResult := fun _ => .ok result
    ((crowded.search engine r).calls = [] ∧ (crowded.search engine r).answer = .crash) ∧
      (s.search engine r).calls.map EngineCall.index = ["products"] ∧
        (s.search engine r).answer = .crash := by
  intro lookups crowded s r result engine
  have hp : Paging.ofOffset r.offset r.size = .ok (Paging.moved 1 20) := by
    change Paging.ofOffset 0 20 = .ok (Paging.moved 1 20)
    decide
  have hlong : FacetsTooLong crowded.config crowded.lookups (r.resolvedScope crowded.lookups) := by
    decide +kernel
  have hroom : ¬ FacetsTooLong s.config s.lookups (r.resolvedScope s.lookups) := by
    decide +kernel
  have hranges : Histogram.ofFacets Scale.defaultBuckets result.facets = .crash := by
    decide +kernel
  have hhistogram : HistogramTooLong r result :=
    ⟨⟨_, List.mem_singleton.mpr rfl, rfl⟩, Histogram.ofFacets_eq_crash_iff.mp hranges⟩
  have hcrash := (answerTo_ok s r (Paging.moved 1 20) result).1 hhistogram
  obtain ⟨call, hcall⟩ := Option.ne_none_iff_exists'.mp
    (mt (callFor?_eq_none_iff (p := Paging.moved 1 20)).mp hroom)
  obtain ⟨compiled, -, rfl⟩ := exists_compiled_of_callFor? hcall
  rw [search_of_crash engine hp (callFor?_eq_none_iff.mpr hlong), search_of_call engine hp hcall]
  refine ⟨⟨rfl, rfl⟩, rfl, ?_⟩
  dsimp only
  exact hcrash

end FacetedSearch.Service
