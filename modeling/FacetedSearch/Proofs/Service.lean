import FacetedSearch.Proofs.Compile
import FacetedSearch.Proofs.Paging
import FacetedSearch.Service

/-!
# The page that is asked for and the page that is reported

A search calls the engine once if its paging is valid and its facets can be listed, and never
otherwise. The page of the call is the one that contains the requested offset, counted from zero,
and a response reports the same page, counted from one.
-/

namespace FacetedSearch.Service

section

variable {s : Service} {r : SearchRequest} {p : Paging} {call : EngineCall}
  {engine : EngineCall → Except Fault EngineResult}

theorem search_of_invalid (engine : EngineCall → Except Fault EngineResult) {fault : Fault}
    (hp : Paging.ofOffset r.offset r.size = .error fault) :
    s.search engine r = { calls := [], answer := .error fault, service := s } := by
  unfold search
  rw [hp]

theorem search_of_crash (engine : EngineCall → Except Fault EngineResult)
    (hp : Paging.ofOffset r.offset r.size = .ok p) (hcall : s.callFor? r p = none) :
    s.search engine r = { calls := [], answer := .crash, service := s } := by
  unfold search
  rw [hp]
  dsimp only
  rw [hcall]

theorem search_of_call (engine : EngineCall → Except Fault EngineResult)
    (hp : Paging.ofOffset r.offset r.size = .ok p) (hcall : s.callFor? r p = some call) :
    s.search engine r =
      { calls := [call], answer := s.answerTo r p (engine call), service := s } := by
  unfold search
  rw [hp]
  dsimp only
  rw [hcall]

/-- All that a search can do. Whatever it does, it leaves the service as it was. -/
theorem search_cases (s : Service) (engine : EngineCall → Except Fault EngineResult)
    (r : SearchRequest) :
    (∃ fault, Paging.ofOffset r.offset r.size = .error fault ∧
      s.search engine r = { calls := [], answer := .error fault, service := s }) ∨
    ∃ p, Paging.ofOffset r.offset r.size = .ok p ∧
      ((s.callFor? r p = none ∧
        s.search engine r = { calls := [], answer := .crash, service := s }) ∨
      ∃ call, s.callFor? r p = some call ∧
        s.search engine r =
          { calls := [call], answer := s.answerTo r p (engine call), service := s }) := by
  cases hp : Paging.ofOffset r.offset r.size with
  | error fault => exact .inl ⟨fault, rfl, search_of_invalid engine hp⟩
  | ok p =>
      refine .inr ⟨p, rfl, ?_⟩
      cases hcall : s.callFor? r p with
      | none => exact .inl ⟨rfl, search_of_crash engine hp hcall⟩
      | some call => exact .inr ⟨call, rfl, search_of_call engine hp hcall⟩

/-- A search that calls the engine asks for the page of its request, and answers what it makes of
what the engine gives. -/
theorem search_of_mem_calls (h : call ∈ (s.search engine r).calls) :
    ∃ p, Paging.ofOffset r.offset r.size = .ok p ∧ s.callFor? r p = some call ∧
      (s.search engine r).answer = s.answerTo r p (engine call) := by
  obtain ⟨fault, -, he⟩ | ⟨p, hp, ⟨-, he⟩ | ⟨called, hcall, he⟩⟩ := s.search_cases engine r <;>
    rw [he] at h ⊢
  · cases h
  · cases h
  · obtain rfl := List.mem_singleton.mp h
    exact ⟨p, hp, hcall, rfl⟩

theorem exists_compiled_of_callFor? (h : s.callFor? r p = some call) :
    ∃ compiled, r.compileIn? s.config s.lookups p (r.resolvedScope s.lookups) = some compiled ∧
      call = { index := r.index, params := compiled.params } := by
  obtain ⟨compiled, hcompiled, hcall⟩ := Option.map_eq_some_iff.mp h
  exact ⟨compiled, hcompiled, hcall.symm⟩

theorem callFor?_hitsPerPage (h : s.callFor? r p = some call) :
    call.params.natural? Params.hitsPerPage = some p.pageSize := by
  obtain ⟨compiled, hcompiled, rfl⟩ := exists_compiled_of_callFor? h
  exact SearchRequest.natural?_compileIn?_hitsPerPage hcompiled

theorem callFor?_page (h : s.callFor? r p = some call) :
    call.params.natural? Params.page = some p.enginePage := by
  obtain ⟨compiled, hcompiled, rfl⟩ := exists_compiled_of_callFor? h
  exact SearchRequest.natural?_compileIn?_page hcompiled

/-- A result is answered unless its aggregations crash, and its page is the one asked for. -/
theorem answerTo_ok_cases (s : Service) (r : SearchRequest) (p : Paging) (result : EngineResult) :
    (s.respond? r p result = none ∧ s.answerTo r p (.ok result) = .crash) ∨
    ∃ response, s.respond? r p result = some response ∧
      s.answerTo r p (.ok result) = .ok response ∧ response.currentPage = p.pageNumber ∧
      response.pageSize = result.hitsPerPage.getD p.pageSize := by
  unfold answerTo
  cases hresponse : s.respond? r p result with
  | none => exact .inl ⟨rfl, by simp only [hresponse]⟩
  | some response =>
      refine .inr ⟨response, rfl, by simp only [hresponse], ?_⟩
      obtain ⟨aggregations, -, rfl⟩ := Option.map_eq_some_iff.mp hresponse
      exact ⟨rfl, rfl⟩

/-- Whenever a search calls the engine, it asks for the page that contains the requested offset,
and a result is reported as that page unless its aggregations crash. -/
theorem search_page (h : call ∈ (s.search engine r).calls) :
    ∃ page, call.params.natural? Params.hitsPerPage = some r.size ∧
      call.params.natural? Params.page = some page ∧
      page * r.size ≤ r.offset ∧ r.offset < page * r.size + r.size ∧
      ∀ result, engine call = .ok result →
        (s.search engine r).answer = .crash ∨
        ∃ response, (s.search engine r).answer = .ok response ∧
          response.currentPage = page + 1 ∧
          (result.hitsPerPage = none → response.pageSize = r.size) := by
  obtain ⟨p, hp, hcall, hanswer⟩ := search_of_mem_calls h
  obtain ⟨hsize, -, -, hmoved⟩ := Paging.ofOffset_eq_ok hp
  have hnumber : p.pageNumber = r.offset / r.size + 1 := congrArg Paging.pageNumber hmoved
  have hpageSize : p.pageSize = r.size := congrArg Paging.pageSize hmoved
  refine ⟨r.offset / r.size, ?_, ?_, Nat.div_mul_le_self _ _, Nat.lt_div_mul_add hsize, ?_⟩
  · rw [callFor?_hitsPerPage hcall, hpageSize]
  · rw [callFor?_page hcall, Paging.enginePage, hnumber, Nat.add_sub_cancel]
  · intro result hresult
    rw [hanswer, hresult]
    obtain ⟨-, hcrash⟩ | ⟨response, -, hok, hcurrent, hreported⟩ := s.answerTo_ok_cases r p result
    · exact .inl hcrash
    · refine .inr ⟨response, hok, hcurrent.trans hnumber, fun hnone => ?_⟩
      rw [hreported, hnone, Option.getD_none, hpageSize]

end

/-- Item 47 with filters in the way: the third page of twenty. -/
theorem search_page_of_item_47 :
    let s : Service := {
      config := { facets := { common := ["color"] } }
      lookups := { scope := fun _ => .ok 1, priceKey := fun _ => .ok ".EUR.default",
                   label := fun _ _ => some "Blue", optionId := fun _ _ => none,
                   paths := fun _ _ => ∅ } }
    let r : SearchRequest := {
      index := "products"
      dimensions := [⟨"scope", "default"⟩]
      query := .bool [("category", .filter (.ofTerm "category_ids" "7")),
        ("price", .filter (.ofRange "price" (some 10) none)),
        ("page", .filter (.ofTerm "color" "49"))] [] []
      offset := 47
      size := 20 }
    let engine : EngineCall → Except Fault EngineResult := fun _ => .ok { hitCount := 50 }
    ∃ call ∈ (s.search engine r).calls,
      call.params.natural? Params.hitsPerPage = some 20 ∧
      call.params.natural? Params.page = some 2 ∧
      ∃ response, (s.search engine r).answer = .ok response ∧
        response.currentPage = 3 ∧ response.pageSize = 20 := by
  intro s r engine
  have hcalls : (s.search engine r).calls ≠ [] := by decide +kernel
  obtain ⟨call, hcall⟩ := List.exists_mem_of_ne_nil _ hcalls
  obtain ⟨page, hsize, hpage, hle, hlt, hanswer⟩ := search_page hcall
  have htwo : page = 2 := by
    simp only [r] at hle hlt
    omega
  subst htwo
  obtain hcrash | ⟨response, hok, hcurrent, hpageSize⟩ := hanswer _ rfl
  · have hnone : (s.search engine r).answer.toOption.isSome := by decide +kernel
    rw [hcrash] at hnone
    cases hnone
  · exact ⟨call, hcall, hsize, hpage, response, hok, hcurrent, hpageSize rfl⟩

end FacetedSearch.Service
