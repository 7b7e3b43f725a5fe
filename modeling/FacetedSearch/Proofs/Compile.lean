import FacetedSearch.Compile
import FacetedSearch.Proofs.Stage

/-!
# Compiled requests

The parameters of a request before any filter is translated, entry by entry, and what the
pipeline leaves of them.
-/

namespace FacetedSearch

namespace Params

theorem natural?_of_get? {p : Params} {name : String} {n : ℕ}
    (h : p.get? name = some (.ofNat n)) : p.natural? name = some n := by
  unfold natural?
  rw [h]
  simp [Json.Value.ofNat]

end Params

namespace SearchRequest

open OrderedMap

/-- The entries before the families: paging, facets, the limit of their values. -/
def pageEntries (config : Config) (p : Paging) (facets : List String) :
    List (String × Json.Value) :=
  [(Params.hitsPerPage, .ofNat p.pageSize), (Params.page, .ofNat p.enginePage),
    (Params.facets, .ofStrings facets),
    (Params.maxValuesPerFacet, .ofNat config.maxValuesPerFacet)]

def queryEntries (r : SearchRequest) : List (String × Json.Value) :=
  r.text?.toList.map fun text => (Params.query, .string text)

theorem entries_seed (r : SearchRequest) (config : Config) (p : Paging) (facets : List String) :
    (r.seed config p facets).entries =
      pageEntries config p facets ++
        (Params.ruleContexts, .ofStrings [config.ruleContext]) :: r.queryEntries := by
  have hpage : ((((∅ : Params).insert Params.hitsPerPage (.ofNat p.pageSize)).insert
      Params.page (.ofNat p.enginePage)).insert
      Params.facets (.ofStrings facets)).insert
      Params.maxValuesPerFacet (.ofNat config.maxValuesPerFacet) =
      ⟨pageEntries config p facets, by simp [pageEntries]; decide⟩ := ext_entries rfl
  have hnew : Params.ruleContexts ∉ (pageEntries config p facets).map Prod.fst := by
    simp [pageEntries]; decide
  unfold seed queryEntries
  rw [hpage]
  dsimp only
  cases r.text? with
  | none => exact Params.entries_append_of_not_mem hnew config.ruleContext
  | some text =>
      dsimp only
      rw [entries_insert, Params.entries_append_of_not_mem hnew, putEntry_of_not_mem]
      · simp
      · simp [pageEntries]; decide

theorem get?_seed_of_mem {r : SearchRequest} {config : Config} {p : Paging} {facets : List String}
    {e : String × Json.Value} (h : e ∈ pageEntries config p facets) :
    (r.seed config p facets).get? e.1 = some e.2 := by
  rw [get?_eq_some_iff, entries_seed]
  exact List.mem_append_left _ h

section

variable (r : SearchRequest) (config : Config) (l : Lookups) (p : Paging) (scope : Option Scope)
  (facets : List String)

theorem get?_compileWith_of_not_mem_families {key : String} (h : key ∉ Stage.families) :
    (r.compileWith config l p scope facets).params.get? key =
      (r.seed config p facets).get? key := by
  unfold compileWith
  dsimp only
  split
  · rfl
  · exact Stage.get?_runAll_of_not_mem_families h config l scope _ _

/-- Whatever the filters are, the entries for the page are sent along. -/
theorem get?_compileWith_of_mem {e : String × Json.Value}
    (h : e ∈ pageEntries config p facets) :
    (r.compileWith config l p scope facets).params.get? e.1 = some e.2 := by
  have hkeys : ∀ key ∈ (pageEntries config p facets).map Prod.fst, key ∉ Stage.families := by
    simp only [pageEntries, List.map_cons, List.map_nil]
    decide
  rw [get?_compileWith_of_not_mem_families _ _ _ _ _ _ (hkeys _ (List.mem_map_of_mem h))]
  exact get?_seed_of_mem h

end

section

variable {r : SearchRequest} {config : Config} {l : Lookups} {p : Paging} {scope : Option Scope}
  {compiled : Compiled}

theorem compileIn?_eq_some_iff :
    r.compileIn? config l p scope = some compiled ↔
      ∃ facets, facetList? config l scope = some facets ∧
        r.compileWith config l p scope facets = compiled :=
  Option.map_eq_some_iff

theorem compileIn?_eq_none_iff :
    r.compileIn? config l p scope = none ↔ facetList? config l scope = none :=
  Option.map_eq_none_iff

/-- Whatever the filters are, the engine is told the page and its size. -/
theorem natural?_compileIn?_hitsPerPage (h : r.compileIn? config l p scope = some compiled) :
    compiled.params.natural? Params.hitsPerPage = some p.pageSize := by
  obtain ⟨facets, -, rfl⟩ := compileIn?_eq_some_iff.mp h
  apply Params.natural?_of_get?
  exact get?_compileWith_of_mem (e := (Params.hitsPerPage, .ofNat p.pageSize)) _ _ _ _ _ _
    (by simp [pageEntries])

theorem natural?_compileIn?_page (h : r.compileIn? config l p scope = some compiled) :
    compiled.params.natural? Params.page = some p.enginePage := by
  obtain ⟨facets, -, rfl⟩ := compileIn?_eq_some_iff.mp h
  apply Params.natural?_of_get?
  exact get?_compileWith_of_mem (e := (Params.page, .ofNat p.enginePage)) _ _ _ _ _ _
    (by simp [pageEntries])

end

end SearchRequest

end FacetedSearch
