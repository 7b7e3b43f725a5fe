import FacetedSearch.Lookup.Table
import FacetedSearch.Proofs.Compile.Facets
import FacetedSearch.Proofs.Compile.Reference
import FacetedSearch.Proofs.Stage.Runs

/-!
# The facet of prices

The name of a price facet is made of the price key of the scope. The facets of a query and the
conditions on prices both need it and each asks for it on its own. They agree: a range of prices
that is taken becomes conditions on the very facet that stands for the prices in the list, and where
there is no such facet the range is left and a list with prices is empty. A list that there is no
room for is neither: then there are no conditions either.
-/

namespace FacetedSearch

/-- Leading marks are all dropped and nothing else. -/
theorem Text.dropWhile_beq_spec (c : Char) (cs : List Char) :
    ∃ n, cs = List.replicate n c ++ cs.dropWhile (· == c) ∧
      (cs.dropWhile (· == c)).head? ≠ some c := by
  induction cs with
  | nil => exact ⟨0, rfl, by simp⟩
  | cons d ds ih =>
      rw [List.dropWhile_cons]
      split_ifs with hd
      · obtain ⟨n, hds, hhead⟩ := ih
        refine ⟨n + 1, ?_, hhead⟩
        rw [List.replicate_succ, List.cons_append, ← hds, beq_iff_eq.mp hd]
      · exact ⟨0, rfl, by simpa using hd⟩

/-- The facet of the prices in a scope: after `price.` comes what the price key says after its
leading dots. -/
def IsPriceFacet (l : Lookups) (scope : Option Scope) (facet : String) : Prop :=
  ∃ (s : Scope) (suffix : String) (dots : ℕ) (rest : List Char),
    scope = some s ∧ l.priceKey s = .ok suffix ∧
      suffix.toList = List.replicate dots '.' ++ rest ∧ rest.head? ≠ some '.' ∧
      facet = "price." ++ String.ofList rest

/-- There is no scope, or its price key is not available. -/
def NoPriceKey (l : Lookups) (scope : Option Scope) : Prop :=
  scope = none ∨ ∃ s fault, scope = some s ∧ l.priceKey s = .error fault

theorem isPriceFacet_of_priceFacet? {l : Lookups} {scope : Option Scope} {facet : String}
    (h : priceFacet? l scope = some facet) : IsPriceFacet l scope facet := by
  cases scope with
  | none => cases h
  | some s =>
      cases hkey : l.priceKey s with
      | error fault => simp [priceFacet?, hkey] at h
      | ok suffix =>
          obtain ⟨dots, hsuffix, hrest⟩ := Text.dropWhile_beq_spec '.' suffix.toList
          refine ⟨s, suffix, dots, _, rfl, hkey, hsuffix, hrest, ?_⟩
          simpa [priceFacet?, hkey] using h.symm

theorem priceFacet?_eq_none_iff {l : Lookups} {scope : Option Scope} :
    priceFacet? l scope = none ↔ NoPriceKey l scope := by
  unfold NoPriceKey
  cases scope with
  | none => simp [priceFacet?]
  | some s => cases hkey : l.priceKey s <;> simp [priceFacet?, hkey]

/-- The conditions that a range puts on a number, the one on its lower bound first. -/
def RangeFilter.conditions (r : RangeFilter) : List String :=
  (r.lower.map fun x => (if r.lowerInclusive then ">=" else ">") ++ Decimal.fixed 3 x).toList ++
  (r.upper.map fun x => (if r.upperInclusive then "<=" else "<") ++ Decimal.fixed 3 x).toList

namespace Reference

variable {config : Config} {l : Lookups} {scope : Option Scope} {m : FilterMap}
  {range : RangeFilter}

/-- A range of prices that is taken has found the facet of the prices. -/
theorem exists_priceFacet?_of_taken (hm : m.get? "price" = some (.range range))
    (h : taken config l scope m "price" (.range range) = true) :
    ∃ facet, priceFacet? l scope = some facet ∧ priceStage l scope m = .found facet range := by
  have hstage : priceStage l scope m ≠ .failing ∧ priceStage l scope m ≠ .idle := by
    simpa [taken] using h
  unfold priceStage at hstage ⊢
  cases scope with
  | none =>
      rw [hm] at hstage
      exact absurd rfl hstage.2
  | some s =>
      cases hkey : l.priceKey s with
      | error fault =>
          simp only [hm, hkey] at hstage
          exact absurd rfl hstage.1
      | ok suffix =>
          have hfacet : priceFacet? l (some s) =
              some ("price." ++ String.ofList (suffix.toList.dropWhile (· == '.'))) := by
            rw [priceFacet?, hkey]
          exact ⟨_, hfacet, by simp only [hm, hkey]⟩

theorem priceClauses_of_found {facet : String} (h : priceStage l scope m = .found facet range) :
    priceClauses l scope m = range.conditions.map (facet ++ ·) := by
  unfold priceClauses RangeFilter.conditions
  simp only [h, List.map_append, Option.toList_map, List.map_map, Function.comp_def,
    String.append_assoc]

/-- The clauses of the categories are not numeric. -/
theorem ofFamily_clauses_category (m : FilterMap) :
    Params.ofFamily Params.numericFilters
      (m.clauses (Stage.only "category" Stage.categoryClauses?)) = [] := by
  rw [clauses_category]
  rcases categoryValues_cases m with h | ⟨v, h⟩
  · rw [h]
    rfl
  · have hne : Params.facetFilters ≠ Params.numericFilters ∧
        Params.ruleContexts ≠ Params.numericFilters := by decide
    simp [h, Params.ofFamily, hne.1, hne.2]

theorem clauses_numericFilters_compileWith (r : SearchRequest) (config : Config) (l : Lookups)
    (p : Paging) (scope : Option Scope) (facets : List String) :
    (r.compileWith config l p scope facets).params.clauses Params.numericFilters =
      numericFilters config l scope (filters r) := by
  have hseed : (r.seed config p facets).clauses Params.numericFilters = [] := by
    have hnew : Params.numericFilters ∉ (r.seed config p facets).keys := by
      apply not_mem_keys_seed
      simp
    rw [Params.clauses, OrderedMap.get?_eq_none_iff.mpr hnew]
  rw [compileWith_eq]
  simp only [← Params.appendClauses_map, Params.clauses_appendClauses, hseed,
    ofFamily_clauses_category, Params.ofFamily_map_self, List.nil_append]
  rw [Params.ofFamily_map_of_ne (by decide), List.append_nil]

/-- A range of prices that is not left has become conditions on the facet of the prices. -/
theorem exists_priceFacet?_of_remainder {r : SearchRequest} {p : Paging} {facets : List String}
    (hrange : (filters r).get? "price" = some (.range range))
    (hgone : (r.compileWith config l p scope facets).remainder.get? "price" = none) :
    ∃ facet, priceFacet? l scope = some facet ∧
      (r.compileWith config l p scope facets).params.clauses Params.numericFilters =
        range.conditions.map (facet ++ ·) ++ visibilityClauses config (filters r) := by
  have htaken : taken config l scope (filters r) "price" (.range range) = true := by
    rw [remainder_compileWith, OrderedMap.get?_filter, hrange, Option.filter_some] at hgone
    simpa using hgone
  obtain ⟨facet, hfacet, hfound⟩ := exists_priceFacet?_of_taken hrange htaken
  refine ⟨facet, hfacet, ?_⟩
  rw [clauses_numericFilters_compileWith, numericFilters, priceClauses_of_found hfound, hfound,
    if_neg (by simp)]

end Reference

/-- Unless prices are listed and have no key, the list has the facets of all names. -/
theorem exists_listedFacets_eq {config : Config} {l : Lookups} {scope : Option Scope}
    (h : ¬ ("price" ∈ configuredFacets config scope ∧ NoPriceKey l scope)) :
    ∃ facet, ("price" ∈ configuredFacets config scope → IsPriceFacet l scope facet) ∧
      listedFacets config l scope =
        (configuredFacets config scope).flatMap (expanded config (some facet)) := by
  unfold listedFacets
  rw [if_neg (by rwa [priceFacet?_eq_none_iff])]
  cases hfacet : priceFacet? l scope with
  | some facet => exact ⟨facet, fun _ => isPriceFacet_of_priceFacet? hfacet, rfl⟩
  | none =>
      have hprice : "price" ∉ configuredFacets config scope := fun hprice =>
        h ⟨hprice, priceFacet?_eq_none_iff.mp hfacet⟩
      exact ⟨"", fun h => absurd h hprice, flatMap_expanded_of_price_not_mem hprice config _ _⟩

/-- The list of facets crashes exactly if there is no room for it, and else it is all or nothing:
with prices in it and no price key it is empty, and otherwise it has the facets of all configured
names in their order. Requests are compiled then. Whenever a range of prices is taken, the
conditions that it becomes are all on the facet that stands for the prices in this list, the list is
sent along, and what else is numeric comes from the visibility. -/
theorem facetList?_agrees_with_prices (config : Config) (l : Lookups) (scope : Option Scope) :
    let names := configuredFacets config scope
    (facetList? config l scope = none ↔ FacetsTooLong config l scope) ∧
    ∀ facets, facetList? config l scope = some facets →
      ("price" ∈ names ∧ NoPriceKey l scope → facets = []) ∧
      (¬ ("price" ∈ names ∧ NoPriceKey l scope) →
        ∃ facet, ("price" ∈ names → IsPriceFacet l scope facet) ∧
          facets = names.flatMap (expanded config (some facet))) ∧
      ∀ (r : SearchRequest) (p : Paging) (range : RangeFilter),
        (Reference.filters r).get? "price" = some (.range range) →
        ∃ compiled, r.compileIn? config l p scope = some compiled ∧
          (compiled.remainder.get? "price" = none →
            ∃ facet, IsPriceFacet l scope facet ∧
              facets = names.flatMap (expanded config (some facet)) ∧
              compiled.params.get? Params.facets = some (.ofStrings facets) ∧
              compiled.params.clauses Params.numericFilters =
                range.conditions.map (facet ++ ·) ++
                  Reference.visibilityClauses config (Reference.filters r)) := by
  intro names
  refine ⟨facetList?_eq_none_iff, fun facets hlist => ?_⟩
  have hfacets : facets = listedFacets config l scope := eq_of_facetList? hlist
  refine ⟨?_, ?_, ?_⟩
  · rintro ⟨hprice, hkey⟩
    rw [hfacets, listedFacets, if_pos ⟨hprice, priceFacet?_eq_none_iff.mpr hkey⟩]
  · rw [hfacets]
    exact exists_listedFacets_eq
  · intro r p range hrange
    refine ⟨_, SearchRequest.compileIn?_eq_some_iff.mpr ⟨facets, hlist, rfl⟩, fun hgone => ?_⟩
    obtain ⟨facet, hfacet, hclauses⟩ := Reference.exists_priceFacet?_of_remainder hrange hgone
    refine ⟨facet, isPriceFacet_of_priceFacet? hfacet, ?_, ?_, hclauses⟩
    · rw [hfacets, listedFacets, hfacet, if_neg (by simp)]
    · exact r.get?_compileWith_of_mem config l p scope facets
        (e := (Params.facets, .ofStrings facets)) (by simp [SearchRequest.pageEntries])

/-- A scope with facets of its own, prices twice among them, and a price key that begins with
dots. -/
theorem facetList?_agrees_with_prices_of_dotted_key :
    let config : Config := {
      categoryLevels := 1
      facets := { common := ["size"],
                  byScope := .ofList [(2, ["price", "categories", "color", "price"])] } }
    let l := ({ priceKeys := .ofList [(2, "..EUR.retail")] } : Tables).lookups
    let range : RangeFilter := {
      field := "price", lower := some 10, upper := some 50, upperInclusive := false }
    let r : SearchRequest := {
      index := "products"
      query := .bool [("price", .filter (.range range)),
        ("visibility", .filter (.ofTerm "visibility" "3"))] [] [] }
    (Reference.filters r).get? "price" = some (.range range) ∧
      facetList? config l (some 2) =
        some ["price.EUR.retail", "categories.level0", "color", "price.EUR.retail"] ∧
      ∃ compiled, r.compileIn? config l (Paging.mk 1 20 0) (some 2) = some compiled ∧
        compiled.remainder.get? "price" = none ∧
        ∃ facet, IsPriceFacet l (some 2) facet ∧
          compiled.params.clauses Params.numericFilters =
            [facet ++ ">=10.000", facet ++ "<50.000"] ++ ["visibility_search=1"] := by
  intro config l range r
  have hrange : (Reference.filters r).get? "price" = some (.range range) := rfl
  have hlist : facetList? config l (some 2) =
      some ["price.EUR.retail", "categories.level0", "color", "price.EUR.retail"] := by
    decide +kernel
  have hconditions : range.conditions = [">=10.000", "<50.000"] := by decide +kernel
  have hvisible : Reference.visibilityClauses config (Reference.filters r) =
      ["visibility_search=1"] := by decide +kernel
  obtain ⟨-, hlists⟩ := facetList?_agrees_with_prices config l (some 2)
  obtain ⟨compiled, hcompiled, htaken⟩ := (hlists _ hlist).2.2 r (Paging.mk 1 20 0) range hrange
  have hgone : compiled.remainder.get? "price" = none := by
    obtain ⟨facets, -, rfl⟩ := SearchRequest.compileIn?_eq_some_iff.mp hcompiled
    rw [Reference.remainder_compileWith]
    decide +kernel
  obtain ⟨facet, hfacet, -, -, hclauses⟩ := htaken hgone
  refine ⟨hrange, hlist, compiled, hcompiled, hgone, facet, hfacet, ?_⟩
  rw [hclauses, hconditions, hvisible]
  rfl

/-- Room for one facet for each level of categories is set aside, though none is configured. -/
theorem facetList?_crashes_on_many_levels :
    let config : Config := {
      categoryLevels := 9223372036854775808, facets := { common := ["color"] } }
    facetList? config ({} : Tables).lookups none = none := by
  decide +kernel

end FacetedSearch
