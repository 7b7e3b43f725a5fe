import FacetedSearch.Lookup.Table
import FacetedSearch.Proofs.Compile.Facets

/-!
# The reference translation

What a request compiles to, read off its clauses at once: neither stages nor a map that shrinks
occur in it. A filter is looked at by its shape and its name, and the only fact about other
filters that matters is whether the price range cannot be expressed; then all that comes after
prices is left out. The names of filters and parameters stand here as the engine and the storefront
spell them. Compiling agrees with it on every parameter, on the order of the parameters, and on what
is left, and crashes where there is no room for the facets.
-/

namespace FacetedSearch.Reference

open OrderedMap

/-! ## Clauses -/

/-- The filters among some clauses. -/
def filterClauses : List (String × QueryNode) → List (String × FilterNode)
  | [] => []
  | (name, .filter node) :: clauses => (name, node) :: filterClauses clauses
  | (_, .matching _) :: clauses => filterClauses clauses
  | (_, .bool _ _ _) :: clauses => filterClauses clauses

/-- The texts that some clauses look for. -/
def texts : List (String × QueryNode) → List String
  | [] => []
  | (_, .matching query) :: clauses => query.text :: texts clauses
  | (_, .filter _) :: clauses => texts clauses
  | (_, .bool _ _ _) :: clauses => texts clauses

/-- The filters that all have to hold: those among the clauses of a boolean query that must. -/
def filters (r : SearchRequest) : FilterMap :=
  match r.query with
  | .bool must _ _ => .ofList (filterClauses must)
  | .matching _ => ∅
  | .filter _ => ∅

/-- The text to look for: the first one among the clauses of a boolean query that should or must
hold. -/
def text? (r : SearchRequest) : Option String :=
  match r.query with
  | .bool must should _ => (texts should ++ texts must).head?
  | .matching _ => none
  | .filter _ => none

theorem filterClauses_eq (clauses : List (String × QueryNode)) :
    filterClauses clauses = clauses.filterMap fun c => c.2.filter?.map (c.1, ·) := by
  induction clauses with
  | nil => rfl
  | cons c clauses ih =>
      obtain ⟨name, node⟩ := c
      cases node with
      | bool must should mustNot => exact ih
      | matching query => exact ih
      | filter node => exact congrArg ((name, node) :: ·) ih

theorem head?_texts (clauses : List (String × QueryNode)) :
    (texts clauses).head? = clauses.findSome? fun c => c.2.matching?.map (·.text) := by
  induction clauses with
  | nil => rfl
  | cons c clauses ih =>
      obtain ⟨name, node⟩ := c
      cases node with
      | bool must should mustNot => exact ih
      | matching query => rfl
      | filter node => exact ih

theorem filters_eq (r : SearchRequest) : r.filters?.getD ∅ = filters r := by
  unfold SearchRequest.filters? filters
  cases r.query with
  | bool must should mustNot => exact congrArg OrderedMap.ofList (filterClauses_eq must).symm
  | matching query => rfl
  | filter node => rfl

theorem text?_eq (r : SearchRequest) : r.text? = text? r := by
  unfold SearchRequest.text? text?
  cases r.query with
  | bool must should mustNot =>
      change (should ++ must).findSome? _ = (texts should ++ texts must).head?
      rw [List.findSome?_append, List.head?_append, head?_texts, head?_texts]
  | matching query => rfl
  | filter node => rfl

/-! ## Filters -/

/-- What becomes of the price range. Without a range or a scope nothing does. -/
inductive PriceStage where
  | idle
  | found (facet : String) (range : RangeFilter)
  | failing
deriving DecidableEq

section

variable (config : Config) (l : Lookups) (scope : Option Scope) (m : FilterMap)

def priceStage : PriceStage :=
  match m.get? "price", scope with
  | some (.range r), some s =>
    match l.priceKey s with
    | .ok suffix =>
      .found ("price." ++ String.ofList (suffix.toList.dropWhile (· == '.'))) r
    | .error _ => .failing
  | _, _ => .idle

def categoryValues : List String :=
  match m.get? "category" with
  | some (.term t) => [t.value]
  | _ => []

def visibilityValues : List String :=
  match m.get? "visibility" with
  | some (.term t) => [t.value]
  | some (.values v) => v.values
  | _ => []

/-- The facet value that a term asks for: its field is configured and its option has a label. -/
def labelled? (t : TermFilter) : Option String :=
  if t.field ∈ configuredFacets config scope then
    match l.label t.field t.value with
    | some label => if label = "" then none else some (t.field ++ ":" ++ label)
    | none => none
  else none

def attributeClauses : List String :=
  m.entries.filterMap fun e =>
    match e.2 with
    | .term t => if e.1 = "category" ∨ e.1 = "visibility" then none else labelled? config l scope t
    | _ => none

def ruleContexts : List String :=
  config.ruleContext :: (categoryValues m).map ("magento-category-" ++ ·)

def facetFilters : List String :=
  (categoryValues m).map ("categoryIds:" ++ ·) ++
    if priceStage l scope m = .failing then [] else attributeClauses config l scope m

/-- The bounds of the price range, the lower one first. -/
def priceClauses : List String :=
  match priceStage l scope m with
  | .found facet r =>
    r.lower.toList.map (fun x =>
      facet ++ (if r.lowerInclusive then ">=" else ">") ++ Decimal.fixed 3 x) ++
    r.upper.toList.map (fun x =>
      facet ++ (if r.upperInclusive then "<=" else "<") ++ Decimal.fixed 3 x)
  | _ => []

/-- A code that stands for both visibilities is the one of the search. -/
def visibilityClauses : List String :=
  (if config.visibility.searchCode ∈ visibilityValues m then
    [config.visibility.searchField ++ "=1"] else []) ++
  (if ∃ v ∈ visibilityValues m,
      v = config.visibility.catalogCode ∧ v ≠ config.visibility.searchCode then
    [config.visibility.catalogField ++ "=1"] else [])

def numericFilters : List String :=
  priceClauses l scope m ++
    if priceStage l scope m = .failing then [] else visibilityClauses config m

/-- The families, the one that comes first being the one that gets the first clause. -/
def familyEntries : List (String × Json.Value) :=
  let facets := Params.familyEntries "facetFilters" (facetFilters config l scope m)
  let numerics := Params.familyEntries "numericFilters" (numericFilters config l scope m)
  if categoryValues m = [] then numerics ++ facets else facets ++ numerics

/-- Whether a filter became clauses. -/
def taken (name : String) : FilterNode → Bool
  | .range _ => name = "price" ∧ priceStage l scope m ≠ .failing ∧ priceStage l scope m ≠ .idle
  | .values _ => name = "visibility" ∧ priceStage l scope m ≠ .failing
  | .term t =>
    name = "category" ∨ priceStage l scope m ≠ .failing ∧
      (name = "visibility" ∨ (labelled? config l scope t).isSome)

end

/-- All parameters in their order. Pages are counted from zero here. -/
def entries (r : SearchRequest) (config : Config) (l : Lookups) (p : Paging)
    (scope : Option Scope) : List (String × Json.Value) :=
  ("hitsPerPage", .ofNat p.pageSize) :: ("page", .ofNat (p.pageNumber - 1)) ::
    ("facets", .ofStrings (listedFacets config l scope)) ::
    ("maxValuesPerFacet", .ofNat config.maxValuesPerFacet) ::
    ("ruleContexts", .ofStrings (ruleContexts config (filters r))) ::
    ((text? r).toList.map (fun text => ("query", .string text)) ++
      familyEntries config l scope (filters r))

variable {config : Config} {l : Lookups} {scope : Option Scope} {m : FilterMap}

/-! ## The pipeline -/

theorem isSome_fault?_iff (l : Lookups) (scope : Option Scope) (m : FilterMap) :
    (Stage.priceRange.fault? l scope m).isSome ↔ priceStage l scope m = .failing := by
  unfold Stage.fault? priceStage
  cases m.get? "price" with
  | none => simp
  | some n =>
      cases n with
      | term t => simp
      | values v => simp
      | range r =>
          cases scope with
          | none => simp
          | some s =>
              simp only [Lookups.priceFacet_eq]
              cases l.priceKey s <;> simp [Except.map]

theorem clauses_category (m : FilterMap) :
    m.clauses (Stage.only "category" Stage.categoryClauses?) =
      (categoryValues m).flatMap fun v =>
        [(Params.facetFilters, "categoryIds:" ++ v),
          (Params.ruleContexts, "magento-category-" ++ v)] := by
  rw [Stage.clauses_only]
  unfold categoryValues
  cases m.get? "category" with
  | none => rfl
  | some n => cases n <;> rfl

theorem clauses_priceRange (l : Lookups) (scope : Option Scope) (m : FilterMap) :
    m.clauses (Stage.only "price" (Stage.priceClauses? l scope)) =
      (priceClauses l scope m).map (Params.numericFilters, ·) := by
  rw [Stage.clauses_only]
  unfold priceClauses priceStage
  cases m.get? "price" with
  | none => rfl
  | some n =>
      cases n with
      | term t => rfl
      | values v => rfl
      | range r =>
          cases scope with
          | none => rfl
          | some s =>
              simp only [Option.bind_some, Stage.priceClauses?, Lookups.priceFacet_eq]
              cases l.priceKey s with
              | error fault => rfl
              | ok suffix =>
                  simp only [Except.map, Except.toOption, Option.map_some, Option.getD_some,
                    Stage.priceClauses, Option.toList_map, Text.dropLeading]

theorem clauses_visibility (config : Config) (m : FilterMap) :
    m.clauses (Stage.only "visibility" (Stage.visibilityClauses? config.visibility)) =
      (visibilityClauses config m).map (Params.numericFilters, ·) := by
  have hcodes (codes : List String) : Stage.visibilityClauses config.visibility codes =
      (if config.visibility.searchCode ∈ codes then
        [config.visibility.searchField ++ "=1"] else []) ++
      (if ∃ v ∈ codes,
          v = config.visibility.catalogCode ∧ v ≠ config.visibility.searchCode then
        [config.visibility.catalogField ++ "=1"] else []) := by
    simp [Stage.visibilityClauses, Stage.wantsSearch, Stage.wantsCatalog, and_comm]
  rw [Stage.clauses_only]
  unfold visibilityClauses visibilityValues
  cases m.get? "visibility" with
  | none => simp
  | some n =>
      cases n with
      | term t => exact congrArg (List.map _) (hcodes [t.value])
      | range r => simp [Stage.visibilityClauses?, Stage.visibilityCodes?]
      | values v => exact congrArg (List.map _) (hcodes v.values)

theorem attributeClause?_term (config : Config) (l : Lookups) (scope : Option Scope)
    (t : TermFilter) :
    Stage.attributeClause? config l scope (.term t) = labelled? config l scope t := by
  unfold Stage.attributeClause? labelled? FacetSettings.isConfigured
  rw [forScope_eq]
  by_cases hfield : t.field ∈ configuredFacets config scope
  · simp only [List.contains_iff_mem, hfield, if_true, nonEmpty]
    cases l.label t.field t.value with
    | none => rfl
    | some label => by_cases hlabel : label = "" <;> simp [hlabel]
  · simp [hfield]

/-- The attributes are what the three stages before have left. A term under another name than
theirs has been left by all of them. -/
theorem clauses_attribute (config : Config) (l : Lookups) (scope : Option Scope) (m : FilterMap) :
    (((m.remainder (Stage.only "category" Stage.categoryClauses?)).remainder
      (Stage.only "price" (Stage.priceClauses? l scope))).remainder
      (Stage.only "visibility" (Stage.visibilityClauses? config.visibility))).clauses
        (fun _ n => Stage.attributeClauses? config l scope n) =
      (attributeClauses config l scope m).map (Params.facetFilters, ·) := by
  simp only [FilterMap.clauses_remainder]
  unfold FilterMap.clauses attributeClauses
  induction m.entries with
  | nil => rfl
  | cons e es ih =>
      obtain ⟨k, n⟩ := e
      rw [List.flatMap_cons, ih, List.filterMap_cons]
      cases n with
      | range r => simp [Stage.attributeClauses?, Stage.attributeClause?]
      | values v => simp [Stage.attributeClauses?, Stage.attributeClause?]
      | term t =>
          simp only [Stage.only, Stage.categoryClauses?, Stage.priceClauses?,
            Stage.visibilityClauses?, Stage.visibilityCodes?, Stage.attributeClauses?,
            attributeClause?_term]
          by_cases hcategory : k = "category"
          · simp [hcategory]
          · by_cases hvisibility : k = "visibility"
            · simp [hvisibility]
            · simp only [hcategory, hvisibility, or_self, if_false]
              cases labelled? config l scope t <;> simp

/-- Where the price stage fails, the categories are all that is taken. -/
theorem remainder_of_failing (h : priceStage l scope m = .failing) :
    m.remainder (Stage.only "category" Stage.categoryClauses?) =
      m.filter fun k n => !taken config l scope m k n := by
  apply ext_entries
  refine List.filter_congr fun e _ => ?_
  obtain ⟨k, n⟩ := e
  by_cases hk : k = "category" <;> cases n <;>
    simp [Stage.only, hk, taken, h, Stage.categoryClauses?]

theorem isSome_priceClauses?_iff (l : Lookups) (scope : Option Scope) {r : RangeFilter}
    (h : m.get? "price" = some (.range r)) :
    (Stage.priceClauses? l scope (.range r)).isSome ↔
      priceStage l scope m ≠ .failing ∧ priceStage l scope m ≠ .idle := by
  unfold priceStage
  rw [h]
  cases scope with
  | none => simp [Stage.priceClauses?]
  | some s =>
      simp only [Stage.priceClauses?, Option.bind_some, Lookups.priceFacet_eq]
      cases l.priceKey s <;> simp [Except.map, Except.toOption]

theorem remainder_of_not_failing (h : priceStage l scope m ≠ .failing) :
    (((m.remainder (Stage.only "category" Stage.categoryClauses?)).remainder
      (Stage.only "price" (Stage.priceClauses? l scope))).remainder
      (Stage.only "visibility" (Stage.visibilityClauses? config.visibility))).remainder
        (fun _ n => Stage.attributeClauses? config l scope n) =
      m.filter fun k n => !taken config l scope m k n := by
  simp only [FilterMap.remainder, filter_filter]
  apply ext_entries
  refine List.filter_congr fun e he => ?_
  obtain ⟨k, n⟩ := e
  cases n with
  | range r =>
      by_cases hk : k = "price"
      · subst hk
        have hprice := isSome_priceClauses?_iff l scope (get?_eq_some_iff.mpr he)
        rw [Bool.eq_iff_iff]
        simp [Stage.only, taken, Stage.attributeClauses?, Stage.attributeClause?, ← hprice]
      · simp [Stage.only, taken, hk, Stage.attributeClauses?, Stage.attributeClause?,
          Stage.categoryClauses?, Stage.visibilityClauses?, Stage.visibilityCodes?]
  | values v =>
      by_cases hk : k = "visibility" <;>
        simp [Stage.only, taken, hk, h, Stage.attributeClauses?, Stage.attributeClause?,
          Stage.categoryClauses?, Stage.visibilityClauses?, Stage.visibilityCodes?,
          Stage.priceClauses?]
  | term t =>
      by_cases hcategory : k = "category" <;> by_cases hvisibility : k = "visibility" <;>
        simp [Stage.only, taken, hcategory, hvisibility, h, Stage.attributeClauses?,
          attributeClause?_term, Stage.categoryClauses?, Stage.visibilityClauses?,
          Stage.visibilityCodes?, Stage.priceClauses?]

/-- Categories are translated first. They leave the price as it was, so whether the price stage
fails can be read off the filters of the request. -/
theorem state_runAll_pipeline (config : Config) (l : Lookups) (scope : Option Scope) (w : Work) :
    (Stage.runAll config l scope Stage.pipeline w).state =
      if priceStage l scope w.filters = .failing then
        w.translate (Stage.only "category" Stage.categoryClauses?)
      else
        (((w.translate (Stage.only "category" Stage.categoryClauses?)).translate
          (Stage.only "price" (Stage.priceClauses? l scope))).translate
          (Stage.only "visibility" (Stage.visibilityClauses? config.visibility))).translate
            fun _ n => Stage.attributeClauses? config l scope n := by
  have hprice : Stage.priceRange.fault? l scope
      (w.translate (Stage.only "category" Stage.categoryClauses?)).filters =
      Stage.priceRange.fault? l scope w.filters := by
    unfold Stage.fault? Work.translate
    rw [Stage.get?_remainder_only_of_ne (by decide)]
  have hcategory : Stage.category.run config l scope w =
      .done (w.translate (Stage.only "category" Stage.categoryClauses?)) := Stage.run_eq ..
  have hvisibility (w : Work) : Stage.visibility.run config l scope w =
      .done (w.translate (Stage.only "visibility" (Stage.visibilityClauses? config.visibility))) :=
    Stage.run_eq ..
  have hattribute (w : Work) : Stage.attribute.run config l scope w =
      .done (w.translate fun _ n => Stage.attributeClauses? config l scope n) := Stage.run_eq ..
  have hfailing := isSome_fault?_iff l scope w.filters
  simp only [Stage.pipeline, Stage.runAll, hcategory, Attempt.done]
  rw [Stage.run_eq, hprice]
  cases hfault : Stage.priceRange.fault? l scope w.filters with
  | some fault =>
      rw [hfault] at hfailing
      simp only [if_pos (hfailing.mp rfl), Attempt.failed]
  | none =>
      rw [hfault] at hfailing
      have hnot : priceStage l scope w.filters ≠ .failing := fun h => by simp [h] at hfailing
      simp only [if_neg hnot, hvisibility, hattribute, Attempt.done, Stage.translation]

/-- The clauses of the categories come before all others, and the conditions on prices and
visibilities before those on attributes. -/
theorem params_runAll_pipeline (config : Config) (l : Lookups) (scope : Option Scope) (w : Work) :
    (Stage.runAll config l scope Stage.pipeline w).state.params =
      ((w.params.appendClauses (w.filters.clauses
          (Stage.only "category" Stage.categoryClauses?))).appendAll
        Params.numericFilters (numericFilters config l scope w.filters)).appendAll
        Params.facetFilters
          (if priceStage l scope w.filters = .failing then []
            else attributeClauses config l scope w.filters) := by
  rw [state_runAll_pipeline]
  unfold numericFilters
  split_ifs with h
  · have hnone : priceClauses l scope w.filters = [] := by
      unfold priceClauses
      rw [h]
    rw [hnone]
    rfl
  · have hvisibility : ((w.filters.remainder
        (Stage.only "category" Stage.categoryClauses?)).remainder
        (Stage.only "price" (Stage.priceClauses? l scope))).clauses
        (Stage.only "visibility" (Stage.visibilityClauses? config.visibility)) =
        w.filters.clauses
          (Stage.only "visibility" (Stage.visibilityClauses? config.visibility)) := by
      rw [Stage.clauses_only, Stage.clauses_only, Stage.get?_remainder_only_of_ne (by decide),
        Stage.get?_remainder_only_of_ne (by decide)]
    have hprice : (w.filters.remainder
        (Stage.only "category" Stage.categoryClauses?)).clauses
        (Stage.only "price" (Stage.priceClauses? l scope)) =
        w.filters.clauses (Stage.only "price" (Stage.priceClauses? l scope)) := by
      rw [Stage.clauses_only, Stage.clauses_only, Stage.get?_remainder_only_of_ne (by decide)]
    simp only [Work.translate]
    rw [clauses_attribute, hvisibility, hprice, clauses_priceRange, clauses_visibility,
      Params.appendClauses_map, Params.appendClauses_map, Params.appendClauses_map,
      Params.appendAll_append]

theorem filters_runAll_pipeline (config : Config) (l : Lookups) (scope : Option Scope) (w : Work) :
    (Stage.runAll config l scope Stage.pipeline w).state.filters =
      w.filters.filter fun k n => !taken config l scope w.filters k n := by
  rw [state_runAll_pipeline]
  split_ifs with h
  · exact remainder_of_failing h
  · exact remainder_of_not_failing h

theorem eq_of_mem_queryEntries {r : SearchRequest} {e : String × Json.Value}
    (h : e ∈ r.queryEntries) : e.1 = Params.query := by
  obtain ⟨text, -, rfl⟩ := List.mem_map.mp h
  rfl

theorem categoryValues_cases (m : FilterMap) :
    categoryValues m = [] ∨ ∃ v, categoryValues m = [v] := by
  unfold categoryValues
  cases m.get? "category" with
  | none => exact .inl rfl
  | some n =>
      cases n with
      | term t => exact .inr ⟨t.value, rfl⟩
      | range r => exact .inl rfl
      | values v => exact .inl rfl

/-- The families that a request's filters add to are new. -/
theorem not_mem_keys_seed {family : String}
    (h : family ∈ [Params.facetFilters, Params.numericFilters]) (r : SearchRequest)
    (config : Config) (p : Paging) (facets : List String) :
    family ∉ (r.seed config p facets).keys := by
  have hpage : family ∉ (SearchRequest.pageEntries config p facets).map Prod.fst ∧
      family ≠ Params.ruleContexts ∧ family ≠ Params.query := by
    simp only [SearchRequest.pageEntries, List.map_cons, List.map_nil]
    revert family
    decide
  have hquery : family ∉ r.queryEntries.map Prod.fst := fun hm => by
    obtain ⟨e, he, rfl⟩ := List.mem_map.mp hm
    exact hpage.2.2 (eq_of_mem_queryEntries he)
  rw [keys, SearchRequest.entries_seed]
  simp only [List.map_append, List.map_cons, List.mem_append, List.mem_cons, not_or]
  exact ⟨hpage.1, hpage.2.1, hquery⟩

/-- The rule contexts grow at their own place, and the families come after the query. -/
theorem entries_appendAll_seed (r : SearchRequest) (config : Config) (p : Paging)
    (facets : List String) (m : FilterMap) (nums attrs : List String) :
    ((((r.seed config p facets).appendClauses
        (m.clauses (Stage.only "category" Stage.categoryClauses?))).appendAll
      Params.numericFilters nums).appendAll Params.facetFilters attrs).entries =
      SearchRequest.pageEntries config p facets ++
        (Params.ruleContexts, .ofStrings (ruleContexts config m)) :: (r.queryEntries ++
          if categoryValues m = [] then
            Params.familyEntries Params.numericFilters nums ++
              Params.familyEntries Params.facetFilters attrs
          else
            Params.familyEntries Params.facetFilters
                ((categoryValues m).map ("categoryIds:" ++ ·) ++ attrs) ++
              Params.familyEntries Params.numericFilters nums) := by
  have hnew {family : String} (h : family ∈ [Params.facetFilters, Params.numericFilters]) :
      family ∉ (r.seed config p facets).keys := not_mem_keys_seed h r config p facets
  rw [clauses_category, ruleContexts]
  rcases categoryValues_cases m with h | ⟨v, h⟩
  · have hfacet : Params.facetFilters ∉
        ((r.seed config p facets).appendAll Params.numericFilters nums).keys := by
      rw [← get?_eq_none_iff, Params.get?_appendAll_of_ne (by decide), get?_eq_none_iff]
      exact hnew (by simp)
    simp only [h, List.flatMap_nil, Params.appendClauses_nil, List.map_nil, if_true]
    rw [Params.entries_appendAll_of_not_mem hfacet,
      Params.entries_appendAll_of_not_mem (hnew (by simp)), SearchRequest.entries_seed]
    simp only [List.append_assoc, List.cons_append]
  · have hcategory : (((r.seed config p facets).append Params.facetFilters
        ("categoryIds:" ++ v)).append Params.ruleContexts ("magento-category-" ++ v)).entries =
        SearchRequest.pageEntries config p facets ++
          (Params.ruleContexts,
            .ofStrings ([config.ruleContext] ++ ["magento-category-" ++ v])) ::
          (r.queryEntries ++ [(Params.facetFilters, .ofStrings ["categoryIds:" ++ v])]) := by
      apply Params.entries_append_of_mem
      rw [Params.entries_append_of_not_mem (hnew (by simp)), SearchRequest.entries_seed]
      simp only [List.append_assoc, List.cons_append]
    have hnumeric : Params.numericFilters ∉ (((r.seed config p facets).append
        Params.facetFilters ("categoryIds:" ++ v)).append Params.ruleContexts
        ("magento-category-" ++ v)).keys := by
      rw [← get?_eq_none_iff, Params.get?_append_of_ne _ (by decide),
        Params.get?_append_of_ne _ (by decide), get?_eq_none_iff]
      exact hnew (by simp)
    have hfacet : ((((r.seed config p facets).append Params.facetFilters
        ("categoryIds:" ++ v)).append Params.ruleContexts ("magento-category-" ++ v)).appendAll
        Params.numericFilters nums).entries =
        (SearchRequest.pageEntries config p facets ++
          (Params.ruleContexts,
            .ofStrings ([config.ruleContext] ++ ["magento-category-" ++ v])) :: r.queryEntries) ++
          (Params.facetFilters, .ofStrings ["categoryIds:" ++ v]) ::
            Params.familyEntries Params.numericFilters nums := by
      rw [Params.entries_appendAll_of_not_mem hnumeric, hcategory]
      simp only [List.append_assoc, List.cons_append, List.nil_append]
    simp only [h, List.flatMap_cons, List.flatMap_nil, List.append_nil, Params.appendClauses_cons,
      Params.appendClauses_nil, List.map_cons, List.map_nil, List.cons_ne_nil, if_false]
    rw [Params.entries_appendAll_of_mem hfacet]
    simp only [Params.familyEntries, List.append_assoc, List.cons_append, List.nil_append]

/-- A request without clauses compiles as one without filters. -/
theorem compileWith_eq (r : SearchRequest) (config : Config) (l : Lookups) (p : Paging)
    (scope : Option Scope) (facets : List String) :
    r.compileWith config l p scope facets =
      let m := filters r
      { params :=
          (((r.seed config p facets).appendClauses
            (m.clauses (Stage.only "category" Stage.categoryClauses?))).appendAll
          Params.numericFilters (numericFilters config l scope m)).appendAll
          Params.facetFilters
            (if priceStage l scope m = .failing then [] else attributeClauses config l scope m)
        remainder := m.filter fun k n => !taken config l scope m k n } := by
  rw [← filters_eq]
  unfold SearchRequest.compileWith
  cases r.filters? with
  | none =>
      have hnumeric : numericFilters config l scope ∅ = [] := by
        have hidle : priceStage l scope ∅ = .idle := rfl
        simp [numericFilters, priceClauses, visibilityClauses, visibilityValues, hidle]
      have hattributes : attributeClauses config l scope ∅ = [] := rfl
      simp only [Option.getD_none, hnumeric, hattributes, ite_self, Params.appendAll_nil]
      rfl
  | some m => simp only [Option.getD_some, params_runAll_pipeline, filters_runAll_pipeline]

theorem entries_compileWith (r : SearchRequest) (config : Config) (l : Lookups) (p : Paging)
    (scope : Option Scope) (facets : List String) :
    (r.compileWith config l p scope facets).params.entries =
      SearchRequest.pageEntries config p facets ++
        (Params.ruleContexts, .ofStrings (ruleContexts config (filters r))) ::
        (r.queryEntries ++ familyEntries config l scope (filters r)) := by
  rw [compileWith_eq]
  dsimp only
  rw [entries_appendAll_seed]
  unfold familyEntries facetFilters
  by_cases h : categoryValues (filters r) = []
  · simp only [h, List.map_nil, List.nil_append]
    rfl
  · simp only [if_neg h]
    rfl

theorem remainder_compileWith (r : SearchRequest) (config : Config) (l : Lookups) (p : Paging)
    (scope : Option Scope) (facets : List String) :
    (r.compileWith config l p scope facets).remainder =
      (filters r).filter fun k n => !taken config l scope (filters r) k n := by
  rw [compileWith_eq]

/-- The facet values that a request asks for stand under their family if there are any. -/
theorem get?_facetFilters_compileWith {r : SearchRequest} {config : Config} {l : Lookups}
    {scope : Option Scope} (h : facetFilters config l scope (filters r) ≠ [])
    (p : Paging) (facets : List String) :
    (r.compileWith config l p scope facets).params.get? Params.facetFilters =
      some (.ofStrings (facetFilters config l scope (filters r))) := by
  have hentry : (Params.facetFilters, .ofStrings (facetFilters config l scope (filters r))) ∈
      Params.familyEntries Params.facetFilters (facetFilters config l scope (filters r)) := by
    obtain ⟨clause, clauses, hclauses⟩ := List.exists_cons_of_ne_nil h
    rw [hclauses]
    exact List.mem_singleton.mpr rfl
  rw [get?_eq_some_iff, entries_compileWith]
  refine List.mem_append_right _ (List.mem_cons_of_mem _ (List.mem_append_right _ ?_))
  unfold familyEntries
  split_ifs
  · exact List.mem_append_right _ hentry
  · exact List.mem_append_left _ hentry

/-- Compiling a request crashes if there is no room for its facets, and else it answers what the
clauses of the request say one by one: each parameter with its clauses in order, the parameters
themselves in order, and the filters that are left. -/
theorem compileIn?_eq_reference (r : SearchRequest) (config : Config) (l : Lookups) (p : Paging)
    (scope : Option Scope) :
    (r.compileIn? config l p scope).map (fun compiled =>
        (compiled.params.entries, compiled.remainder)) =
      if FacetsTooLong config l scope then none
      else some (entries r config l p scope,
        (filters r).filter fun k n => !taken config l scope (filters r) k n) := by
  rw [SearchRequest.compileIn?, facetList?_eq]
  split_ifs
  · rfl
  · rw [Option.map_some, Option.map_some, entries_compileWith, remainder_compileWith,
      SearchRequest.queryEntries, text?_eq]
    rfl

/-- Filters of all shapes under their names and under others, a text among them and one that comes
first, and a scope with facets of its own and a price key that begins with dots. -/
theorem compileIn?_eq_reference_of_all_shapes :
    let config : Config := {
      categoryLevels := 2
      facets := { common := ["size"],
                  byScope := .ofList [(2, ["price", "categories", "color"])] } }
    let labels := (({} : LabelTable).addOption "color" "50" "Blue").addOption "size" "7" "XL"
    let l := ({ priceKeys := .ofList [(2, "..EUR.retail")], labels } : Tables).lookups
    let range : RangeFilter := {
      field := "price", lower := some 10, upper := some 50, upperInclusive := false }
    let r : SearchRequest := {
      index := "products"
      query := .bool
        [("price", .filter (.range range)), ("hue", .filter (.ofTerm "color" "50")),
          ("words", .matching ⟨"name", "shirt"⟩), ("nested", .bool [] [] []),
          ("size", .filter (.ofTerm "size" "7")), ("sizes", .filter (.ofValues "size" ["7"])),
          ("category", .filter (.ofTerm "category_ids" "12")),
          ("visibility", .filter (.ofValues "visibility" ["2", "3"]))]
        [("search", .matching ⟨"*", "jacket"⟩)] [] }
    ¬ FacetsTooLong config l (some 2) ∧
    ∃ compiled, r.compileIn? config l (Paging.mk 3 20 0) (some 2) = some compiled ∧
      compiled.params.entries = [
        ("hitsPerPage", .ofNat 20), ("page", .ofNat 2),
        ("facets", .ofStrings ["price.EUR.retail", "categories.level0", "categories.level1",
          "color"]),
        ("maxValuesPerFacet", .ofNat 100),
        ("ruleContexts", .ofStrings ["magento_filters", "magento-category-12"]),
        ("query", .string "jacket"),
        ("facetFilters", .ofStrings ["categoryIds:12", "color:Blue"]),
        ("numericFilters", .ofStrings ["price.EUR.retail>=10.000", "price.EUR.retail<50.000",
          "visibility_search=1", "visibility_catalog=1"])] ∧
      compiled.remainder.keys = ["size", "sizes"] := by
  intro config labels l range r
  have hlong : ¬ FacetsTooLong config l (some 2) := by decide +kernel
  have hreference := compileIn?_eq_reference r config l (Paging.mk 3 20 0) (some 2)
  rw [if_neg hlong] at hreference
  obtain ⟨compiled, hcompiled, hparts⟩ := Option.map_eq_some_iff.mp hreference
  obtain ⟨hentries, hremainder⟩ := Prod.mk.inj hparts
  have hfacets : listedFacets config l (some 2) =
      ["price.EUR.retail", "categories.level0", "categories.level1", "color"] := by
    decide +kernel
  have hrules : ruleContexts config (filters r) = ["magento_filters", "magento-category-12"] := by
    decide +kernel
  have hvalues : facetFilters config l (some 2) (filters r) = ["categoryIds:12", "color:Blue"] := by
    decide +kernel
  have hnumbers : numericFilters config l (some 2) (filters r) =
      ["price.EUR.retail>=10.000", "price.EUR.retail<50.000", "visibility_search=1",
        "visibility_catalog=1"] := by
    decide +kernel
  have hcategory : categoryValues (filters r) ≠ [] := by decide +kernel
  refine ⟨hlong, compiled, hcompiled, ?_, ?_⟩
  · rw [hentries, entries, hfacets, hrules, familyEntries, hvalues, hnumbers, if_neg hcategory]
    rfl
  · rw [hremainder]
    decide +kernel

/-- Room is set aside for one facet for each level of categories, though none is configured. -/
theorem compileIn?_crashes_on_many_levels :
    let config : Config := {
      categoryLevels := 9223372036854775808, facets := { common := ["color"] } }
    let l := ({} : Tables).lookups
    let r : SearchRequest := {
      index := "products", query := .bool [("color", .filter (.ofTerm "color" "50"))] [] [] }
    FacetsTooLong config l none ∧ r.compileIn? config l (Paging.mk 1 20 0) none = none := by
  intro config l r
  have hlong : FacetsTooLong config l none := by decide +kernel
  exact ⟨hlong, SearchRequest.compileIn?_eq_none_iff.mpr (facetList?_eq_none_iff.mpr hlong)⟩

end FacetedSearch.Reference
