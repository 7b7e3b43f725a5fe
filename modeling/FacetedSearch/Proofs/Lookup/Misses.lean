import FacetedSearch.Proofs.Aggregation
import FacetedSearch.Proofs.Compile.Reference
import FacetedSearch.Proofs.Histogram.Room

/-!
# Empty answers and misses

A store may answer a lookup with an empty text where it has nothing. For labels and options that is
as good as a miss. A price key that is empty is taken at its word, and so is the path of a category:
the former makes a facet `price.` that no record has, the latter counts what the engine filed under
no path. The statements below say exactly which facet lists, requests and aggregations can tell
lookups from the same lookups with every empty answer replaced by a miss.
-/

namespace FacetedSearch

theorem nonEmpty_nonEmpty (s : Option String) : nonEmpty (nonEmpty s) = nonEmpty s := by
  simp [nonEmpty, Option.filter_filter]

namespace Lookups

/-- The lookups with a miss in place of every empty answer. -/
def cleaned (l : Lookups) : Lookups where
  scope := l.scope
  priceKey s :=
    match l.priceKey s with
    | .ok suffix => if suffix = "" then .error (.priceKeyUnavailable s) else .ok suffix
    | .error fault => .error fault
  label field id := nonEmpty (l.label field id)
  optionId field label := nonEmpty (l.optionId field label)
  paths ids scope := (l.paths ids scope).filter fun _ path => decide (path ≠ "")

/-- The price key of the scope is an empty text. -/
def EmptyPriceKey (l : Lookups) (scope : Option Scope) : Prop :=
  ∃ s, scope = some s ∧ l.priceKey s = .ok ""

theorem priceKey_cleaned_of_eq {l : Lookups} {s : Scope} (h : l.priceKey s = .ok "") :
    l.cleaned.priceKey s = .error (.priceKeyUnavailable s) := by
  simp only [cleaned, h, if_true]

theorem priceKey_cleaned_of_ne {l : Lookups} {s : Scope} (h : l.priceKey s ≠ .ok "") :
    l.cleaned.priceKey s = l.priceKey s := by
  cases hkey : l.priceKey s with
  | error fault => simp only [cleaned, hkey]
  | ok suffix =>
      have hsuffix : suffix ≠ "" := fun he => h (by rw [hkey, he])
      simp only [cleaned, hkey, if_neg hsuffix]

theorem priceFacet?_cleaned_of_empty {l : Lookups} {scope : Option Scope}
    (h : l.EmptyPriceKey scope) :
    priceFacet? l.cleaned scope = none ∧ priceFacet? l scope = some "price." := by
  obtain ⟨s, rfl, hkey⟩ := h
  simp only [priceFacet?, priceKey_cleaned_of_eq hkey, hkey, true_and]
  decide

theorem priceFacet?_cleaned_of_not_empty {l : Lookups} {scope : Option Scope}
    (h : ¬ l.EmptyPriceKey scope) : priceFacet? l.cleaned scope = priceFacet? l scope := by
  cases scope with
  | none => rfl
  | some s =>
      have hkey : l.priceKey s ≠ .ok "" := fun hkey => h ⟨s, rfl, hkey⟩
      simp only [priceFacet?, priceKey_cleaned_of_ne hkey]

end Lookups

open Lookups

/-- Names without prices are all collected. -/
theorem resolvable_of_price_not_mem {names : List String} (h : "price" ∉ names)
    (price : Option String) : resolvable price names = names := by
  refine List.takeWhile_eq_self_iff.mpr fun name hname => ?_
  have hne : name ≠ "price" := fun heq => h (heq ▸ hname)
  simp [hne]

theorem price_not_mem_resolvable_none (names : List String) : "price" ∉ resolvable none names :=
  fun h => by simpa using List.mem_takeWhile_imp h

/-- A list of facets knows the lookups only by the facet of prices, if prices are configured. -/
theorem facetList?_congr {config : Config} {l l' : Lookups} {scope : Option Scope}
    (h : "price" ∈ configuredFacets config scope → priceFacet? l' scope = priceFacet? l scope) :
    facetList? config l' scope = facetList? config l scope := by
  have hparts : (FacetsTooLong config l' scope ↔ FacetsTooLong config l scope) ∧
      listedFacets config l' scope = listedFacets config l scope := by
    by_cases hprice : "price" ∈ configuredFacets config scope
    · simp only [FacetsTooLong, listedFacets, h hprice, and_self]
    · have hflat := flatMap_expanded_of_price_not_mem hprice config (priceFacet? l' scope)
        (priceFacet? l scope)
      simp only [FacetsTooLong, listedFacets, hprice, false_and, if_false,
        resolvable_of_price_not_mem hprice, hflat, and_self]
  simp only [facetList?_eq, hparts]

/-- Where a miss makes the facets too many, so does an empty answer: it only adds some. -/
theorem FacetsTooLong.of_cleaned {config : Config} {l : Lookups} {scope : Option Scope}
    (h : FacetsTooLong config l.cleaned scope) : FacetsTooLong config l scope := by
  by_cases hempty : l.EmptyPriceKey scope
  · obtain ⟨hcleaned, hfacet⟩ := priceFacet?_cleaned_of_empty hempty
    refine h.imp id fun hlong => hlong.trans (Nat.mul_le_mul_left 24 ?_)
    have hall : resolvable (some "price.") (configuredFacets config scope) =
        resolvable none (configuredFacets config scope) ++
          (configuredFacets config scope).dropWhile fun name => name != "price" := by
      simp [resolvable]
    rw [hcleaned, hfacet, hall, List.flatMap_append, List.length_append,
      flatMap_expanded_of_price_not_mem (price_not_mem_resolvable_none _) config none
        (some "price.")]
    exact Nat.le_add_right _ _
  · unfold FacetsTooLong at h ⊢
    rwa [priceFacet?_cleaned_of_not_empty hempty] at h

/-- The facet list of a scope with an empty price key shows it as soon as prices are in it, unless
there is no room for the list even without them. -/
theorem facetList?_cleaned_iff (config : Config) (l : Lookups) (scope : Option Scope) :
    facetList? config l.cleaned scope = facetList? config l scope ↔
      ¬ (l.EmptyPriceKey scope ∧ "price" ∈ configuredFacets config scope) ∨
        FacetsTooLong config l.cleaned scope := by
  by_cases hshown : l.EmptyPriceKey scope ∧ "price" ∈ configuredFacets config scope
  · obtain ⟨hempty, hprice⟩ := hshown
    obtain ⟨hcleaned, hfacet⟩ := priceFacet?_cleaned_of_empty hempty
    rw [or_iff_right (not_not.mpr ⟨hempty, hprice⟩), facetList?_eq, facetList?_eq]
    by_cases hlong : FacetsTooLong config l.cleaned scope
    · rw [if_pos hlong, if_pos hlong.of_cleaned]
      exact iff_of_true rfl hlong
    · have hmem : "price." ∈ listedFacets config l scope := by
        rw [listedFacets, hfacet, if_neg (by simp)]
        exact List.mem_flatMap.mpr ⟨"price", hprice, List.mem_singleton.mpr rfl⟩
      rw [if_neg hlong, listedFacets, if_pos ⟨hprice, hcleaned⟩]
      refine iff_of_false (fun hlist => ?_) hlong
      split_ifs at hlist
      rw [← Option.some.inj hlist] at hmem
      cases hmem
  · refine iff_of_true (facetList?_congr fun hprice => ?_) (.inl hshown)
    exact priceFacet?_cleaned_of_not_empty fun hempty => hshown ⟨hempty, hprice⟩

namespace Reference

theorem labelled?_cleaned (config : Config) (l : Lookups) (scope : Option Scope) (t : TermFilter) :
    labelled? config l.cleaned scope t = labelled? config l scope t := by
  rw [← attributeClause?_term, ← attributeClause?_term]
  simp only [Stage.attributeClause?, cleaned, nonEmpty_nonEmpty]

theorem priceStage_cleaned_of_empty {l : Lookups} {scope : Option Scope} {m : FilterMap}
    {range : RangeFilter} (h : l.EmptyPriceKey scope) (hm : m.get? "price" = some (.range range)) :
    priceStage l.cleaned scope m = .failing ∧ priceStage l scope m = .found "price." range := by
  obtain ⟨s, rfl, hkey⟩ := h
  unfold priceStage
  rw [hm]
  have hfacet : "price." ++ String.ofList ("".toList.dropWhile (· == '.')) = "price." := by
    decide
  simp only [priceKey_cleaned_of_eq hkey, hkey, hfacet, and_self]

theorem priceStage_cleaned_of_not {l : Lookups} {scope : Option Scope} {m : FilterMap}
    (h : ¬ (l.EmptyPriceKey scope ∧ ∃ range, m.get? "price" = some (.range range))) :
    priceStage l.cleaned scope m = priceStage l scope m := by
  unfold priceStage
  cases hm : m.get? "price" with
  | none => rfl
  | some n =>
      cases n with
      | term t => rfl
      | values v => rfl
      | range range =>
          cases scope with
          | none => rfl
          | some s =>
              have hkey : l.priceKey s ≠ .ok "" := fun hkey => h ⟨⟨s, rfl, hkey⟩, range, hm⟩
              simp only [priceKey_cleaned_of_ne hkey]

end Reference

theorem Json.Value.ofStrings_injective : Function.Injective Json.Value.ofStrings := by
  intro as bs h
  unfold ofStrings at h
  injection h with hmap
  exact List.map_injective_iff.mpr (fun a b hab => by injection hab) hmap

namespace SearchRequest

section

variable {r : SearchRequest} {config : Config} {l l' : Lookups} {p : Paging} {scope : Option Scope}
  {facets facets' : List String}

/-- The facets of a query can be read off what it compiles to. -/
theorem facets_eq_of_compileWith_eq
    (h : r.compileWith config l' p scope facets' = r.compileWith config l p scope facets) :
    facets' = facets := by
  have hsent (l : Lookups) (facets : List String) :
      (r.compileWith config l p scope facets).params.get? Params.facets =
        some (.ofStrings facets) :=
    r.get?_compileWith_of_mem config l p scope facets (e := (Params.facets, .ofStrings facets))
      (by simp [pageEntries])
  have hvalue := hsent l facets
  rw [← h, hsent] at hvalue
  exact Json.Value.ofStrings_injective (Option.some.inj hvalue)

/-- A range of prices is left where the key counts as a miss, and taken where it is empty. -/
theorem compileWith_cleaned_ne (hempty : l.EmptyPriceKey scope) {range : RangeFilter}
    (hrange : (Reference.filters r).get? "price" = some (.range range)) :
    r.compileWith config l.cleaned p scope facets' ≠ r.compileWith config l p scope facets := by
  intro h
  obtain ⟨hfailing, hfound⟩ := Reference.priceStage_cleaned_of_empty hempty hrange
  have hleft := congrArg (fun c => c.remainder.get? "price") h
  simp only [Reference.remainder_compileWith, OrderedMap.get?_filter, hrange,
    Option.filter_some] at hleft
  simp [Reference.taken, hfailing, hfound] at hleft

theorem compileWith_cleaned_of_not
    (h : ¬ (l.EmptyPriceKey scope ∧
      ∃ range, (Reference.filters r).get? "price" = some (.range range))) :
    r.compileWith config l.cleaned p scope facets = r.compileWith config l p scope facets := by
  have hstage := Reference.priceStage_cleaned_of_not h
  rw [Reference.compileWith_eq, Reference.compileWith_eq]
  simp only [seed, Reference.numericFilters, Reference.priceClauses,
    Reference.attributeClauses, Reference.labelled?_cleaned, hstage]
  congr 1
  apply OrderedMap.ext_entries
  refine List.filter_congr fun e _ => ?_
  obtain ⟨k, n⟩ := e
  cases n <;> simp only [Reference.taken, hstage, Reference.labelled?_cleaned]

end

/-- A compiled request of a scope with an empty price key shows it by its facets or by its price
range, unless there is no room for its facets. -/
theorem compileIn?_cleaned_iff (r : SearchRequest) (config : Config) (l : Lookups) (p : Paging)
    (scope : Option Scope) :
    r.compileIn? config l.cleaned p scope = r.compileIn? config l p scope ↔
      ¬ (l.EmptyPriceKey scope ∧ ("price" ∈ configuredFacets config scope ∨
        ∃ range, (Reference.filters r).get? "price" = some (.range range))) ∨
        FacetsTooLong config l.cleaned scope := by
  constructor
  · refine fun hcompiled => or_iff_not_imp_right.mpr fun hlong => ?_
    have hlist := facetList?_eq config l.cleaned scope
    rw [if_neg hlong] at hlist
    obtain ⟨facets, hfacets, heq⟩ := compileIn?_eq_some_iff.mp
      (hcompiled.symm.trans (compileIn?_eq_some_iff.mpr ⟨_, hlist, rfl⟩))
    rintro ⟨hempty, hprice | ⟨range, hrange⟩⟩
    · have hsame : facetList? config l.cleaned scope = facetList? config l scope := by
        rw [hlist, hfacets, facets_eq_of_compileWith_eq heq]
      rcases (facetList?_cleaned_iff config l scope).mp hsame with h | h
      · exact h ⟨hempty, hprice⟩
      · exact hlong h
    · exact compileWith_cleaned_ne hempty hrange heq.symm
  · rintro (hnot | hlong)
    · have hlist : facetList? config l.cleaned scope = facetList? config l scope :=
        (facetList?_cleaned_iff config l scope).mpr (.inl fun h => hnot ⟨h.1, .inl h.2⟩)
      have hwith : r.compileWith config l.cleaned p scope = r.compileWith config l p scope :=
        funext fun facets => compileWith_cleaned_of_not fun h => hnot ⟨h.1, .inr h.2⟩
      rw [compileIn?, compileIn?, hlist, hwith]
    · rw [compileIn?_eq_none_iff.mpr (facetList?_eq_none_iff.mpr hlong),
        compileIn?_eq_none_iff.mpr (facetList?_eq_none_iff.mpr hlong.of_cleaned)]

end SearchRequest

namespace Aggregation

/-- A candidate of a definition of categories has the empty path, and the engine counted hits under
the empty path. -/
def CountsEmptyPath (l : Lookups) (facets : FacetCounts) (scope : Option Scope)
    (d : BucketDefinition) : Prop :=
  (d.field = "category_ids" ∧ d.kind = .term) ∧
    (∃ id ∈ d.candidates, (l.paths d.candidates scope).get? id = some "") ∧
    ((categoryCounts facets).get? "").isSome

theorem attributeBucket_cleaned (l : Lookups) (field : String) (counts : OrderedMap String ℕ) :
    attributeBucket l.cleaned field counts = attributeBucket l field counts := by
  rw [attributeBucket_eq_ofList, attributeBucket_eq_ofList]
  simp only [cleaned, nonEmpty_nonEmpty]

theorem categoryValue?_cleaned (paths : OrderedMap String String) (counts : OrderedMap String ℕ)
    (id : String) :
    categoryValue? (paths.filter fun _ path => decide (path ≠ "")) counts id =
      if paths.get? id = some "" then none else categoryValue? paths counts id := by
  unfold categoryValue?
  rw [OrderedMap.get?_filter]
  cases paths.get? id with
  | none => rfl
  | some path => by_cases hpath : path = "" <;> simp [Option.filter_some, hpath]

theorem bucketOf?_cleaned_iff (l : Lookups) (maxBuckets : ℕ) (facets : FacetCounts)
    (scope : Option Scope) (d : BucketDefinition) :
    bucketOf? l.cleaned maxBuckets facets scope d = bucketOf? l maxBuckets facets scope d ↔
      ¬ CountsEmptyPath l facets scope d := by
  unfold bucketOf? CountsEmptyPath
  by_cases hcategory : d.field = "category_ids" ∧ d.kind = .term
  · simp only [hcategory, true_and, and_self, if_true, Option.some.injEq]
    constructor
    · rintro hbucket ⟨⟨id, hid, hpath⟩, hcount⟩
      obtain ⟨count, hcount⟩ := Option.isSome_iff_exists.mp hcount
      have hvalue := congrArg (OrderedMap.get? · id) hbucket
      simp only [get?_categoryBucket, if_pos hid, cleaned, categoryValue?_cleaned, hpath,
        if_true] at hvalue
      simp [categoryValue?, hpath, hcount] at hvalue
    · intro hnot
      rw [categoryBucket_eq_ofList, categoryBucket_eq_ofList]
      refine congrArg OrderedMap.ofList (List.filterMap_congr fun id hid => ?_)
      simp only [cleaned, categoryValue?_cleaned]
      split_ifs with hpath
      · have hcount : (categoryCounts facets).get? "" = none := by
          by_contra hcount
          exact hnot ⟨⟨id, hid, hpath⟩, Option.ne_none_iff_isSome.mp hcount⟩
        simp [categoryValue?, hpath, hcount]
      · rfl
  · rw [iff_true_right fun h => hcategory h.1, if_neg hcategory, if_neg hcategory]
    split_ifs
    · rfl
    · cases facets.get? d.field with
      | none => rfl
      | some counts => exact congrArg some (attributeBucket_cleaned l d.field counts)

/-- The aggregations show an empty path by a definition that is reported, unless the histogram
crashes. -/
theorem build?_cleaned_iff (l : Lookups) (maxBuckets : ℕ) (definitions : List BucketDefinition)
    (facets : FacetCounts) (scope : Option Scope) :
    build? l.cleaned maxBuckets definitions facets scope =
        build? l maxBuckets definitions facets scope ↔
      (∀ name d, reported? definitions name = some d → ¬ CountsEmptyPath l facets scope d) ∨
        (∃ d ∈ definitions, d.field = "price") ∧ Histogram.TooManyRanges maxBuckets facets := by
  by_cases hcrash : (∃ d ∈ definitions, d.field = "price") ∧
      Histogram.TooManyRanges maxBuckets facets
  · have hnone (l : Lookups) : build? l maxBuckets definitions facets scope = none :=
      build?_eq_none_iff.mpr ⟨hcrash.1, Histogram.ofFacets_eq_crash_iff.mpr hcrash.2⟩
    rw [hnone, hnone]
    exact iff_of_true rfl (.inr hcrash)
  · have hsome (l : Lookups) : ∃ result, build? l maxBuckets definitions facets scope =
        some result := by
      refine Option.ne_none_iff_exists'.mp fun h => hcrash ?_
      exact ⟨(build?_eq_none_iff.mp h).1, Histogram.ofFacets_eq_crash_iff.mp
        (build?_eq_none_iff.mp h).2⟩
    obtain ⟨result', hresult'⟩ := hsome l.cleaned
    obtain ⟨result, hresult⟩ := hsome l
    rw [or_iff_left hcrash, hresult', hresult, Option.some.injEq]
    constructor
    · intro hsame name d hd
      have hbucket := congrArg (OrderedMap.get? · name) hsame
      simp only [get?_of_build? hresult', get?_of_build? hresult, hd, Option.bind_some] at hbucket
      exact (bucketOf?_cleaned_iff l maxBuckets facets scope d).mp hbucket
    · intro hnot
      refine OrderedMap.ext_get? (by rw [keys_of_build? hresult', keys_of_build? hresult])
        fun name => ?_
      rw [get?_of_build? hresult', get?_of_build? hresult]
      cases hd : reported? definitions name with
      | none => rfl
      | some d => exact (bucketOf?_cleaned_iff l maxBuckets facets scope d).mpr (hnot name d hd)

end Aggregation

namespace Lookups

/-- Empty labels and options are misses to everybody. An empty price key is none: the facets of a
query and the filters that are left show it. An empty path is none either: a reported definition of
categories shows it if the engine counted hits under the empty path. Where there is no room for an
answer, there is nothing to be seen. -/
theorem cleaned_agrees_iff (l : Lookups) (config : Config) (scope : Option Scope) :
    (facetList? config l.cleaned scope = facetList? config l scope ↔
      ¬ (l.EmptyPriceKey scope ∧ "price" ∈ configuredFacets config scope) ∨
        FacetsTooLong config l.cleaned scope) ∧
    (∀ (r : SearchRequest) (p : Paging),
      r.compileIn? config l.cleaned p scope = r.compileIn? config l p scope ↔
        ¬ (l.EmptyPriceKey scope ∧ ("price" ∈ configuredFacets config scope ∨
          ∃ range, (Reference.filters r).get? "price" = some (.range range))) ∨
          FacetsTooLong config l.cleaned scope) ∧
    ∀ (definitions : List BucketDefinition) (facets : FacetCounts) (maxBuckets : ℕ),
      Aggregation.build? l.cleaned maxBuckets definitions facets scope =
          Aggregation.build? l maxBuckets definitions facets scope ↔
        (∀ name d, Aggregation.reported? definitions name = some d →
          ¬ Aggregation.CountsEmptyPath l facets scope d) ∨
          (∃ d ∈ definitions, d.field = "price") ∧
            Histogram.TooManyRanges maxBuckets facets :=
  ⟨facetList?_cleaned_iff config l scope,
    fun r p => r.compileIn?_cleaned_iff config l p scope,
    fun definitions facets maxBuckets =>
      Aggregation.build?_cleaned_iff l maxBuckets definitions facets scope⟩

/-- A scope whose price key is empty: the facet `price.` is asked for and filtered by, where a miss
would cost the query its facets and leave the range. A category whose path is empty gets the count
of the empty path, where a miss would leave it out. -/
theorem empty_price_key_and_path_are_taken :
    let l : Lookups := {
      scope := fun _ => .ok 1, priceKey := fun _ => .ok "", label := fun _ _ => none,
      optionId := fun _ _ => none, paths := fun ids _ => .ofList (ids.map (·, "")) }
    let config : Config := { facets := { common := ["color", "price"] } }
    let r : SearchRequest := {
      index := "products"
      query := .bool [("price", .filter (.ofRange "price" (some 10) none))] [] [] }
    let compiled (l : Lookups) := r.compileIn? config l (Paging.mk 1 20 0) (some 1)
    let clauses (c : Compiled) := (c.params.clauses Params.numericFilters, c.remainder.keys)
    let buckets (l : Lookups) := Aggregation.build? l Scale.defaultBuckets
      [{ name := "categories", field := "category_ids", kind := .term, candidates := ["7"] }]
      (.ofList [("categories.level0", .ofList [("", 3)])]) (some 1)
    (facetList? config l (some 1) = some ["color", "price."] ∧
      (compiled l).map clauses = some (["price.>=10.000"], []) ∧
      (buckets l).bind (·.get? "categories") =
        some (.ofList [("7", { value := "7", count := 3 })])) ∧
    facetList? config l.cleaned (some 1) = some [] ∧
      (compiled l.cleaned).map clauses = some ([], ["price"]) ∧
      (buckets l.cleaned).bind (·.get? "categories") = some ∅ := by
  decide +kernel

end Lookups

end FacetedSearch
