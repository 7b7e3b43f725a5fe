import FacetedSearch.Aggregation
import FacetedSearch.Proofs.OrderedMap

/-!
# Requested aggregations

Each definition writes the bucket of its name, whatever the lookups answer and whether or not the
histogram can be computed. So the names are those that are requested, each once, and the last
definition of a name is the one that is reported. Only a histogram that crashes leaves no result.
In the bucket of an attribute each value comes from a label that was counted.
-/

namespace FacetedSearch.Aggregation

/-- A fold that writes one entry for each definition has all of them or none. -/
theorem foldlM_insert (f : BucketDefinition → Option Bucket) (definitions : List BucketDefinition)
    (result : Aggregations) :
    definitions.foldlM (fun result d => (f d).map (result.insert d.name ·)) result =
      if ∀ d ∈ definitions, (f d).isSome then
        some (definitions.foldl (fun result d => result.insert d.name ((f d).getD ∅)) result)
      else none := by
  induction definitions generalizing result with
  | nil => simp
  | cons d definitions ih =>
      rw [List.foldlM_cons]
      cases hd : f d with
      | none => simp [hd]
      | some bucket =>
          simp only [Option.map_some, Option.bind_eq_bind, Option.bind_some, ih,
            List.forall_mem_cons, hd, Option.isSome_some, true_and, List.foldl_cons,
            Option.getD_some]

section

variable {l : Lookups} {maxBuckets : ℕ} {definitions : List BucketDefinition}
  {facets : FacetCounts} {scope : Option Scope}

theorem bucketOf?_eq_none_iff {d : BucketDefinition} :
    bucketOf? l maxBuckets facets scope d = none ↔
      d.field = "price" ∧ Histogram.ofFacets maxBuckets facets = .crash := by
  unfold bucketOf?
  split_ifs with hcategory hprice
  · simp [hcategory.1]
  · rw [Outcome.recover_eq_none_iff]
    simp [hprice]
  · cases facets.get? d.field <;> simp [hprice]

theorem build?_eq_none_iff :
    build? l maxBuckets definitions facets scope = none ↔
      (∃ d ∈ definitions, d.field = "price") ∧ Histogram.ofFacets maxBuckets facets = .crash := by
  unfold build?
  rw [foldlM_insert]
  have hall : (∀ d ∈ definitions, (bucketOf? l maxBuckets facets scope d).isSome) ↔
      ¬ ((∃ d ∈ definitions, d.field = "price") ∧
        Histogram.ofFacets maxBuckets facets = .crash) := by
    simp only [← Option.ne_none_iff_isSome, ne_eq, bucketOf?_eq_none_iff]
    simp only [not_and, forall_exists_index, and_imp]
  split_ifs with h
  · exact iff_of_false (by simp) (hall.mp h)
  · exact iff_of_true rfl (not_not.mp (mt hall.mpr h))

theorem build?_eq_some {result : Aggregations}
    (h : build? l maxBuckets definitions facets scope = some result) :
    (∀ d ∈ definitions, (bucketOf? l maxBuckets facets scope d).isSome) ∧
      result = .ofList (definitions.map fun d =>
        (d.name, (bucketOf? l maxBuckets facets scope d).getD ∅)) := by
  unfold build? at h
  rw [foldlM_insert] at h
  split_ifs at h with hall
  refine ⟨hall, ?_⟩
  rw [← Option.some.inj h, OrderedMap.ofList, List.foldl_map]

/-- The requested names in the order in which they are first requested. -/
theorem keys_of_build? {result : Aggregations}
    (h : build? l maxBuckets definitions facets scope = some result) :
    result.keys = (definitions.map BucketDefinition.name).eraseDups := by
  rw [(build?_eq_some h).2, OrderedMap.keys_ofList, List.map_map]
  rfl

/-- The definition that is reported under a name: the last one that has it. -/
def reported? (definitions : List BucketDefinition) (name : String) : Option BucketDefinition :=
  definitions.reverse.find? fun d => d.name == name

theorem mem_of_reported? {name : String} {d : BucketDefinition}
    (h : reported? definitions name = some d) : d ∈ definitions ∧ d.name = name :=
  ⟨List.mem_reverse.mp (List.mem_of_find?_eq_some h), by simpa using List.find?_some h⟩

theorem get?_ofList_map (f : BucketDefinition → Bucket) (name : String) :
    (OrderedMap.ofList (definitions.map fun d => (d.name, f d))).get? name =
      (reported? definitions name).map f := by
  rw [OrderedMap.get?_ofList, ← List.map_reverse, reported?]
  induction definitions.reverse with
  | nil => rfl
  | cons d ds ih =>
      rw [List.map_cons, OrderedMap.lookup_cons_eq_ite, ih]
      by_cases hname : name = d.name
      · rw [if_pos hname, List.find?_cons_of_pos (by simp [hname]), Option.map_some]
      · rw [if_neg hname, List.find?_cons_of_neg (by simpa using Ne.symm hname)]

theorem get?_of_build? {result : Aggregations}
    (h : build? l maxBuckets definitions facets scope = some result) (name : String) :
    result.get? name =
      (reported? definitions name).bind (bucketOf? l maxBuckets facets scope) := by
  obtain ⟨hall, hresult⟩ := build?_eq_some h
  rw [hresult, get?_ofList_map]
  cases hd : reported? definitions name with
  | none => rfl
  | some d =>
      obtain ⟨bucket, hbucket⟩ := Option.isSome_iff_exists.mp (hall d (mem_of_reported? hd).1)
      rw [Option.map_some, Option.bind_some, hbucket, Option.getD_some]

end

theorem attributeBucket_eq_ofList (l : Lookups) (field : String) (counts : OrderedMap String ℕ) :
    attributeBucket l field counts =
      .ofList (counts.entries.filterMap fun e =>
        (nonEmpty (l.optionId field e.1)).map fun id => (id, { value := id, count := e.2 })) := by
  unfold attributeBucket OrderedMap.ofList
  rw [List.foldl_filterMap]
  congr 1
  funext bucket ⟨label, count⟩
  dsimp only
  cases nonEmpty (l.optionId field label) <;> rfl

/-- A value of an attribute's bucket was counted under a label of its option. -/
theorem exists_label_of_get?_attributeBucket {l : Lookups} {field : String}
    {counts : OrderedMap String ℕ} {id : String} {v : BucketValue}
    (h : (attributeBucket l field counts).get? id = some v) :
    ∃ label, counts.get? label = some v.count ∧ nonEmpty (l.optionId field label) = some id ∧
      v = { value := id, count := v.count } := by
  rw [attributeBucket_eq_ofList] at h
  obtain ⟨⟨label, count⟩, he, hid⟩ := List.mem_filterMap.mp (OrderedMap.mem_of_get?_ofList h)
  obtain ⟨id', hoption, hv⟩ := Option.map_eq_some_iff.mp hid
  cases hv
  exact ⟨label, OrderedMap.get?_eq_some_iff.mpr he, hoption, rfl⟩

/-- What is reported for a category whose path was counted. -/
def categoryValue? (paths : OrderedMap String String) (counts : OrderedMap String ℕ)
    (id : String) : Option BucketValue :=
  ((paths.get? id).bind counts.get?).map fun count => { value := id, count }

theorem categoryBucket_eq_ofList (l : Lookups) (candidates : List String) (facets : FacetCounts)
    (scope : Option Scope) :
    categoryBucket l candidates facets scope =
      .ofList (candidates.filterMap fun id =>
        (categoryValue? (l.paths candidates scope) (categoryCounts facets) id).map (id, ·)) := by
  unfold categoryBucket OrderedMap.ofList
  rw [List.foldl_filterMap]
  split_ifs with hnone
  · rw [List.isEmpty_iff.mp hnone]
    rfl
  · dsimp only
    congr 1
    funext bucket id
    unfold categoryValue?
    cases ((l.paths candidates scope).get? id).bind (categoryCounts facets).get? <;> rfl

theorem get?_categoryBucket (l : Lookups) (candidates : List String) (facets : FacetCounts)
    (scope : Option Scope) (id : String) :
    (categoryBucket l candidates facets scope).get? id =
      if id ∈ candidates then
        categoryValue? (l.paths candidates scope) (categoryCounts facets) id
      else none := by
  rw [categoryBucket_eq_ofList, OrderedMap.get?_ofList_filterMap]

end FacetedSearch.Aggregation
