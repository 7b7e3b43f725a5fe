import FacetedSearch.Lookup.Table
import FacetedSearch.Proofs.Aggregation
import FacetedSearch.Proofs.Histogram.Room

/-!
# Answers to requested aggregations

Which bucket a definition gets is a matter of its field and kind: `Answers` lists the cases apart
from the order in which they are tried. A definition is answered as if it were alone in its request.
All that other definitions can do is to come later under the same name, and then they are the ones
that are answered.
-/

namespace FacetedSearch.Aggregation

section

variable (l : Lookups) (maxBuckets : ℕ) (facets : FacetCounts) (scope : Option Scope)

/-- The bucket that answers a definition. -/
inductive Answers (d : BucketDefinition) : Bucket → Prop
  | categories (hfield : d.field = "category_ids") (hkind : d.kind = .term) :
      Answers d (categoryBucket l d.candidates facets scope)
  | prices {bucket : Bucket} (hfield : d.field = "price")
      (h : Histogram.ofFacets maxBuckets facets = .ok bucket) : Answers d bucket
  | noHistogram {fault : Fault} (hfield : d.field = "price")
      (h : Histogram.ofFacets maxBuckets facets = .error fault) : Answers d ∅
  | options {counts : OrderedMap String ℕ}
      (hcategories : d.field = "category_ids" → d.kind ≠ .term) (hprice : d.field ≠ "price")
      (h : facets.get? d.field = some counts) : Answers d (attributeBucket l d.field counts)
  | noFacet (hcategories : d.field = "category_ids" → d.kind ≠ .term) (hprice : d.field ≠ "price")
      (h : facets.get? d.field = none) : Answers d ∅

variable {l maxBuckets facets scope}

/-- Every definition that does not crash has exactly one answer. -/
theorem answers_iff {d : BucketDefinition} {bucket : Bucket} :
    Answers l maxBuckets facets scope d bucket ↔
      bucketOf? l maxBuckets facets scope d = some bucket := by
  constructor
  · intro h
    unfold bucketOf?
    cases h with
    | categories hfield hkind => rw [if_pos ⟨hfield, hkind⟩]
    | prices hfield h => rw [if_neg (by simp [hfield]), if_pos hfield, h, Outcome.recover]
    | noHistogram hfield h => rw [if_neg (by simp [hfield]), if_pos hfield, h, Outcome.recover]
    | options hcategories hprice h =>
        rw [if_neg fun hc => hcategories hc.1 hc.2, if_neg hprice, h]
    | noFacet hcategories hprice h =>
        rw [if_neg fun hc => hcategories hc.1 hc.2, if_neg hprice, h]
  · intro hbucket
    unfold bucketOf? at hbucket
    split_ifs at hbucket with hcategories hprice
    · cases hbucket
      exact .categories hcategories.1 hcategories.2
    · cases h : Histogram.ofFacets maxBuckets facets with
      | ok found =>
          rw [h] at hbucket
          cases hbucket
          exact .prices hprice h
      | error fault =>
          rw [h] at hbucket
          cases hbucket
          exact .noHistogram hprice h
      | crash =>
          rw [h] at hbucket
          cases hbucket
    · have hkind : d.field = "category_ids" → d.kind ≠ .term := not_and.mp hcategories
      cases h : facets.get? d.field with
      | some counts =>
          rw [h] at hbucket
          cases hbucket
          exact .options hkind hprice h
      | none =>
          rw [h] at hbucket
          cases hbucket
          exact .noFacet hkind hprice h

/-- A definition alone in its request is answered under its name. -/
theorem bind_get?_build?_singleton (d : BucketDefinition) :
    (build? l maxBuckets [d] facets scope).bind (OrderedMap.get? · d.name) =
      bucketOf? l maxBuckets facets scope d := by
  have hsingle : reported? [d] d.name = some d := by
    rw [reported?, List.reverse_singleton, List.find?_cons_of_pos (by simp)]
  cases h : build? l maxBuckets [d] facets scope with
  | some result => rw [Option.bind_some, get?_of_build? h, hsingle, Option.bind_some]
  | none =>
      obtain ⟨⟨d', hmem, hfield⟩, hcrash⟩ := build?_eq_none_iff.mp h
      obtain rfl := List.mem_singleton.mp hmem
      exact (bucketOf?_eq_none_iff.mpr ⟨hfield, hcrash⟩).symm

/-- The last definition of a name is answered as if it were alone. -/
theorem get?_eq_bind_of_build? {definitions : List BucketDefinition} {result : Aggregations}
    (h : build? l maxBuckets definitions facets scope = some result) (name : String) :
    result.get? name = (reported? definitions name).bind fun d =>
      (build? l maxBuckets [d] facets scope).bind (OrderedMap.get? · name) := by
  rw [get?_of_build? h]
  cases hd : reported? definitions name with
  | none => rfl
  | some d =>
      obtain rfl := (mem_of_reported? hd).2
      rw [Option.bind_some, Option.bind_some, bind_get?_build?_singleton]

end

/-- There is no result exactly if a histogram of prices is requested and its ranges are more than a
list can hold. Otherwise every requested name is answered, once and in the order in which the names
are first requested, and no other name is. Under a name stands the answer to its last definition,
the same that a request for this definition alone gets, whatever other definitions there are. -/
theorem build?_answers (l : Lookups) (maxBuckets : ℕ) (definitions : List BucketDefinition)
    (facets : FacetCounts) (scope : Option Scope) :
    (build? l maxBuckets definitions facets scope = none ↔
      (∃ d ∈ definitions, d.field = "price") ∧ Histogram.TooManyRanges maxBuckets facets) ∧
    ∀ result, build? l maxBuckets definitions facets scope = some result →
      result.keys = (definitions.map BucketDefinition.name).eraseDups ∧
      ∀ name : String,
        (result.get? name = (reported? definitions name).bind fun d =>
          (build? l maxBuckets [d] facets scope).bind (OrderedMap.get? · name)) ∧
        (∀ (others : List BucketDefinition) (result' : Aggregations),
          build? l maxBuckets others facets scope = some result' →
          reported? others name = reported? definitions name →
          result'.get? name = result.get? name) ∧
        ∀ bucket : Bucket, result.get? name = some bucket ↔
          ∃ d, reported? definitions name = some d ∧
            Answers l maxBuckets facets scope d bucket := by
  rw [build?_eq_none_iff, Histogram.ofFacets_eq_crash_iff]
  refine ⟨Iff.rfl, fun result h => ⟨keys_of_build? h, fun name =>
    ⟨get?_eq_bind_of_build? h name, fun others result' h' hsame => ?_, fun bucket => ?_⟩⟩⟩
  · rw [get?_of_build? h, get?_of_build? h', hsame]
  · rw [get?_of_build? h, Option.bind_eq_some_iff]
    simp only [answers_iff]

/-- Definitions of all kinds, two of them of one name: the first gives the name its place, the last
its bucket. The categories as a range are a facet like others. -/
theorem build?_answers_of_repeated_names :
    let labels := (({} : LabelTable).addOption "color" "50" "Blue").addOption "size" "7" "XL"
    let paths := ({} : PathTable).addPath "3" "Men"
    let l := ({ labels, paths } : Tables).lookups
    let facets : FacetCounts := .ofList [("color", .ofList [("Blue", 4)]),
      ("size", .ofList [("XL", 2), ("S", 1)]), ("categories.level0", .ofList [("Men", 6)]),
      ("price.USD.default", .ofList [("10", 1), ("30", 5)])]
    let categories : BucketDefinition :=
      { name := "tree", field := "category_ids", kind := .term, candidates := ["3", "4"] }
    let sizes : BucketDefinition := { name := "values", field := "size", kind := .term }
    let definitions : List BucketDefinition := [
      { name := "values", field := "color", kind := .term },
      { name := "prices", field := "price", kind := .dynamic }, categories, sizes,
      { name := "numbers", field := "category_ids", kind := .range }]
    ∃ result, build? l 2 definitions facets none = some result ∧
      result.keys = ["values", "prices", "tree", "numbers"] ∧
      result.get? "values" = some (.ofList [("7", { value := "7", count := 2 })]) ∧
      result.get? "values" = (build? l 2 [sizes] facets none).bind (OrderedMap.get? · "values") ∧
      result.get? "prices" = some (.ofList [
        ("10_20", { value := "10_20", count := 1, lower := some 10, upper := some 20 }),
        ("20_30", { value := "20_30", count := 5, lower := some 20, upper := some 30 })]) ∧
      result.get? "tree" = some (.ofList [("3", { value := "3", count := 6 })]) ∧
      result.get? "numbers" = some ∅ := by
  intro labels paths l facets categories sizes definitions
  obtain ⟨hcrash, hanswers⟩ := build?_answers l 2 definitions facets none
  have hsome : ¬ (build? l 2 definitions facets none = none) := by decide +kernel
  obtain ⟨result, hresult⟩ := Option.ne_none_iff_exists'.mp hsome
  obtain ⟨hkeys, hnames⟩ := hanswers result hresult
  have hsizes : attributeBucket l "size" (.ofList [("XL", 2), ("S", 1)]) =
      .ofList [("7", { value := "7", count := 2 })] := by decide +kernel
  have hprices : Histogram.ofFacets 2 facets = .ok (.ofList [
      ("10_20", { value := "10_20", count := 1, lower := some 10, upper := some 20 }),
      ("20_30", { value := "20_30", count := 5, lower := some 20, upper := some 30 })]) := by
    decide +kernel
  have htree : categoryBucket l ["3", "4"] facets none =
      .ofList [("3", { value := "3", count := 6 })] := by decide +kernel
  refine ⟨result, hresult, hkeys.trans (by decide), ?_, (hnames "values").1,
    ((hnames "prices").2.2 _).mpr ⟨_, rfl, .prices rfl hprices⟩, ?_,
    ((hnames "numbers").2.2 _).mpr ⟨_, rfl, .noFacet (by decide) (by decide) rfl⟩⟩
  · rw [← hsizes]
    exact ((hnames "values").2.2 _).mpr ⟨sizes, rfl, .options (by decide) (by decide) rfl⟩
  · rw [← htree]
    exact ((hnames "tree").2.2 _).mpr ⟨categories, rfl, .categories rfl rfl⟩

/-- So many buckets of prices are asked for that no list holds their ranges. The colors go without
an answer too. -/
theorem build?_crashes_on_many_ranges :
    let l := ({ labels := ({} : LabelTable).addOption "color" "50" "Blue" } : Tables).lookups
    let facets : FacetCounts := .ofList [("color", .ofList [("Blue", 4)]),
      ("price.USD.default", .ofList [("10", 1), ("20", 1)])]
    build? l 1000000000000000000
      [{ name := "colors", field := "color", kind := .term },
        { name := "prices", field := "price", kind := .dynamic }] facets none = none := by
  decide +kernel

end FacetedSearch.Aggregation
