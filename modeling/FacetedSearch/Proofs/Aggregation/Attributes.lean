import FacetedSearch.Lookup.Table
import FacetedSearch.Proofs.Aggregation
import FacetedSearch.Proofs.OrderedMap.Groups

/-!
# Labels of one option

Several labels may belong to one option. The bucket of an attribute then has the option once, with
the count of the last of them; the counts of the others are lost.
-/

namespace FacetedSearch.Aggregation

open OrderedMap

section

variable (l : Lookups) (field : String) (counts : OrderedMap String ℕ)

/-- The option that a label belongs to, if it belongs to any. -/
def optionOf? (label : String) : Option String := nonEmpty (l.optionId field label)

/-- The counts of the labels of an option, in the order of the labels. -/
def labelCounts (id : String) : List ℕ :=
  (counts.entries.filter fun e => decide (optionOf? l field e.1 = some id)).map Prod.snd

/-- All counts of labels that belong to an option, under their options. -/
def optionCounts : List (String × ℕ) :=
  counts.entries.filterMap fun e => (optionOf? l field e.1).map (·, e.2)

theorem attributeBucket_eq_map :
    attributeBucket l field counts =
      (ofList (optionCounts l field counts)).map fun id count => { value := id, count } := by
  rw [attributeBucket_eq_ofList, map_ofList, optionCounts, List.map_filterMap]
  congr 2
  funext e
  rw [Option.map_map]
  rfl

theorem keys_optionCounts :
    (optionCounts l field counts).map Prod.fst = counts.keys.filterMap (optionOf? l field) := by
  rw [optionCounts, keys, List.map_filterMap, List.filterMap_map]
  congr 1
  funext e
  rw [Option.map_map]
  exact Option.map_id'

theorem valuesOf_optionCounts (id : String) :
    valuesOf (optionCounts l field counts) id = labelCounts l field counts id := by
  unfold optionCounts labelCounts
  induction counts.entries with
  | nil => rfl
  | cons e es ih =>
      rw [List.filterMap_cons, List.filter_cons]
      cases hid : optionOf? l field e.1 with
      | none => simpa using ih
      | some id' =>
          rw [Option.map_some, valuesOf_cons, ih]
          by_cases h : id' = id <;> simp [h]

theorem sum_optionCounts :
    total (fun count => count) (optionCounts l field counts) =
      ((counts.entries.filter fun e => (optionOf? l field e.1).isSome).map Prod.snd).sum := by
  unfold optionCounts
  induction counts.entries with
  | nil => rfl
  | cons e es ih =>
      rw [List.filterMap_cons, List.filter_cons]
      cases optionOf? l field e.1 with
      | none => simpa using ih
      | some id => simpa using ih

/-- The options of the labels, each once, in the order in which they are first reached. -/
theorem keys_attributeBucket :
    (attributeBucket l field counts).keys =
      (counts.keys.filterMap (optionOf? l field)).eraseDups := by
  rw [attributeBucket_eq_map, keys_map, keys_ofList, keys_optionCounts]

/-- Of the labels of an option the last one's count is reported. -/
theorem get?_attributeBucket (id : String) :
    (attributeBucket l field counts).get? id =
      (labelCounts l field counts id).getLast?.map fun count => { value := id, count } := by
  rw [attributeBucket_eq_map, get?_map, get?_ofList_eq_getLast?, valuesOf_optionCounts]

/-- Of the labels of one option none but the last has a count. -/
def CountsLastLabels : Prop :=
  ∀ id, ∀ count ∈ (labelCounts l field counts id).dropLast, count = 0

theorem total_attributeBucket_eq_iff :
    total BucketValue.count (attributeBucket l field counts).entries =
        ((counts.entries.filter fun e => (optionOf? l field e.1).isSome).map Prod.snd).sum ↔
      CountsLastLabels l field counts := by
  rw [attributeBucket_eq_map, total_map (f := fun count => count) fun _ _ => rfl,
    ← sum_optionCounts, total_ofList_eq_iff_dropLast]
  simp only [valuesOf_optionCounts, CountsLastLabels]

theorem getLast?_eq_sum_iff {counts : List ℕ} {count : ℕ} (h : counts.getLast? = some count) :
    count = counts.sum ↔ ∀ n ∈ counts.dropLast, n = 0 := by
  have hsum := sum_dropLast_add_getLast? (fun n => n) counts
  simp only [h, List.map_id', Option.toList_some, List.sum_singleton] at hsum
  rw [← List.sum_eq_zero_iff]
  omega

theorem counts_attributeBucket_eq_iff :
    (∀ id v, (attributeBucket l field counts).get? id = some v →
        v.count = (labelCounts l field counts id).sum) ↔
      CountsLastLabels l field counts := by
  simp only [get?_attributeBucket, Option.map_eq_some_iff]
  constructor
  · intro h id
    cases hlast : (labelCounts l field counts id).getLast? with
    | none => simp [List.getLast?_eq_none_iff.mp hlast]
    | some count =>
        exact (getLast?_eq_sum_iff hlast).mp (h id _ ⟨count, hlast, rfl⟩)
  · rintro h id v ⟨count, hlast, rfl⟩
    exact (getLast?_eq_sum_iff hlast).mpr (h id)

/-- The bucket of an attribute lists the options that its labels belong to, in the order in which
they are first reached, each with the count of its last label. These counts are the sums over the
labels, and add up to the counts of all labels that have an option, exactly if none but the last
label of an option has a count. -/
theorem attributeBucket_lossless_iff :
    (attributeBucket l field counts).keys =
        (counts.keys.filterMap (optionOf? l field)).eraseDups ∧
      (∀ id, (attributeBucket l field counts).get? id =
        (labelCounts l field counts id).getLast?.map fun count => { value := id, count }) ∧
      ((∀ id v, (attributeBucket l field counts).get? id = some v →
          v.count = (labelCounts l field counts id).sum) ↔ CountsLastLabels l field counts) ∧
      (total BucketValue.count (attributeBucket l field counts).entries =
          ((counts.entries.filter fun e => (optionOf? l field e.1).isSome).map Prod.snd).sum ↔
        CountsLastLabels l field counts) :=
  ⟨keys_attributeBucket l field counts, get?_attributeBucket l field counts,
    counts_attributeBucket_eq_iff l field counts, total_attributeBucket_eq_iff l field counts⟩

end

/-- Three hits for blue and four for navy, which are one option, are reported as four. -/
theorem attributeBucket_overwrites_synonym :
    let labels := (({} : LabelTable).addOption "color" "50" "Blue").addOption "color" "50" "Navy"
    let l := ({ labels } : Tables).lookups
    let counts : OrderedMap String ℕ := .ofList [("Blue", 3), ("Navy", 4)]
    (attributeBucket l "color" counts).entries = [("50", { value := "50", count := 4 })] ∧
      (labelCounts l "color" counts "50").sum = 7 ∧
      ((counts.entries.filter fun e => (optionOf? l "color" e.1).isSome).map Prod.snd).sum = 7 := by
  decide

end FacetedSearch.Aggregation
