import FacetedSearch.Lookup.Table
import FacetedSearch.Proofs.Aggregation
import FacetedSearch.Proofs.Compile.Reference
import Mathlib.Data.List.Induction

/-!
# From labels to options and back

The engine counts labels, shoppers choose among options, and a chosen option is sent back to the
engine as a label. Both ways go through the same table, each by a search of its own for what comes
first. Where the options of a field are distinct, a value of a bucket asks for exactly the label
that it was counted under.
-/

namespace FacetedSearch

theorem nonEmpty_eq_some_iff {s : Option String} {t : String} :
    nonEmpty s = some t ↔ s = some t ∧ t ≠ "" := by
  simp [nonEmpty, Option.filter_eq_some_iff]

namespace LabelTable

/-- An option as it is entered into a table. -/
structure Entry where
  field : String
  id : String
  label : String
deriving Repr, DecidableEq

/-- A table that is filled entry by entry. -/
def ofEntries (es : List Entry) : LabelTable :=
  es.foldl (fun t e => t.addOption e.field e.id e.label) {}

/-- The options of a field with their labels, in the order in which they are searched. -/
def optionsOf (t : LabelTable) (field : String) : List (String × String) :=
  (t.options.get? field).getD []

theorem optionsOf_addOption (t : LabelTable) (field id label field' : String) :
    (t.addOption field id label).optionsOf field' =
      t.optionsOf field' ++ if field' = field then [(id, label)] else [] := by
  unfold optionsOf addOption
  rw [OrderedMap.get?_insert]
  split_ifs with h
  · rw [h, Option.getD_some]
  · rw [List.append_nil]

theorem optionsOf_ofEntries (es : List Entry) (field : String) :
    (ofEntries es).optionsOf field =
      (es.filter fun e => decide (e.field = field)).map fun e => (e.id, e.label) := by
  unfold ofEntries
  induction es using List.reverseRecOn with
  | nil => rfl
  | append_singleton es e ih =>
      rw [List.foldl_concat, optionsOf_addOption, ih, List.filter_append, List.map_append]
      by_cases h : e.field = field
      · rw [if_pos h.symm, List.filter_cons_of_pos (by simpa using h)]
        rfl
      · rw [if_neg (Ne.symm h), List.filter_cons_of_neg (by simpa using h)]
        rfl

/-- Options that are entered once for a field stand once in its list. -/
theorem nodup_optionsOf {es : List Entry} {field : String}
    (h : ((es.filter fun e => decide (e.field = field)).map Entry.id).Nodup) :
    (((ofEntries es).optionsOf field).map Prod.fst).Nodup := by
  rw [optionsOf_ofEntries, List.map_map]
  exact h

theorem mem_of_optionId? {t : LabelTable} {field label id : String}
    (h : t.optionId? field label = some id) : (id, label) ∈ t.optionsOf field := by
  obtain ⟨hfound, -⟩ := nonEmpty_eq_some_iff.mp h
  obtain ⟨os, hos, hfirst⟩ := Option.bind_eq_some_iff.mp hfound
  obtain ⟨o, ho, rfl⟩ := Option.map_eq_some_iff.mp hfirst
  have hlabel : o.2 = label := by simpa using List.find?_some ho
  rw [optionsOf, hos, Option.getD_some, ← hlabel]
  exact List.mem_of_find?_eq_some ho

/-- Among distinct options the search for an option ends at its own label. -/
theorem label?_of_mem {t : LabelTable} {field id label : String}
    (hdistinct : ((t.optionsOf field).map Prod.fst).Nodup)
    (h : (id, label) ∈ t.optionsOf field) : t.label? field id = nonEmpty (some label) := by
  unfold label?
  congr 1
  cases hos : t.options.get? field with
  | none => simp [optionsOf, hos] at h
  | some os =>
      rw [optionsOf, hos, Option.getD_some] at h hdistinct
      have hfirst : os.find? (fun o => o.1 == id) = some (id, label) := by
        obtain ⟨before, after, rfl⟩ := List.append_of_mem h
        have hbefore : ∀ o ∈ before, (!(o.1 == id)) = true := by
          intro o ho
          rw [List.map_append, List.map_cons, List.nodup_append] at hdistinct
          simpa using hdistinct.2.2 o.1 (List.mem_map_of_mem ho) id List.mem_cons_self
        exact List.find?_eq_some_iff_append.mpr ⟨beq_self_eq_true id, before, after, rfl, hbefore⟩
      rw [Option.bind_some, hfirst, Option.map_some]

end LabelTable

/-- Lookups whose labels and options come from a table. -/
def Lookups.withLabels (l : Lookups) (t : LabelTable) : Lookups :=
  { l with label := t.label?, optionId := t.optionId? }

namespace Reference

/-- A term alone under a name of its own becomes its facet value and is not left. -/
theorem compileWith_of_labelled {config : Config} {l : Lookups} {scope : Option Scope}
    {r : SearchRequest} {key clause : String} {t : TermFilter}
    (hr : r.filters?.map OrderedMap.entries = some [(key, .term t)])
    (hcategory : key ≠ "category") (hvisibility : key ≠ "visibility")
    (hclause : labelled? config l scope t = some clause) (p : Paging) (facets : List String) :
    (r.compileWith config l p scope facets).params.get? Params.facetFilters =
        some (.ofStrings [clause]) ∧
      (r.compileWith config l p scope facets).remainder = ∅ := by
  obtain ⟨m, hm, hentries⟩ := Option.map_eq_some_iff.mp hr
  have hget (name : String) : m.get? name = if name = key then some (.term t) else none := by
    unfold OrderedMap.get?
    rw [hentries, OrderedMap.lookup_cons_eq_ite]
    rfl
  have hidle : priceStage l scope m = .idle := by
    unfold priceStage
    rw [hget]
    split_ifs <;> rfl
  have hnone : categoryValues m = [] := by
    unfold categoryValues
    rw [hget, if_neg hcategory.symm]
  have hfacets : facetFilters config l scope m = [clause] := by
    simp [facetFilters, attributeClauses, hnone, hidle, hentries, hcategory, hvisibility, hclause]
  have hreq : filters r = m := by rw [← filters_eq, hm, Option.getD_some]
  constructor
  · rw [get?_facetFilters_compileWith (by rw [hreq, hfacets]; exact List.cons_ne_nil _ _), hreq,
      hfacets]
  · rw [remainder_compileWith, hreq]
    apply OrderedMap.ext_entries
    simp [hentries, taken, hidle, hclause]

end Reference

namespace LabelTable

/-- A value of an attribute's bucket asks for the label that it was counted under, if the options of
the field are distinct. There is one such label for each value; unless it is the empty one, a
request for the value, in a scope where the field is configured, compiles to that label and leaves
no filter. -/
theorem label_of_bucket_value {es : List Entry} {field : String}
    (hdistinct : ((es.filter fun e => decide (e.field = field)).map Entry.id).Nodup)
    (others : Lookups) {config : Config} {scope : Option Scope}
    (hfield : field ∈ config.facets.forScope scope)
    {counts : OrderedMap String ℕ} {id : String} {v : BucketValue}
    (hv : (Aggregation.attributeBucket (others.withLabels (ofEntries es)) field counts).get? id =
      some v) :
    ∃ label, counts.get? label = some v.count ∧
      (ofEntries es).optionId? field label = some id ∧
      (∀ label', (ofEntries es).optionId? field label' = some id → label' = label) ∧
      (label ≠ "" → ∀ (r : SearchRequest) (key : String) (p : Paging),
        r.filters?.map OrderedMap.entries = some [(key, .ofTerm field id)] →
        key ≠ "category" → key ≠ "visibility" →
        ¬ FacetsTooLong config (others.withLabels (ofEntries es)) scope →
        ∃ compiled, r.compileIn? config (others.withLabels (ofEntries es)) p scope =
            some compiled ∧
          compiled.params.get? Params.facetFilters = some (.ofStrings [field ++ ":" ++ label]) ∧
          compiled.remainder = ∅) := by
  have hnodup := nodup_optionsOf hdistinct
  obtain ⟨label, hcount, hoption, -⟩ := Aggregation.exists_label_of_get?_attributeBucket hv
  have hid : (ofEntries es).optionId? field label = some id := (nonEmpty_eq_some_iff.mp hoption).1
  have hmem := mem_of_optionId? hid
  refine ⟨label, hcount, hid, fun label' hid' => ?_, ?_⟩
  · have hsame := (OrderedMap.lookup_eq_some_iff_mem hnodup).mpr (mem_of_optionId? hid')
    rw [(OrderedMap.lookup_eq_some_iff_mem hnodup).mpr hmem] at hsame
    exact (Option.some.inj hsame).symm
  · intro hlabel r key p hr hcategory hvisibility hlong
    have hfound : (others.withLabels (ofEntries es)).label field id = some label := by
      change (ofEntries es).label? field id = some label
      rw [label?_of_mem hnodup hmem]
      exact nonEmpty_eq_some_iff.mpr ⟨rfl, hlabel⟩
    have hclause : Reference.labelled? config (others.withLabels (ofEntries es)) scope
        ⟨field, id⟩ = some (field ++ ":" ++ label) := by
      rw [forScope_eq] at hfield
      simp only [Reference.labelled?, if_pos hfield, hfound, if_neg hlabel]
    have hlist := facetList?_eq config (others.withLabels (ofEntries es)) scope
    rw [if_neg hlong] at hlist
    exact ⟨_, SearchRequest.compileIn?_eq_some_iff.mpr ⟨_, hlist, rfl⟩,
      Reference.compileWith_of_labelled hr hcategory hvisibility hclause p _⟩

/-- A label that two options share, an option without a label, and the same option number in
another field. -/
theorem label_of_bucket_value_with_shared_label :
    let es : List Entry := [⟨"color", "49", ""⟩, ⟨"size", "50", "XL"⟩, ⟨"color", "50", "Blue"⟩,
      ⟨"color", "51", "Blue"⟩]
    let l : Lookups := {
      scope := fun _ => .ok 1, priceKey := fun _ => .ok "USD.default", label := fun _ _ => none,
      optionId := fun _ _ => none, paths := fun _ _ => ∅ }
    let config : Config := { facets := { common := ["color"] } }
    let counts : OrderedMap String ℕ := .ofList [("Teal", 3), ("", 1), ("Blue", 7)]
    let r : SearchRequest := {
      index := "products", query := .bool [("shade", .filter (.ofTerm "color" "50"))] [] [] }
    ((es.filter fun e => decide (e.field = "color")).map Entry.id).Nodup ∧
      "color" ∈ config.facets.forScope (some 1) ∧
      (Aggregation.attributeBucket (l.withLabels (ofEntries es)) "color" counts).get? "50" =
        some { value := "50", count := 7 } ∧
      ¬ FacetsTooLong config (l.withLabels (ofEntries es)) (some 1) ∧
      ∃ compiled, r.compileIn? config (l.withLabels (ofEntries es)) (Paging.mk 1 20 0) (some 1) =
          some compiled ∧
        compiled.params.get? Params.facetFilters = some (.ofStrings ["color:Blue"]) ∧
        compiled.remainder = ∅ := by
  intro es l config counts r
  have hdistinct : ((es.filter fun e => decide (e.field = "color")).map Entry.id).Nodup := by
    decide
  have hfield : "color" ∈ config.facets.forScope (some 1) := List.mem_singleton.mpr rfl
  have hv : (Aggregation.attributeBucket (l.withLabels (ofEntries es)) "color" counts).get? "50" =
      some { value := "50", count := 7 } := by decide
  have hlong : ¬ FacetsTooLong config (l.withLabels (ofEntries es)) (some 1) := by decide +kernel
  refine ⟨hdistinct, hfield, hv, hlong, ?_⟩
  obtain ⟨label, -, -, honly, hcompile⟩ := label_of_bucket_value hdistinct l hfield hv
  obtain rfl : "Blue" = label := honly "Blue" (by decide)
  exact hcompile (by decide) r "shade" _ rfl (by decide) (by decide) hlong

end LabelTable

end FacetedSearch
