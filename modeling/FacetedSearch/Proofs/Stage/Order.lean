import FacetedSearch.Lookup.Table
import FacetedSearch.Proofs.Stage.Runs

/-!
# Stages in another order

Each of the first three stages looks at one filter only, and no two of them at the same one. So two
of them that change places take the same filters and add the same clauses. Prices and visibilities
add to one family, whose clauses then change places too; nothing else in the parameters shows the
order. The last stage takes what the others have left, which does not depend on their order either.
-/

namespace FacetedSearch

/-- What two translations leave does not depend on which of them comes first. -/
theorem FilterMap.remainder_comm (f g : Translation) (m : FilterMap) :
    (m.remainder f).remainder g = (m.remainder g).remainder f := by
  unfold remainder
  rw [OrderedMap.filter_filter, OrderedMap.filter_filter]
  congr 1
  funext k n
  exact Bool.and_comm _ _

namespace Stage

variable {config : Config} {l : Lookups} {scope : Option Scope} {s t : Stage}

/-! ## Two stages -/

/-- The name of the filter that a stage looks at. The last stage looks at all filters. -/
def filterName? : Stage → Option String
  | .category => some "category"
  | .priceRange => some "price"
  | .visibility => some "visibility"
  | .attribute => none

theorem exists_translation_eq_only (config : Config) (l : Lookups) (scope : Option Scope)
    (h : s ≠ .attribute) :
    ∃ name f, s.filterName? = some name ∧ s.translation config l scope = only name f := by
  match s with
  | .category => exact ⟨_, _, rfl, rfl⟩
  | .priceRange => exact ⟨_, _, rfl, rfl⟩
  | .visibility => exact ⟨_, _, rfl, rfl⟩
  | .attribute => exact absurd rfl h

theorem filterName?_injective : Function.Injective filterName? := by
  intro s t h
  revert h
  cases s <;> cases t <;> decide

/-- A stage takes nothing that another one would make clauses of. -/
theorem clauses_remainder_of_ne (hst : s ≠ t) (hs : s ≠ .attribute) (ht : t ≠ .attribute)
    (m : FilterMap) :
    (m.remainder (s.translation config l scope)).clauses (t.translation config l scope) =
      m.clauses (t.translation config l scope) := by
  obtain ⟨name, f, hname, hf⟩ := exists_translation_eq_only config l scope hs
  obtain ⟨name', g, hname', hg⟩ := exists_translation_eq_only config l scope ht
  have hne : name' ≠ name := fun h => hst (filterName?_injective (by rw [hname, hname', h]))
  rw [hf, hg, clauses_only, clauses_only, get?_remainder_only_of_ne hne]

/-- Prices and visibilities become numeric conditions. -/
theorem exists_clauses_eq_map (config : Config) (l : Lookups) (scope : Option Scope)
    (hcategory : s ≠ .category) (hattribute : s ≠ .attribute) (m : FilterMap) :
    ∃ clauses : List String,
      m.clauses (s.translation config l scope) = clauses.map (Params.numericFilters, ·) := by
  match s with
  | .category => exact absurd rfl hcategory
  | .attribute => exact absurd rfl hattribute
  | .priceRange =>
      rw [translation, clauses_only]
      rcases m.get? "price" with _ | ⟨t | r | v⟩
      · exact ⟨[], rfl⟩
      · exact ⟨[], rfl⟩
      · rw [Option.bind_some, priceClauses?]
        rcases scope.bind fun s => (l.priceFacet s).toOption with _ | facet
        · exact ⟨[], rfl⟩
        · exact ⟨priceClauses facet r, rfl⟩
      · exact ⟨[], rfl⟩
  | .visibility =>
      rw [translation, clauses_only]
      rcases m.get? "visibility" with _ | n
      · exact ⟨[], rfl⟩
      · rw [Option.bind_some, visibilityClauses?]
        rcases visibilityCodes? n with _ | codes
        · exact ⟨[], rfl⟩
        · exact ⟨visibilityClauses config.visibility codes, rfl⟩

/-- Of two stages at most one adds clauses to a family other than that of numeric conditions. -/
theorem ofFamily_eq_nil_or (hst : s ≠ t) (hs : s ≠ .attribute) (ht : t ≠ .attribute)
    {key : String} (hkey : key ≠ Params.numericFilters) (m : FilterMap) :
    Params.ofFamily key (m.clauses (s.translation config l scope)) = [] ∨
      Params.ofFamily key (m.clauses (t.translation config l scope)) = [] := by
  by_cases hcategory : s = .category
  · have hother : t ≠ .category := fun h => hst (hcategory.trans h.symm)
    obtain ⟨clauses, hclauses⟩ := exists_clauses_eq_map config l scope hother ht m
    exact .inr (hclauses ▸ Params.ofFamily_map_of_ne hkey.symm clauses)
  · obtain ⟨clauses, hclauses⟩ := exists_clauses_eq_map config l scope hcategory hs m
    exact .inl (hclauses ▸ Params.ofFamily_map_of_ne hkey.symm clauses)

/-! ## Agreement up to the order of numeric conditions -/

/-- Two works with the same filters and the same parameters, but that the numeric conditions may
stand in another order. -/
structure Agree (u v : Work) : Prop where
  filters : u.filters = v.filters
  others : ∀ key, key ≠ Params.numericFilters → u.params.get? key = v.params.get? key
  numerics : (u.params.clauses Params.numericFilters).Perm
    (v.params.clauses Params.numericFilters)

theorem Agree.refl (w : Work) : Agree w w where
  filters := rfl
  others _ _ := rfl
  numerics := .refl _

theorem Agree.trans {u v w : Work} (huv : Agree u v) (hvw : Agree v w) : Agree u w where
  filters := huv.filters.trans hvw.filters
  others key hkey := (huv.others key hkey).trans (hvw.others key hkey)
  numerics := huv.numerics.trans hvw.numerics

theorem Agree.clauses {u v : Work} (h : Agree u v) {family : String}
    (hfamily : family ≠ Params.numericFilters) :
    u.params.clauses family = v.params.clauses family := by
  rw [Params.clauses_eq_texts, Params.clauses_eq_texts, h.others family hfamily]

/-- A stage adds the same clauses on both sides. -/
theorem Agree.run {u v : Work} (h : Agree u v) (s : Stage) :
    Agree (s.run config l scope u).state (s.run config l scope v).state := by
  rw [state_run, state_run]
  unfold Work.translate
  rw [h.filters]
  constructor
  · rfl
  · intro key hkey
    rw [Params.get?_appendClauses, Params.get?_appendClauses, h.others key hkey]
  · rw [Params.clauses_appendClauses, Params.clauses_appendClauses]
    exact h.numerics.append_right _

theorem Agree.after {u v : Work} (h : Agree u v) (ss : List Stage) :
    Agree (after config l scope ss u) (after config l scope ss v) := by
  induction ss generalizing u v with
  | nil => exact h
  | cons s ss ih => exact ih (h.run s)

/-- Two of the first three stages may change places. -/
theorem agree_run_run (hs : s ≠ .attribute) (ht : t ≠ .attribute) (w : Work) :
    Agree (t.run config l scope (s.run config l scope w).state).state
      (s.run config l scope (t.run config l scope w).state).state := by
  by_cases hst : s = t
  · subst hst
    exact .refl _
  · simp only [state_run]
    unfold Work.translate
    dsimp only
    rw [clauses_remainder_of_ne hst hs ht, clauses_remainder_of_ne (Ne.symm hst) ht hs]
    constructor
    · exact FilterMap.remainder_comm ..
    · intro key hkey
      simp only [Params.get?_appendClauses]
      rcases ofFamily_eq_nil_or hst hs ht hkey w.filters with h | h
      · rw [h]
        rfl
      · rw [h]
        rfl
    · simp only [Params.clauses_appendClauses, List.append_assoc]
      exact List.perm_append_comm.append_left _

/-! ## Runs -/

/-- Runs of the same stages, none of them the last one, agree whatever their order. -/
theorem agree_after_of_perm {ss ts : List Stage} (h : ss.Perm ts) (hss : .attribute ∉ ss)
    (w : Work) : Agree (after config l scope ss w) (after config l scope ts w) := by
  induction h generalizing w with
  | nil => exact .refl w
  | cons s _ ih => exact ih (fun hm => hss (List.mem_cons_of_mem s hm)) _
  | swap s t ss =>
      simp only [List.mem_cons, not_or] at hss
      exact (agree_run_run (Ne.symm hss.1) (Ne.symm hss.2.1) w).after ss
  | trans h _ ih ih' =>
      exact (ih hss w).trans (ih' (fun hm => hss (h.mem_iff.mpr hm)) w)

/-- The first three stages may run in any order before the last one, on after failures. The filters
that are left are those that the pipeline leaves; facet values, rule contexts and all other
parameters but the numeric conditions are the same, and the numeric conditions are the same up to
their order. -/
theorem after_pipeline_of_perm (config : Config) (l : Lookups) (scope : Option Scope)
    {ss : List Stage} (h : ss.Perm [.category, .priceRange, .visibility]) (w : Work) :
    let expected := after config l scope pipeline w
    let actual := after config l scope (ss ++ [.attribute]) w
    actual.filters = expected.filters ∧
      actual.params.clauses Params.facetFilters = expected.params.clauses Params.facetFilters ∧
      actual.params.clauses Params.ruleContexts = expected.params.clauses Params.ruleContexts ∧
      (∀ key, key ≠ Params.numericFilters →
        actual.params.get? key = expected.params.get? key) ∧
      (actual.params.clauses Params.numericFilters).Perm
        (expected.params.clauses Params.numericFilters) := by
  intro expected actual
  have hlast : .attribute ∉ ss := fun hm => by simpa using h.mem_iff.mp hm
  have hagree : Agree actual expected := by
    change Agree (after config l scope (ss ++ [.attribute]) w)
      (after config l scope ([.category, .priceRange, .visibility] ++ [.attribute]) w)
    rw [after_append, after_append]
    exact (agree_after_of_perm h hlast w).after [.attribute]
  exact ⟨hagree.filters, hagree.clauses (by decide), hagree.clauses (by decide), hagree.others,
    hagree.numerics⟩

/-- A text stands where the numeric conditions go. The visibility comes before the price there if
its stage runs first, and the facet values are in the same order all the same. -/
theorem after_pipeline_of_reversed :
    let config : Config := { facets := { common := ["color"] } }
    let l := ({ priceKeys := .ofList [(1, "USD.default")],
                labels := ({} : LabelTable).addOption "color" "50" "Blue" } : Tables).lookups
    let w : Work := {
      params := .ofList [(Params.numericFilters, .string "stock>0")]
      filters := .ofList [("shade", .ofTerm "color" "50"), ("visibility", .ofTerm "visibility" "3"),
        ("price", .ofRange "price" (some 10) none), ("category", .ofTerm "category" "7")] }
    let reversed : List Stage := [.visibility, .priceRange, .category]
    let actual := after config l (some 1) (reversed ++ [.attribute]) w
    reversed.Perm [.category, .priceRange, .visibility] ∧
      actual.params.clauses Params.numericFilters =
        ["stock>0", "visibility_search=1", "price.USD.default>=10.000"] ∧
      actual.params.clauses Params.facetFilters =
        (after config l (some 1) pipeline w).params.clauses Params.facetFilters ∧
      (actual.params.clauses Params.numericFilters).Perm
        ((after config l (some 1) pipeline w).params.clauses Params.numericFilters) := by
  intro config l w reversed actual
  have hperm : reversed.Perm [.category, .priceRange, .visibility] := by decide
  obtain ⟨-, hfacets, -, -, hnumerics⟩ := after_pipeline_of_perm config l (some 1) hperm w
  exact ⟨hperm, by decide +kernel, hfacets, hnumerics⟩

end Stage

end FacetedSearch
