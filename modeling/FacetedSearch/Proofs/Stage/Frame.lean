import FacetedSearch.Lookup.Table
import FacetedSearch.Proofs.Stage.Runs

/-!
# Filters that are left alone

A stage that makes nothing of a filter keeps it and works on the others as it would without it, and
so does a run of such stages. A filter under the name of a stage may have a shape that the stage
does not expect. Then that stage makes nothing of it, but the last one does not ask for names: a
value under the name of the price is taken for an attribute if it can be one.
-/

namespace FacetedSearch

open OrderedMap

/-- The same work with one filter less. -/
def Work.without (w : Work) (key : String) : Work :=
  { w with filters := w.filters.erase key }

namespace FilterMap

variable {f : Translation} {m : FilterMap} {key : String} {n : FilterNode}

theorem remainder_erase (f : Translation) (m : FilterMap) (key : String) :
    remainder f (m.erase key) = (m.remainder f).erase key := by
  unfold remainder OrderedMap.erase
  rw [filter_filter, filter_filter]
  congr 1
  funext k v
  exact Bool.and_comm _ _

theorem clauses_erase (h : m.get? key = some n) (hf : f key n = none) :
    clauses f (m.erase key) = m.clauses f := by
  have hnothing : ∀ e ∈ m.entries, e.1 = key → f e.1 e.2 = none := by
    rintro ⟨k, n'⟩ he rfl
    rw [get?_eq_some_iff.mpr he] at h
    exact Option.some.inj h ▸ hf
  unfold clauses OrderedMap.erase
  rw [entries_filter]
  generalize m.entries = es at hnothing
  induction es with
  | nil => rfl
  | cons e es ih =>
      have hrest := ih fun e' he' => hnothing e' (List.mem_cons_of_mem e he')
      rw [List.filter_cons, List.flatMap_cons]
      split_ifs with hkey
      · rw [List.flatMap_cons, hrest]
      · rw [hrest, hnothing e List.mem_cons_self (by simpa using hkey)]
        rfl

theorem get?_remainder (h : m.get? key = some n) (hf : f key n = none) :
    (m.remainder f).get? key = some n := by
  rw [remainder, get?_filter, h, Option.filter_some, hf]
  rfl

end FilterMap

theorem Work.translate_without {f : Translation} {w : Work} {key : String} {n : FilterNode}
    (h : w.filters.get? key = some n) (hf : f key n = none) :
    (w.without key).translate f = (w.translate f).without key := by
  unfold Work.translate Work.without
  rw [FilterMap.clauses_erase h hf, FilterMap.remainder_erase]

namespace Stage

variable {config : Config} {l : Lookups} {scope : Option Scope} {w : Work} {key : String}
  {n : FilterNode}

/-! ## One stage -/

/-- Whether a stage fails depends on a price range alone. -/
theorem fault?_erase {m : FilterMap} (h : m.get? key = some n)
    (hrange : key = "price" → n.range? = none) (s : Stage) :
    s.fault? l scope (m.erase key) = s.fault? l scope m := by
  unfold fault?
  rw [get?_erase]
  split_ifs with hkey
  · subst hkey
    rw [h]
    cases n with
    | range r => cases hrange rfl
    | term t => cases s <;> rfl
    | values v => cases s <;> rfl
  · rfl

/-- A stage that makes nothing of a filter keeps it. -/
theorem get?_run (hn : w.filters.get? key = some n) {s : Stage}
    (hs : s.translation config l scope key n = none) :
    (s.run config l scope w).state.filters.get? key = some n := by
  rw [state_run]
  exact FilterMap.get?_remainder hn hs

/-- It does to the rest what it would do without that filter. -/
theorem run_without (hn : w.filters.get? key = some n) (hrange : key = "price" → n.range? = none)
    {s : Stage} (hs : s.translation config l scope key n = none) :
    s.run config l scope (w.without key) =
      { state := (s.run config l scope w).state.without key
        fault? := (s.run config l scope w).fault? } := by
  have hfault : s.fault? l scope (w.without key).filters = s.fault? l scope w.filters :=
    fault?_erase hn hrange s
  rw [run_eq, run_eq, hfault, Work.translate_without hn hs]
  cases s.fault? l scope w.filters <;> rfl

/-! ## Runs of stages -/

section

variable {ss : List Stage}

theorem runAll_without (hn : w.filters.get? key = some n)
    (hrange : key = "price" → n.range? = none)
    (hss : ∀ s ∈ ss, s.translation config l scope key n = none) :
    (runAll config l scope ss w).state.filters.get? key = some n ∧
      runAll config l scope ss (w.without key) =
        { state := (runAll config l scope ss w).state.without key
          fault? := (runAll config l scope ss w).fault? } := by
  induction ss generalizing w with
  | nil => exact ⟨hn, rfl⟩
  | cons s ss ih =>
      have hs := hss s List.mem_cons_self
      have hkept := get?_run hn hs
      simp only [runAll, run_without hn hrange hs]
      cases (s.run config l scope w).fault? with
      | none => exact ih hkept fun s' hs' => hss s' (List.mem_cons_of_mem s hs')
      | some fault => exact ⟨hkept, rfl⟩

theorem after_without (hn : w.filters.get? key = some n)
    (hrange : key = "price" → n.range? = none)
    (hss : ∀ s ∈ ss, s.translation config l scope key n = none) :
    (after config l scope ss w).filters.get? key = some n ∧
      after config l scope ss (w.without key) = (after config l scope ss w).without key := by
  induction ss generalizing w with
  | nil => exact ⟨hn, rfl⟩
  | cons s ss ih =>
      have hs := hss s List.mem_cons_self
      simp only [after, run_without hn hrange hs]
      exact ih (get?_run hn hs) fun s' hs' => hss s' (List.mem_cons_of_mem s hs')

/-- Without a price range no stage fails, and a run that would stop at a failure goes on to the
end. -/
theorem runAll_eq_done_after (h : ∀ r, w.filters.get? "price" ≠ some (.range r)) :
    runAll config l scope ss w = .done (after config l scope ss w) := by
  induction ss generalizing w with
  | nil => rfl
  | cons s ss ih =>
      have hfault : (s.run config l scope w).fault? = none := by
        rw [fault?_run, fault?_eq_none h]
      have hrest : ∀ r, (s.run config l scope w).state.filters.get? "price" ≠ some (.range r) :=
        fun r hr => h r <| get?_eq_some_iff.mpr <|
          (burnsDown_run config l scope s w).filters.subset (get?_eq_some_iff.mp hr)
      rw [runAll, hfault]
      exact ih hrest

end

/-! ## Unexpected shapes -/

/-- Filters under the name of a stage whose shape is not one that the stage takes. -/
inductive Unexpected : String → FilterNode → Prop
  | categoryRange (r : RangeFilter) : Unexpected "category" (.range r)
  | categoryValues (v : ValuesFilter) : Unexpected "category" (.values v)
  | priceTerm (t : TermFilter) : Unexpected "price" (.term t)
  | priceValues (v : ValuesFilter) : Unexpected "price" (.values v)
  | visibilityRange (r : RangeFilter) : Unexpected "visibility" (.range r)

theorem Unexpected.range?_eq_none (h : Unexpected key n) (hkey : key = "price") :
    n.range? = none := by
  cases h with
  | categoryRange r => exact absurd hkey (by decide)
  | visibilityRange r => exact absurd hkey (by decide)
  | categoryValues v => rfl
  | priceTerm t => rfl
  | priceValues v => rfl

/-- Only the stage for attributes may make something of such a filter. -/
theorem Unexpected.translation_eq_none (h : Unexpected key n) {s : Stage} (hs : s ≠ .attribute) :
    s.translation config l scope key n = none := by
  match s with
  | .attribute => exact absurd rfl hs
  | .category => cases h <;> rfl
  | .priceRange => cases h <;> rfl
  | .visibility => cases h <;> rfl

/-- A filter under the name of the price is read as an attribute: it is a value of a configured
field and its option has a label. -/
def ReadAsAttribute (config : Config) (l : Lookups) (scope : Option Scope) (key : String)
    (n : FilterNode) : Prop :=
  key = "price" ∧ ∃ t, n = .term t ∧ config.facets.isConfigured scope t.field = true ∧
    (nonEmpty (l.label t.field t.value)).isSome = true

theorem isSome_attributeClause?_iff :
    (attributeClause? config l scope n).isSome = true ↔
      ∃ t, n = .term t ∧ config.facets.isConfigured scope t.field = true ∧
        (nonEmpty (l.label t.field t.value)).isSome = true := by
  cases n with
  | term t =>
      rw [attributeClause?]
      split_ifs with hfield
      · simp [hfield]
      · simp [hfield]
  | range r => simp [attributeClause?]
  | values v => simp [attributeClause?]

theorem Unexpected.readAsAttribute_iff (h : Unexpected key n) :
    ReadAsAttribute config l scope key n ↔
      (attributeClause? config l scope n).isSome = true := by
  rw [isSome_attributeClause?_iff]
  constructor
  · exact And.right
  · rintro ⟨t, rfl, ht⟩
    cases h with
    | priceTerm t => exact ⟨rfl, t, rfl, ht⟩

/-- After some work a filter is still there as it was, and the parameters are those that the work
makes of the other filters. -/
def LeftAlone (run : Work → Work) (w : Work) (key : String) (n : FilterNode) : Prop :=
  (run w).filters.get? key = some n ∧ (run w).params = (run (w.without key)).params

theorem Unexpected.translation_pipeline (h : Unexpected key n)
    (hread : ¬ ReadAsAttribute config l scope key n) :
    ∀ s ∈ pipeline, s.translation config l scope key n = none := by
  intro s _
  by_cases hs : s = .attribute
  · subst hs
    rw [h.readAsAttribute_iff, Bool.not_eq_true, Option.isSome_eq_false_iff,
      Option.isNone_iff_eq_none] at hread
    exact Option.map_eq_none_iff.mpr hread
  · exact h.translation_eq_none hs

section

variable (hn : w.filters.get? key = some n) (h : Unexpected key n)

include hn h

/-- The stages before the last one keep such a filter, and the last one takes it. -/
theorem Unexpected.get?_after_of_read (hread : ReadAsAttribute config l scope key n) :
    (after config l scope pipeline w).filters.get? key = none := by
  have hbefore : (after config l scope [.category, .priceRange, .visibility] w).filters.get? key =
      some n :=
    (after_without hn h.range?_eq_none fun s hs => h.translation_eq_none (by
      rintro rfl
      exact absurd hs (by decide))).1
  have hclause := h.readAsAttribute_iff.mp hread
  change (runAttribute config l scope
    (after config l scope [.category, .priceRange, .visibility] w)).filters.get? key = none
  rw [runAttribute, get?_filter, hbefore, Option.filter_some,
    Option.isNone_eq_false_iff.mpr hclause]
  rfl

theorem Unexpected.leftAlone_after_iff :
    LeftAlone (after config l scope pipeline) w key n ↔
      ¬ ReadAsAttribute config l scope key n := by
  constructor
  · intro halone hread
    have hgone := h.get?_after_of_read hn hread
    rw [halone.1] at hgone
    cases hgone
  · intro hread
    obtain ⟨hkept, hrun⟩ := after_without hn h.range?_eq_none (h.translation_pipeline hread)
    exact ⟨hkept, (congrArg Work.params hrun).symm⟩

theorem Unexpected.leftAlone_runAll_iff :
    LeftAlone (fun w => (runAll config l scope pipeline w).state) w key n ↔
      ¬ ReadAsAttribute config l scope key n := by
  constructor
  · intro halone hread
    have hrange : ∀ r, w.filters.get? "price" ≠ some (.range r) := by
      rintro r hr
      rw [← hread.1, hn, Option.some.injEq] at hr
      subst hr
      cases h.range?_eq_none hread.1
    have hgone := h.get?_after_of_read hn hread
    have hkept : (runAll config l scope pipeline w).state.filters.get? key = some n := halone.1
    rw [runAll_eq_done_after hrange, Attempt.done, hgone] at hkept
    cases hkept
  · intro hread
    obtain ⟨hkept, hrun⟩ := runAll_without hn h.range?_eq_none (h.translation_pipeline hread)
    exact ⟨hkept, (congrArg (·.state.params) hrun).symm⟩

end

/-- A filter of an unexpected shape under the name of a stage is left alone by the pipeline exactly
if it is not read as an attribute, which happens under the name of the price only. This holds
where the pipeline stops at a failure and where it goes on after one. -/
theorem unexpected_leftAlone_iff (config : Config) (l : Lookups) (scope : Option Scope) {w : Work}
    {key : String} {n : FilterNode} (hn : w.filters.get? key = some n) (h : Unexpected key n) :
    (LeftAlone (fun w => (runAll config l scope pipeline w).state) w key n ↔
        ¬ ReadAsAttribute config l scope key n) ∧
      (LeftAlone (after config l scope pipeline) w key n ↔
        ¬ ReadAsAttribute config l scope key n) :=
  ⟨h.leftAlone_runAll_iff hn, h.leftAlone_after_iff hn⟩

/-- A single price is left alone where prices are no attribute, beside a colour that is taken. -/
theorem unexpected_leftAlone_of_single_price :
    let config : Config := { facets := { common := ["color"] } }
    let l := ({ labels := ({} : LabelTable).addOption "color" "50" "Blue" } : Tables).lookups
    let w : Work := {
      params := ∅
      filters := .ofList [("price", .ofTerm "price" "10"), ("color", .ofTerm "color" "50")] }
    w.filters.get? "price" = some (.ofTerm "price" "10") ∧
      Unexpected "price" (.ofTerm "price" "10") ∧
      LeftAlone (fun w => (runAll config l (some 1) pipeline w).state) w "price"
        (.ofTerm "price" "10") ∧
      LeftAlone (after config l (some 1) pipeline) w "price" (.ofTerm "price" "10") := by
  intro config l w
  have hn : w.filters.get? "price" = some (.ofTerm "price" "10") := by decide
  have hshape : Unexpected "price" (.ofTerm "price" "10") := .priceTerm _
  have hread : ¬ ReadAsAttribute config l (some 1) "price" (.ofTerm "price" "10") := by
    rintro ⟨-, t, ht, hfield, -⟩
    cases ht
    exact absurd hfield (by decide)
  obtain ⟨hstop, hgoOn⟩ := unexpected_leftAlone_iff config l (some 1) hn hshape
  exact ⟨hn, hshape, hstop.mpr hread, hgoOn.mpr hread⟩

/-- A colour under the name of the price is sent as a colour, and nothing is left. -/
theorem price_term_read_as_attribute :
    let config : Config := { facets := { common := ["color"] } }
    let l := ({ labels := ({} : LabelTable).addOption "color" "50" "Blue" } : Tables).lookups
    let w : Work := { params := ∅, filters := .ofList [("price", .ofTerm "color" "50")] }
    let done := (runAll config l (some 1) pipeline w).state
    w.filters.get? "price" = some (.ofTerm "color" "50") ∧
      Unexpected "price" (.ofTerm "color" "50") ∧
      done.filters.entries = [] ∧ done.params.clauses Params.facetFilters = ["color:Blue"] ∧
      ¬ LeftAlone (fun w => (runAll config l (some 1) pipeline w).state) w "price"
        (.ofTerm "color" "50") := by
  intro config l w done
  have hgone : done.filters.entries = [] := by decide
  refine ⟨by decide, .priceTerm _, hgone, by decide, fun halone => ?_⟩
  have hmem := get?_eq_some_iff.mp halone.1
  change _ ∈ done.filters.entries at hmem
  rw [hgone] at hmem
  cases hmem

end Stage

end FacetedSearch
