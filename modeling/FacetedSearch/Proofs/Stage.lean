import FacetedSearch.Proofs.Params
import FacetedSearch.Stage

/-!
# Stages entry by entry

What a stage makes of a filter depends on that filter and its name alone. So a stage that does
not fail splits the filters: those it understands become clauses in the order of the map, and
the others stay as they are. Only a price key that is not available makes a stage fail, and then
the stage has done nothing.
-/

namespace FacetedSearch

theorem Lookups.priceFacet_eq (l : Lookups) (s : Scope) :
    l.priceFacet s = (l.priceKey s).map fun suffix => "price." ++ Text.dropLeading '.' suffix := by
  unfold Lookups.priceFacet
  cases l.priceKey s <;> rfl

/-- A clause after the family it belongs to. -/
abbrev Clause := String × String

namespace Params

def appendClauses (p : Params) (clauses : List Clause) : Params :=
  clauses.foldl (fun p c => p.append c.1 c.2) p

@[simp] theorem appendClauses_nil (p : Params) : p.appendClauses [] = p := rfl

@[simp] theorem appendClauses_cons (p : Params) (c : Clause) (cs : List Clause) :
    p.appendClauses (c :: cs) = (p.append c.1 c.2).appendClauses cs := rfl

theorem appendClauses_map (p : Params) (family : String) (clauses : List String) :
    p.appendClauses (clauses.map (family, ·)) = p.appendAll family clauses := by
  induction clauses generalizing p with
  | nil => rfl
  | cons clause clauses ih => exact ih (p.append family clause)

theorem get?_appendClauses_of_not_mem {key : String} {cs : List Clause}
    (h : key ∉ cs.map Prod.fst) (p : Params) : (p.appendClauses cs).get? key = p.get? key := by
  induction cs generalizing p with
  | nil => rfl
  | cons c cs ih =>
      simp only [List.map_cons, List.mem_cons, not_or] at h
      rw [appendClauses_cons, ih h.2, get?_append_of_ne p h.1]

end Params

/-- What is made of each filter: its clauses, or nothing if it is left alone. -/
abbrev Translation := String → FilterNode → Option (List Clause)

namespace FilterMap

def clauses (f : Translation) (m : FilterMap) : List Clause :=
  m.entries.flatMap fun e => (f e.1 e.2).getD []

def remainder (f : Translation) (m : FilterMap) : FilterMap :=
  m.filter fun k n => (f k n).isNone

end FilterMap

namespace FilterMap

/-- A second translation sees the filters that the first one left alone. -/
theorem clauses_remainder (f g : Translation) (m : FilterMap) :
    (m.remainder f).clauses g = m.clauses fun k n => if (f k n).isNone then g k n else none := by
  simp only [clauses, remainder, OrderedMap.entries_filter]
  induction m.entries with
  | nil => rfl
  | cons e es ih =>
      rw [List.filter_cons]
      split_ifs with h
      · simp only [List.flatMap_cons, ih, if_pos h]
      · simp only [List.flatMap_cons, ih, if_neg h, Option.getD_none, List.nil_append]

end FilterMap

/-- Appends the clauses of all filters that are translated, and keeps the others. -/
def Work.translate (f : Translation) (w : Work) : Work where
  params := w.params.appendClauses (w.filters.clauses f)
  filters := w.filters.remainder f

/-- A translation makes nothing of any of the filters. -/
def FilterMap.Exhausted (f : Translation) (m : FilterMap) : Prop :=
  ∀ e ∈ m.entries, f e.1 e.2 = none

theorem FilterMap.exhausted_iff_remainder_eq {f : Translation} {m : FilterMap} :
    m.Exhausted f ↔ m.remainder f = m := by
  constructor
  · intro h
    exact OrderedMap.ext_entries <| List.filter_eq_self.mpr fun e he =>
      Option.isNone_iff_eq_none.mpr (h e he)
  · intro h e he
    have hkept := List.filter_eq_self.mp (congrArg OrderedMap.entries h) e he
    exact Option.isNone_iff_eq_none.mp hkept

theorem Work.translate_of_exhausted {f : Translation} {w : Work} (h : w.filters.Exhausted f) :
    w.translate f = w := by
  have hclauses : w.filters.clauses f = [] :=
    List.flatMap_eq_nil_iff.mpr fun e he => by rw [h e he, Option.getD_none]
  rw [translate, hclauses, Params.appendClauses_nil, FilterMap.exhausted_iff_remainder_eq.mp h]

namespace Stage

open OrderedMap

/-- The translation that touches only the filter called `name`. -/
def only (name : String) (f : FilterNode → Option (List Clause)) : Translation :=
  fun k n => if k = name then f n else none

def categoryClauses? : FilterNode → Option (List Clause)
  | .term t =>
    some [(Params.facetFilters, "categoryIds:" ++ t.value),
      (Params.ruleContexts, "magento-category-" ++ t.value)]
  | _ => none

/-- A price range is left alone without a scope or a price key. -/
def priceClauses? (l : Lookups) (scope : Option Scope) : FilterNode → Option (List Clause)
  | .range r =>
    (scope.bind fun s => (l.priceFacet s).toOption).map fun facet =>
      (priceClauses facet r).map (Params.numericFilters, ·)
  | _ => none

def visibilityClauses? (v : Visibility) (n : FilterNode) : Option (List Clause) :=
  (visibilityCodes? n).map fun codes =>
    (visibilityClauses v codes).map (Params.numericFilters, ·)

def attributeClauses? (config : Config) (l : Lookups) (scope : Option Scope) (n : FilterNode) :
    Option (List Clause) :=
  (attributeClause? config l scope n).map fun clause => [(Params.facetFilters, clause)]

/-- What a stage makes of each filter. -/
def translation (config : Config) (l : Lookups) (scope : Option Scope) : Stage → Translation
  | .category => only "category" categoryClauses?
  | .priceRange => only "price" (priceClauses? l scope)
  | .visibility => only "visibility" (visibilityClauses? config.visibility)
  | .attribute => fun _ n => attributeClauses? config l scope n

/-- The fault of the price key that a stage needs and cannot get. -/
def fault? (l : Lookups) (scope : Option Scope) (m : FilterMap) (s : Stage) : Option Fault :=
  match s, m.get? "price", scope with
  | .priceRange, some (.range _), some scope =>
    match l.priceFacet scope with
    | .ok _ => none
    | .error fault => some fault
  | _, _, _ => none

/-- The keys of a map are distinct, so such a translation sees one filter at most. -/
theorem clauses_only (m : FilterMap) (name : String) (f : FilterNode → Option (List Clause)) :
    m.clauses (only name f) = ((m.get? name).bind f).getD [] := by
  obtain ⟨es, hes⟩ := m
  simp only [FilterMap.clauses, get?]
  induction es with
  | nil => rfl
  | cons e es ih =>
      obtain ⟨k, n⟩ := e
      simp only [List.map_cons, List.nodup_cons] at hes
      rw [List.flatMap_cons, ih hes.2, lookup_cons_eq_ite]
      by_cases hk : name = k
      · subst hk
        have hnone : es.lookup name = none := by
          rw [List.lookup_eq_none_iff]
          exact fun e he => bne_iff_ne.mpr fun (h : name = e.1) =>
            hes.1 (h ▸ List.mem_map_of_mem he)
        simp [only, hnone]
      · simp [only, hk, Ne.symm hk]

theorem get?_remainder_only_of_ne {name key : String} (h : key ≠ name)
    (f : FilterNode → Option (List Clause)) (m : FilterMap) :
    (m.remainder (only name f)).get? key = m.get? key := by
  rw [FilterMap.remainder, get?_filter]
  cases m.get? key <;> simp [only, h]

theorem translate_only_of_eq_none {w : Work} {name : String}
    {f : FilterNode → Option (List Clause)} (h : (w.filters.get? name).bind f = none) :
    w.translate (only name f) = w := by
  refine Work.translate_of_exhausted fun e he => ?_
  by_cases hk : e.1 = name
  · rw [get?_eq_some_iff.mpr (hk ▸ he : (name, e.2) ∈ w.filters.entries)] at h
    simpa [only, hk] using h
  · simp [only, hk]

theorem translate_only_of_eq_some {w : Work} {name : String}
    {f : FilterNode → Option (List Clause)} {cs : List Clause}
    (h : (w.filters.get? name).bind f = some cs) :
    w.translate (only name f) =
      { params := w.params.appendClauses cs, filters := w.filters.erase name } := by
  have hfilters : w.filters.remainder (only name f) = w.filters.erase name := by
    apply ext_entries
    refine List.filter_congr fun e he => ?_
    by_cases hk : e.1 = name
    · rw [get?_eq_some_iff.mpr (hk ▸ he : (name, e.2) ∈ w.filters.entries)] at h
      simp [only, hk, show f e.2 = some cs from h]
    · simp [only, hk]
  simp only [Work.translate, clauses_only, h, Option.getD_some, hfilters]

theorem runCategory_eq_translate (w : Work) :
    runCategory w = w.translate (only "category" categoryClauses?) := by
  unfold runCategory
  cases h : w.filters.get? "category" with
  | none => exact (translate_only_of_eq_none (by rw [h]; rfl)).symm
  | some n =>
      cases n with
      | term t =>
          have hbind : (w.filters.get? "category").bind categoryClauses? =
              some [(Params.facetFilters, "categoryIds:" ++ t.value),
                (Params.ruleContexts, "magento-category-" ++ t.value)] := by
            rw [h]
            rfl
          exact (translate_only_of_eq_some hbind).symm
      | range r => exact (translate_only_of_eq_none (by rw [h]; rfl)).symm
      | values v => exact (translate_only_of_eq_none (by rw [h]; rfl)).symm

theorem runVisibility_eq_translate (config : Config) (w : Work) :
    runVisibility config w =
      w.translate (only "visibility" (visibilityClauses? config.visibility)) := by
  unfold runVisibility
  have hbind : (w.filters.get? "visibility").bind (visibilityClauses? config.visibility) =
      ((w.filters.get? "visibility").bind visibilityCodes?).map fun codes =>
        (visibilityClauses config.visibility codes).map (Params.numericFilters, ·) := by
    rw [Option.map_bind]
    rfl
  cases h : (w.filters.get? "visibility").bind visibilityCodes? with
  | none => exact (translate_only_of_eq_none (by rw [hbind, h]; rfl)).symm
  | some codes =>
      rw [translate_only_of_eq_some (by rw [hbind, h]; rfl), Params.appendClauses_map]

theorem runPriceRange_eq (l : Lookups) (scope : Option Scope) (w : Work) :
    runPriceRange l scope w =
      match priceRange.fault? l scope w.filters with
      | some fault => .failed w fault
      | none => .done (w.translate (only "price" (priceClauses? l scope))) := by
  unfold runPriceRange fault?
  cases h : w.filters.get? "price" with
  | none => rw [translate_only_of_eq_none (by rw [h]; rfl)]
  | some n =>
      cases n with
      | term t => rw [translate_only_of_eq_none (by rw [h]; rfl)]
      | values v => rw [translate_only_of_eq_none (by rw [h]; rfl)]
      | range r =>
          cases scope with
          | none => rw [translate_only_of_eq_none (by rw [h]; rfl)]
          | some s =>
              cases hs : l.priceFacet s with
              | error fault => simp only [hs]
              | ok facet =>
                  have hbind : ((some (.range r) : Option FilterNode)).bind
                      (priceClauses? l (some s)) =
                      some ((priceClauses facet r).map (Params.numericFilters, ·)) := by
                    simp only [Option.bind_some, priceClauses?, hs, Except.toOption,
                      Option.map_some]
                  rw [translate_only_of_eq_some (by rw [h]; exact hbind),
                    Params.appendClauses_map]
                  simp only [hs]

theorem runAttribute_eq_translate (config : Config) (l : Lookups) (scope : Option Scope)
    (w : Work) :
    runAttribute config l scope w =
      w.translate fun _ n => attributeClauses? config l scope n := by
  have hclauses : w.filters.clauses (fun _ n => attributeClauses? config l scope n) =
      (w.filters.values.filterMap (attributeClause? config l scope)).map
        (Params.facetFilters, ·) := by
    simp only [FilterMap.clauses, values]
    induction w.filters.entries with
    | nil => rfl
    | cons e es ih =>
        rw [List.flatMap_cons, ih, List.map_cons, List.filterMap_cons, attributeClauses?]
        cases attributeClause? config l scope e.2 <;> rfl
  rw [runAttribute, Work.translate, hclauses, Params.appendClauses_map]
  simp only [FilterMap.remainder, attributeClauses?, Option.isNone_map]

/-- A stage fails and does nothing, or translates each filter on its own. -/
theorem run_eq (config : Config) (l : Lookups) (scope : Option Scope) (s : Stage) (w : Work) :
    s.run config l scope w =
      match s.fault? l scope w.filters with
      | some fault => .failed w fault
      | none => .done (w.translate (s.translation config l scope)) := by
  match s with
  | .category => exact congrArg Attempt.done (runCategory_eq_translate w)
  | .priceRange => exact runPriceRange_eq l scope w
  | .visibility => exact congrArg Attempt.done (runVisibility_eq_translate config w)
  | .attribute => exact congrArg Attempt.done (runAttribute_eq_translate config l scope w)

/-- The families that stages append to. -/
def families : List String := [Params.facetFilters, Params.numericFilters, Params.ruleContexts]

theorem family_mem_of_translation {config : Config} {l : Lookups} {scope : Option Scope}
    {s : Stage} {k : String} {n : FilterNode} {cs : List Clause}
    (h : s.translation config l scope k n = some cs) : ∀ c ∈ cs, c.1 ∈ families := by
  intro c hc
  match s with
  | .category =>
      simp only [translation, only] at h
      split_ifs at h
      cases n <;> cases h
      simp only [List.mem_cons, List.not_mem_nil, or_false] at hc
      rcases hc with rfl | rfl <;> simp [families]
  | .priceRange =>
      simp only [translation, only] at h
      split_ifs at h
      cases n <;> simp only [priceClauses?, reduceCtorEq, Option.map_eq_some_iff] at h
      obtain ⟨facet, -, rfl⟩ := h
      obtain ⟨clause, -, rfl⟩ := List.mem_map.mp hc
      exact List.mem_cons_of_mem _ List.mem_cons_self
  | .visibility =>
      simp only [translation, only] at h
      split_ifs at h
      obtain ⟨codes, -, rfl⟩ := Option.map_eq_some_iff.mp h
      obtain ⟨clause, -, rfl⟩ := List.mem_map.mp hc
      exact List.mem_cons_of_mem _ List.mem_cons_self
  | .attribute =>
      obtain ⟨clause, -, rfl⟩ := Option.map_eq_some_iff.mp h
      rw [List.mem_singleton.mp hc]
      exact List.mem_cons_self

theorem family_mem_of_clauses (config : Config) (l : Lookups) (scope : Option Scope) (s : Stage)
    (m : FilterMap) : ∀ c ∈ m.clauses (s.translation config l scope), c.1 ∈ families := by
  intro c hc
  obtain ⟨e, -, hce⟩ := List.mem_flatMap.mp hc
  cases hcs : s.translation config l scope e.1 e.2 with
  | none => simp [hcs] at hce
  | some cs => exact family_mem_of_translation hcs c (by simpa [hcs] using hce)

theorem not_mem_clauses_of_not_mem_families {key : String} (h : key ∉ families)
    (config : Config) (l : Lookups) (scope : Option Scope) (s : Stage) (m : FilterMap) :
    key ∉ (m.clauses (s.translation config l scope)).map Prod.fst := by
  intro hm
  obtain ⟨c, hc, rfl⟩ := List.mem_map.mp hm
  exact h (family_mem_of_clauses config l scope s m c hc)

theorem get?_translate_of_not_mem_families {key : String} (h : key ∉ families)
    (config : Config) (l : Lookups) (scope : Option Scope) (s : Stage) (w : Work) :
    (w.translate (s.translation config l scope)).params.get? key = w.params.get? key :=
  Params.get?_appendClauses_of_not_mem
    (not_mem_clauses_of_not_mem_families h config l scope s w.filters) w.params

theorem get?_run_of_not_mem_families {key : String} (h : key ∉ families) (config : Config)
    (l : Lookups) (scope : Option Scope) (s : Stage) (w : Work) :
    (s.run config l scope w).state.params.get? key = w.params.get? key := by
  rw [run_eq]
  split
  · rfl
  · exact get?_translate_of_not_mem_families h config l scope s w

/-- A run of stages finds all other parameters as they were, also where it is broken off. -/
theorem get?_runAll_of_not_mem_families {key : String} (h : key ∉ families) (config : Config)
    (l : Lookups) (scope : Option Scope) (ss : List Stage) (w : Work) :
    (runAll config l scope ss w).state.params.get? key = w.params.get? key := by
  induction ss generalizing w with
  | nil => rfl
  | cons s ss ih =>
      have hstep := get?_run_of_not_mem_families h config l scope s w
      simp only [runAll]
      split
      · rw [ih, hstep]
      · exact hstep

end Stage

end FacetedSearch
