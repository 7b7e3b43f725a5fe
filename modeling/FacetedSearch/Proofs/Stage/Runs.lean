import FacetedSearch.Proofs.Params.Runs
import FacetedSearch.Proofs.Stage

/-!
# Runs of stages

Stages may run in any order, repeatedly, and on after a failure. A step is done in full or not at
all, and it fails for want of a price key only. Over a whole run filters are taken out and never
put in, clauses are added to their families and never taken out, and no other parameter changes or
moves.
-/

namespace FacetedSearch

namespace Params

/-- The clauses of one family. -/
def ofFamily (family : String) (cs : List Clause) : List String :=
  (cs.filter fun c => decide (c.1 = family)).map Prod.snd

theorem ofFamily_map_self (family : String) (clauses : List String) :
    ofFamily family (clauses.map (family, ·)) = clauses := by
  induction clauses with
  | nil => rfl
  | cons clause clauses ih =>
      rw [List.map_cons, ofFamily, List.filter_cons_of_pos (by simp), List.map_cons]
      exact congrArg (clause :: ·) ih

theorem ofFamily_map_of_ne {family other : String} (h : other ≠ family) (clauses : List String) :
    ofFamily family (clauses.map (other, ·)) = [] := by
  induction clauses with
  | nil => rfl
  | cons clause clauses ih =>
      rw [List.map_cons, ofFamily, List.filter_cons_of_neg (by simpa using h)]
      exact ih

/-- What clauses make of a parameter depends on what stands there and on its own clauses. -/
theorem get?_appendClauses (p : Params) (cs : List Clause) (key : String) :
    (p.appendClauses cs).get? key = logged (p.get? key) (ofFamily key cs) := by
  induction cs using List.reverseRecOn with
  | nil => rfl
  | append_singleton cs c ih =>
      have hlast : p.appendClauses (cs ++ [c]) = (p.appendClauses cs).append c.1 c.2 :=
        List.foldl_concat ..
      rw [hlast, ofFamily, List.filter_append, List.map_append]
      by_cases hkey : c.1 = key
      · subst hkey
        rw [List.filter_cons_of_pos (by simp), List.filter_nil, List.map_singleton, logged_concat,
          append_eq_insert, OrderedMap.get?_insert, if_pos rfl, ih]
        rfl
      · rw [List.filter_cons_of_neg (by simpa using hkey), List.filter_nil, List.map_nil,
          List.append_nil, get?_append_of_ne _ (Ne.symm hkey), ih]
        rfl

/-- A family receives its own clauses in their order. -/
theorem clauses_appendClauses (p : Params) (cs : List Clause) (family : String) :
    (p.appendClauses cs).clauses family = p.clauses family ++ ofFamily family cs := by
  rw [clauses_eq_texts, get?_appendClauses, texts_logged, clauses_eq_texts]

theorem getElem?_appendClauses_of_not_mem {key : String} {cs : List Clause}
    (h : key ∉ cs.map Prod.fst) (p : Params) (i : ℕ) (v : Json.Value) :
    (p.appendClauses cs).entries[i]? = some (key, v) ↔ p.entries[i]? = some (key, v) := by
  induction cs generalizing p with
  | nil => rfl
  | cons c cs ih =>
      simp only [List.map_cons, List.mem_cons, not_or] at h
      rw [appendClauses_cons, ih h.2, getElem?_append_of_ne p h.1]

end Params

/-- A translation that takes no filter adds no clause. -/
theorem Work.params_translate_of_filters {f : Translation} {w : Work}
    (h : (w.translate f).filters = w.filters) : (w.translate f).params = w.params := by
  rw [Work.translate_of_exhausted (FilterMap.exhausted_iff_remainder_eq.mpr h)]

namespace Stage

variable {config : Config} {l : Lookups} {scope : Option Scope}

theorem fault?_eq_some {m : FilterMap} {s : Stage} {fault : Fault}
    (h : s.fault? l scope m = some fault) :
    s = .priceRange ∧ ∃ number, scope = some number ∧ l.priceKey number = .error fault := by
  unfold fault? at h
  split at h
  · rename_i number _
    rw [Lookups.priceFacet_eq] at h
    cases hkey : l.priceKey number with
    | ok suffix =>
        rw [hkey] at h
        cases h
    | error other =>
        rw [hkey] at h
        cases h
        exact ⟨rfl, number, rfl, hkey⟩
  · cases h

theorem fault?_eq_none {m : FilterMap} (h : ∀ r, m.get? "price" ≠ some (.range r)) (s : Stage) :
    s.fault? l scope m = none := by
  unfold fault?
  split
  · exact absurd ‹_› (h _)
  · rfl

/-- Without a price key the stage for prices makes nothing of any filter. -/
theorem exhausted_of_fault {m : FilterMap} {s : Stage} {fault : Fault}
    (h : s.fault? l scope m = some fault) (m' : FilterMap) :
    m'.Exhausted (s.translation config l scope) := by
  obtain ⟨rfl, number, rfl, hkey⟩ := fault?_eq_some h
  have hfacet : (l.priceFacet number).toOption = none := by
    rw [Lookups.priceFacet_eq, hkey]
    rfl
  intro e _
  change (if e.1 = "price" then priceClauses? l (some number) e.2 else none) = none
  cases e.2 <;> simp [priceClauses?, hfacet]

/-- What a stage leaves is what it translates, also if it has failed. -/
theorem state_run (s : Stage) (w : Work) :
    (s.run config l scope w).state = w.translate (s.translation config l scope) := by
  rw [run_eq]
  cases hfault : s.fault? l scope w.filters with
  | none => rfl
  | some fault => exact (Work.translate_of_exhausted (exhausted_of_fault hfault w.filters)).symm

theorem fault?_run (s : Stage) (w : Work) :
    (s.run config l scope w).fault? = s.fault? l scope w.filters := by
  rw [run_eq]
  cases s.fault? l scope w.filters <;> rfl

/-- A stage that fails has done nothing, and it is the one that needs a price key. -/
theorem run_of_fault {s : Stage} {w : Work} {fault : Fault}
    (h : (s.run config l scope w).fault? = some fault) :
    (s.run config l scope w).state = w ∧ s = .priceRange ∧
      ∃ number, scope = some number ∧ l.priceKey number = .error fault := by
  rw [fault?_run] at h
  rw [state_run, Work.translate_of_exhausted (exhausted_of_fault h w.filters)]
  exact ⟨rfl, fault?_eq_some h⟩

theorem params_run_of_filters {s : Stage} {w : Work}
    (h : (s.run config l scope w).state.filters = w.filters) :
    (s.run config l scope w).state.params = w.params := by
  rw [state_run] at h ⊢
  exact Work.params_translate_of_filters h

/-- What later work has kept of earlier work. -/
structure BurnsDown (before after : Work) : Prop where
  /-- Filters are taken out; those that are left keep their order. -/
  filters : after.filters.entries.Sublist before.filters.entries
  /-- Other parameters keep value and place, and none is added. -/
  others : ∀ (i : ℕ) (key : String) (v : Json.Value), key ∉ families →
    (after.params.entries[i]? = some (key, v) ↔ before.params.entries[i]? = some (key, v))
  clauses : ∀ family ∈ families, before.params.clauses family <+: after.params.clauses family

theorem BurnsDown.refl (w : Work) : BurnsDown w w where
  filters := List.Sublist.refl _
  others _ _ _ _ := Iff.rfl
  clauses _ _ := List.prefix_refl _

theorem BurnsDown.trans {u v w : Work} (huv : BurnsDown u v) (hvw : BurnsDown v w) :
    BurnsDown u w where
  filters := hvw.filters.trans huv.filters
  others i key value hkey := (hvw.others i key value hkey).trans (huv.others i key value hkey)
  clauses family hfamily := (huv.clauses family hfamily).trans (hvw.clauses family hfamily)

theorem burnsDown_translate (config : Config) (l : Lookups) (scope : Option Scope) (s : Stage)
    (w : Work) : BurnsDown w (w.translate (s.translation config l scope)) where
  filters := List.filter_sublist
  others i _ v hkey := Params.getElem?_appendClauses_of_not_mem
    (not_mem_clauses_of_not_mem_families hkey config l scope s w.filters) w.params i v
  clauses family _ := by
    rw [Work.translate, Params.clauses_appendClauses]
    exact List.prefix_append _ _

theorem burnsDown_run (config : Config) (l : Lookups) (scope : Option Scope) (s : Stage)
    (w : Work) : BurnsDown w (s.run config l scope w).state := by
  rw [state_run]
  exact burnsDown_translate config l scope s w

/-- The work after a run of stages that goes on after a failure. -/
def after (config : Config) (l : Lookups) (scope : Option Scope) : List Stage → Work → Work
  | [], w => w
  | s :: ss, w => after config l scope ss (s.run config l scope w).state

theorem after_append (ss ts : List Stage) (w : Work) :
    after config l scope (ss ++ ts) w = after config l scope ts (after config l scope ss w) := by
  induction ss generalizing w with
  | nil => rfl
  | cons s ss ih => exact ih _

theorem burnsDown_after (config : Config) (l : Lookups) (scope : Option Scope) (ss : List Stage)
    (w : Work) : BurnsDown w (after config l scope ss w) := by
  induction ss generalizing w with
  | nil => exact .refl w
  | cons s ss ih => exact (burnsDown_run config l scope s w).trans (ih _)

/-- Over every run of stages filters only go and clauses only come. Whichever stage is next, it
fails for want of a price key and then changes nothing, and it adds no clause unless it takes a
filter. -/
theorem after_burns_down (config : Config) (l : Lookups) (scope : Option Scope) (ss : List Stage)
    (w : Work) :
    BurnsDown w (after config l scope ss w) ∧
    ∀ s : Stage,
      (∀ fault, (s.run config l scope (after config l scope ss w)).fault? = some fault →
        (s.run config l scope (after config l scope ss w)).state = after config l scope ss w ∧
        s = .priceRange ∧
        ∃ number, scope = some number ∧ l.priceKey number = .error fault) ∧
      ((s.run config l scope (after config l scope ss w)).state.filters =
          (after config l scope ss w).filters →
        (s.run config l scope (after config l scope ss w)).state.params =
          (after config l scope ss w).params) :=
  ⟨burnsDown_after config l scope ss w, fun _ => ⟨fun _ => run_of_fault, params_run_of_filters⟩⟩

end Stage

end FacetedSearch
