import FacetedSearch.Proofs.Stage.Runs
import Mathlib.Data.List.Induction

/-!
# Stages that run again

A stage that has run leaves nothing that it could take, and no other stage puts anything back or
changes what is left. So only the first of several runs of a stage has an effect: a filter is
translated once or not at all. A stage that fails would fail again for the same reason.
-/

namespace FacetedSearch

namespace FilterMap

variable {f : Translation} {m m' : FilterMap}

theorem exhausted_remainder (f : Translation) (m : FilterMap) : (m.remainder f).Exhausted f :=
  fun _ he => Option.isNone_iff_eq_none.mp (List.mem_filter.mp he).2

theorem Exhausted.of_sublist (h : m.Exhausted f) (hsub : m'.entries.Sublist m.entries) :
    m'.Exhausted f :=
  fun e he => h e (hsub.subset he)

end FilterMap

namespace Stage

open OrderedMap

variable {config : Config} {l : Lookups} {scope : Option Scope}

/-! ## One stage -/

/-- A stage leaves nothing that it could take. -/
theorem exhausted_run (s : Stage) (w : Work) :
    (s.run config l scope w).state.filters.Exhausted (s.translation config l scope) := by
  rw [state_run]
  exact FilterMap.exhausted_remainder _ _

theorem state_run_of_exhausted {s : Stage} {w : Work}
    (h : w.filters.Exhausted (s.translation config l scope)) :
    (s.run config l scope w).state = w := by
  rw [state_run, Work.translate_of_exhausted h]

/-- Taking filters out is no reason for a failure. -/
theorem fault?_of_sublist {s : Stage} {m m' : FilterMap} (h : s.fault? l scope m = none)
    (hsub : m'.entries.Sublist m.entries) : s.fault? l scope m' = none := by
  by_cases hrange : ∃ r, m'.get? "price" = some (.range r)
  · obtain ⟨r, hr⟩ := hrange
    have hprice : m.get? "price" = some (.range r) :=
      get?_eq_some_iff.mpr (hsub.subset (get?_eq_some_iff.mp hr))
    unfold fault? at h ⊢
    rw [hprice] at h
    rw [hr]
    exact h
  · exact fault?_eq_none (not_exists.mp hrange) s

/-- What comes after a stage that has not failed is nothing to it: it takes nothing and does not
fail. -/
theorem run_of_burnsDown {s : Stage} {w w' : Work}
    (hdone : (s.run config l scope w).fault? = none)
    (h : BurnsDown (s.run config l scope w).state w') : s.run config l scope w' = .done w' := by
  have hfault : s.fault? l scope w'.filters = none := by
    rw [fault?_run] at hdone
    exact fault?_of_sublist hdone (h.filters.trans (burnsDown_run config l scope s w).filters)
  have hnothing : w'.filters.Exhausted (s.translation config l scope) :=
    (exhausted_run s w).of_sublist h.filters
  rw [run_eq, hfault, Work.translate_of_exhausted hnothing]

/-! ## Runs of stages -/

/-- Every stage of a run is exhausted after it. -/
theorem exhausted_after {ss : List Stage} {s : Stage} (hs : s ∈ ss) (w : Work) :
    (after config l scope ss w).filters.Exhausted (s.translation config l scope) := by
  induction ss generalizing w with
  | nil => cases hs
  | cons t ts ih =>
      rcases List.mem_cons.mp hs with rfl | hs
      · exact (exhausted_run s w).of_sublist (burnsDown_after config l scope ts _).filters
      · exact ih hs _

theorem after_of_exhausted {ss : List Stage} {w : Work}
    (h : ∀ s ∈ ss, w.filters.Exhausted (s.translation config l scope)) :
    after config l scope ss w = w := by
  induction ss with
  | nil => rfl
  | cons s ss ih =>
      rw [after, state_run_of_exhausted (h s List.mem_cons_self)]
      exact ih fun t ht => h t (List.mem_cons_of_mem s ht)

theorem after_concat (ss : List Stage) (s : Stage) (w : Work) :
    after config l scope (ss ++ [s]) w =
      (s.run config l scope (after config l scope ss w)).state := after_append ss [s] w

theorem burnsDown_runAll (config : Config) (l : Lookups) (scope : Option Scope)
    (ss : List Stage) (w : Work) : BurnsDown w (runAll config l scope ss w).state := by
  induction ss generalizing w with
  | nil => exact .refl w
  | cons s ss ih =>
      have hstep := burnsDown_run config l scope s w
      rw [runAll]
      split
      · exact hstep.trans (ih _)
      · exact hstep

/-- A stage that runs a second time has nothing to take, so of each stage only the first run
counts. -/
theorem after_first_runs (ss : List Stage) (w : Work) :
    after config l scope ss.eraseDups w = after config l scope ss w := by
  induction ss using List.reverseRecOn with
  | nil => rfl
  | append_singleton ss s ih =>
      rw [List.eraseDups_append, after_concat]
      by_cases hs : s ∈ ss
      · have hnone : [s].removeAll ss = [] := by simpa [List.removeAll] using hs
        rw [hnone, List.eraseDups_nil, List.append_nil, ih,
          state_run_of_exhausted (exhausted_after hs w)]
      · have hone : [s].removeAll ss = [s] := by simpa [List.removeAll] using hs
        rw [hone, List.eraseDups_cons, List.filter_nil, List.eraseDups_nil, after_concat, ih]

/-- A run that stops at a failure stops there again. -/
theorem runAll_state_runAll (ss : List Stage) (w : Work) :
    runAll config l scope ss (runAll config l scope ss w).state = runAll config l scope ss w := by
  induction ss generalizing w with
  | nil => rfl
  | cons s ss ih =>
      cases hfault : (s.run config l scope w).fault? with
      | some fault =>
          have hstay := (run_of_fault hfault).1
          have hstop : runAll config l scope (s :: ss) w = .failed w fault := by
            rw [runAll, hfault, hstay]
          rw [hstop]
          exact hstop
      | none =>
          have hgo : runAll config l scope (s :: ss) w =
              runAll config l scope ss (s.run config l scope w).state := by
            rw [runAll, hfault]
          rw [hgo, runAll, run_of_burnsDown hfault (burnsDown_runAll config l scope ss _)]
          exact ih _

/-- In every run of stages, in any order and on after failures, only the first run of each stage
counts. The whole pipeline changes nothing where it has been already, whether it goes on after a
failure or stops at one; in the second case it stops for the same reason. -/
theorem after_eraseDups (config : Config) (l : Lookups) (scope : Option Scope) (ss : List Stage)
    (w : Work) :
    after config l scope ss w = after config l scope ss.eraseDups w ∧
      after config l scope pipeline (after config l scope pipeline w) =
        after config l scope pipeline w ∧
      runAll config l scope pipeline (runAll config l scope pipeline w).state =
        runAll config l scope pipeline w :=
  ⟨(after_first_runs ss w).symm, after_of_exhausted fun _ hs => exhausted_after hs w,
    runAll_state_runAll pipeline w⟩

/-- The run that is left keeps the order in which the stages first came. -/
example : ([.category, .attribute, .category, .priceRange, .attribute] : List Stage).eraseDups =
    [.category, .attribute, .priceRange] := by decide

end Stage

end FacetedSearch
