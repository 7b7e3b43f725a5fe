import FacetedSearch.Proofs.Compile

/-!
# The facets of a query

Each configured facet stands for some of the engine's, and only the one of prices can fail to. So
the list is empty if prices are configured and have no facet in the scope, and else it is the
facets of all names one after another. It crashes exactly if there is no room for it: for the names
and the levels of categories, or for the facets that are collected up to a name that fails.
-/

namespace FacetedSearch

/-- The facets that are configured for a scope: its own if it has an entry, be it an empty one, and
else those of all scopes. -/
def configuredFacets (config : Config) (scope : Option Scope) : List String :=
  match scope.bind config.facets.byScope.get? with
  | some own => own
  | none => config.facets.common

theorem forScope_eq (config : Config) (scope : Option Scope) :
    config.facets.forScope scope = configuredFacets config scope := by
  unfold FacetSettings.forScope configuredFacets
  cases scope.bind config.facets.byScope.get? <;> rfl

/-- The facet that holds the prices of a scope, if there is a scope and it has a price key: after
`price.` comes the key without its leading dots. -/
def priceFacet? (l : Lookups) : Option Scope → Option String
  | none => none
  | some s =>
    match l.priceKey s with
    | .ok suffix => some ("price." ++ String.ofList (suffix.toList.dropWhile (· == '.')))
    | .error _ => none

theorem priceFacet?_some (l : Lookups) (s : Scope) :
    priceFacet? l (some s) = (l.priceFacet s).toOption := by
  rw [priceFacet?, Lookups.priceFacet_eq]
  cases l.priceKey s <;> rfl

/-- What a configured facet stands for where the prices have the facet `price`. -/
def expanded (config : Config) (price : Option String) (name : String) : List String :=
  if name = "price" then price.toList
  else if name = "categories" then
    (List.range config.categoryLevels).map fun level => "categories.level" ++ toString level
  else [name]

/-- The facets of all configured names, or none at all if prices are among them without a facet. -/
def listedFacets (config : Config) (l : Lookups) (scope : Option Scope) : List String :=
  if "price" ∈ configuredFacets config scope ∧ priceFacet? l scope = none then []
  else (configuredFacets config scope).flatMap (expanded config (priceFacet? l scope))

/-- The names up to the first one that has no facet. -/
def resolvable (price : Option String) (names : List String) : List String :=
  names.takeWhile fun name => price.isSome || name != "price"

/-- Whether some list of facets is longer than a list of texts can be: the one that room is set
aside for, or the one that is collected. -/
def FacetsTooLong (config : Config) (l : Lookups) (scope : Option Scope) : Prop :=
  let names := configuredFacets config scope
  let price := priceFacet? l scope
  Text.wordLimit / 2 ≤ 24 * (names.length + config.categoryLevels) ∨
    Text.wordLimit / 2 ≤ 24 * ((resolvable price names).flatMap (expanded config price)).length

instance (config : Config) (l : Lookups) (scope : Option Scope) :
    Decidable (FacetsTooLong config l scope) :=
  inferInstanceAs (Decidable (_ ∨ _))

theorem engineFacets_eq_ok {config : Config} {l : Lookups} {scope : Option Scope} {name : String}
    (h : name = "price" → priceFacet? l scope ≠ none) :
    engineFacets config l scope name = .ok (expanded config (priceFacet? l scope) name) := by
  unfold engineFacets expanded
  by_cases hprice : name = "price"
  · have hsome := h hprice
    rw [if_pos hprice, if_pos hprice]
    cases scope with
    | none => exact absurd rfl hsome
    | some s =>
        rw [priceFacet?_some] at hsome ⊢
        cases hfacet : l.priceFacet s with
        | error fault => simp [hfacet, Except.toOption] at hsome
        | ok facet => simp [hfacet, Except.toOption, Except.map]
  · rw [if_neg hprice, if_neg hprice]
    split_ifs <;> rfl

theorem exists_engineFacets_price_eq_error {l : Lookups} {scope : Option Scope}
    (h : priceFacet? l scope = none) (config : Config) :
    ∃ fault, engineFacets config l scope "price" = .error fault := by
  unfold engineFacets
  rw [if_pos rfl]
  cases scope with
  | none => exact ⟨_, rfl⟩
  | some s =>
      rw [priceFacet?_some] at h
      cases hfacet : l.priceFacet s with
      | error fault => exact ⟨fault, by simp [hfacet, Except.map]⟩
      | ok facet => simp [hfacet, Except.toOption] at h

theorem holdsTexts_eq_true_iff {count : ℕ} :
    holdsTexts count = true ↔ 24 * count < Text.wordLimit / 2 :=
  canHold_eq_true_iff

theorem holdsTexts_of_le {count count' : ℕ} (h : holdsTexts count' = true)
    (hle : count ≤ count') : holdsTexts count = true :=
  canHold_of_le h hle

/-- The facets of all names are collected, none if one of them fails, unless those before it are too
many. -/
theorem recover_flattenFacets (config : Config) (l : Lookups) (scope : Option Scope)
    (names facets : List String) (hfacets : holdsTexts facets.length = true) :
    (flattenFacets config l scope facets names).recover [] =
      let price := priceFacet? l scope
      let collected := (resolvable price names).flatMap (expanded config price)
      if holdsTexts (facets.length + collected.length) = true then
        some (if "price" ∈ names ∧ price = none then []
          else facets ++ names.flatMap (expanded config price))
      else none := by
  induction names generalizing facets with
  | nil => simp [flattenFacets, resolvable, Outcome.recover, hfacets]
  | cons name names ih =>
      dsimp only at ih ⊢
      rw [flattenFacets]
      by_cases hfails : name = "price" ∧ priceFacet? l scope = none
      · obtain ⟨rfl, hnone⟩ := hfails
        obtain ⟨fault, hfault⟩ := exists_engineFacets_price_eq_error hnone config
        have hstop : resolvable none ("price" :: names) = [] := rfl
        rw [hfault, hnone, hstop]
        simp [Outcome.recover, hfacets]
      · have hname : name = "price" → priceFacet? l scope ≠ none := not_and.mp hfails
        have hcons : resolvable (priceFacet? l scope) (name :: names) =
            name :: resolvable (priceFacet? l scope) names := by
          refine List.takeWhile_cons_of_pos ?_
          cases hprice : priceFacet? l scope with
          | some facet => rfl
          | none => simpa using fun h => hname h hprice
        have hmem : ("price" ∈ name :: names ∧ priceFacet? l scope = none) ↔
            "price" ∈ names ∧ priceFacet? l scope = none := by
          refine and_congr_left fun hnone => List.mem_cons.trans (or_iff_right ?_)
          exact fun h => hname h.symm hnone
        rw [engineFacets_eq_ok hname, hcons]
        simp only [List.flatMap_cons, List.length_append, hmem]
        by_cases hmore :
            holdsTexts (facets.length + (expanded config (priceFacet? l scope) name).length) = true
        · rw [if_pos hmore, ih _ (by rwa [List.length_append]), List.length_append, Nat.add_assoc,
            List.append_assoc]
        · rw [if_neg hmore, if_neg fun hall => hmore (holdsTexts_of_le hall (by omega))]
          rfl

theorem facetList?_eq (config : Config) (l : Lookups) (scope : Option Scope) :
    facetList? config l scope =
      if FacetsTooLong config l scope then none else some (listedFacets config l scope) := by
  have hlong : FacetsTooLong config l scope ↔
      ¬ holdsTexts ((configuredFacets config scope).length + config.categoryLevels) = true ∨
      ¬ holdsTexts ((resolvable (priceFacet? l scope) (configuredFacets config scope)).flatMap
        (expanded config (priceFacet? l scope))).length = true := by
    rw [holdsTexts_eq_true_iff, holdsTexts_eq_true_iff, Nat.not_lt, Nat.not_lt]
    rfl
  unfold facetList? listedFacets
  dsimp only
  rw [forScope_eq, recover_flattenFacets _ _ _ _ _ (by decide)]
  simp only [List.length_nil, Nat.zero_add, List.nil_append, hlong]
  split_ifs <;> simp_all

theorem facetList?_eq_none_iff {config : Config} {l : Lookups} {scope : Option Scope} :
    facetList? config l scope = none ↔ FacetsTooLong config l scope := by
  rw [facetList?_eq]
  split_ifs with h <;> simp [h]

theorem eq_of_facetList? {config : Config} {l : Lookups} {scope : Option Scope}
    {facets : List String} (h : facetList? config l scope = some facets) :
    facets = listedFacets config l scope := by
  rw [facetList?_eq] at h
  split_ifs at h
  exact (Option.some.inj h).symm

/-- Without prices the list of facets does not depend on their facet. -/
theorem flatMap_expanded_of_price_not_mem {names : List String} (h : "price" ∉ names)
    (config : Config) (price other : Option String) :
    names.flatMap (expanded config price) = names.flatMap (expanded config other) := by
  rw [List.flatMap_def, List.flatMap_def]
  refine congrArg List.flatten (List.map_congr_left fun name hname => ?_)
  have hne : name ≠ "price" := fun heq => h (heq ▸ hname)
  simp only [expanded, if_neg hne]

end FacetedSearch
