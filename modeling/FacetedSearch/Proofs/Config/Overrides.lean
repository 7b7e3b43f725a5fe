import FacetedSearch.Proofs.Config.RoundTrip
import FacetedSearch.Proofs.Text.Parts

/-!
# Settings on top of a configuration

A setting replaces its own field by what it says and does nothing where it says nothing usable.
What it says is put here without the functions that read it: a number, a text or a list of names,
with blanks around them. Names that are joined by commas are found again, however the list is
padded.
-/

namespace FacetedSearch

open Text

/-- A field has the value that a setting says, and what it had where the setting says none. -/
def Replaced {α : Type} (said : α → Prop) (old new : α) : Prop :=
  (∀ a, said a → new = a) ∧ ((∀ a, ¬ said a) → new = old)

theorem replaced_getD {α : Type} {said : α → Prop} {o : Option α} (h : ∀ a, said a ↔ o = some a)
    (old : α) : Replaced said old (o.getD old) := by
  constructor
  · intro a ha
    rw [(h a).mp ha, Option.getD_some]
  · intro hnone
    have hempty : o = none :=
      Option.eq_none_iff_forall_ne_some.mpr fun a ha => hnone a ((h a).mpr ha)
    rw [hempty, Option.getD_none]

/-! ## What settings say -/

/-- A number that fits a word, with blanks around it or none. -/
def SaysNumber (setting : Option String) (n : ℕ) : Prop :=
  ∃ s t, setting = some s ∧ IsTrimmed s t ∧ IsNumeral wordLimit t n

/-- A text that is not blank, without its outer blanks. -/
def SaysText (setting : Option String) (t : String) : Prop :=
  ∃ s, setting = some s ∧ ¬ IsBlankText s ∧ IsTrimmed s t

/-- The parts between commas that are not blank, each without its outer blanks. There is at least
one. -/
def SaysNames (setting : Option String) (names : List String) : Prop :=
  ∃ s parts, setting = some s ∧ IsSplit s parts ∧
    List.Forall₂ IsTrimmed (parts.filter fun part => ¬ IsBlankText part) names ∧ names ≠ []

theorem saysNumber_iff {setting : Option String} {n : ℕ} :
    SaysNumber setting n ↔ (setting.bind fun s => natural? wordLimit (trim s)) = some n := by
  simp only [SaysNumber, isTrimmed_iff, ← natural?_eq_some_iff, Option.bind_eq_some_iff]
  constructor
  · rintro ⟨s, t, hs, rfl, hn⟩
    exact ⟨s, hs, hn⟩
  · rintro ⟨s, hs, hn⟩
    exact ⟨s, _, hs, rfl, hn⟩

theorem SaysNumber.lt_wordLimit {setting : Option String} {n : ℕ} (h : SaysNumber setting n) :
    n < wordLimit := by
  obtain ⟨s, t, -, -, ds, -, -, -, -, hlimit⟩ := h
  exact hlimit

theorem saysText_iff {setting : Option String} {t : String} :
    SaysText setting t ↔ ((setting.map trim).filter fun s => !s.isEmpty) = some t := by
  simp only [SaysText, isTrimmed_iff, isBlankText_iff, Option.filter_eq_some_iff,
    Option.map_eq_some_iff, Bool.not_eq_true', String.isEmpty_eq_false_iff]
  constructor
  · rintro ⟨s, hs, hne, rfl⟩
    exact ⟨⟨s, hs, rfl⟩, hne⟩
  · rintro ⟨⟨s, hs, rfl⟩, hne⟩
    exact ⟨s, hs, hne, rfl⟩

/-- Blank parts are those that trimming leaves nothing of. -/
theorem forall₂_isTrimmed_iff {parts names : List String} :
    List.Forall₂ IsTrimmed (parts.filter fun part => ¬ IsBlankText part) names ↔
      ((parts.map trim).filter fun name => !name.isEmpty) = names := by
  have htrim : IsTrimmed = fun s t => trim s = t := by
    funext s t
    exact propext isTrimmed_iff
  have hfilter : (parts.filter fun part => ¬ IsBlankText part) =
      parts.filter ((fun name => !name.isEmpty) ∘ trim) := by
    refine List.filter_congr fun part _ => ?_
    simp only [isBlankText_iff, Function.comp_apply, decide_not]
    cases h : (trim part).isEmpty <;> simp_all [String.isEmpty_iff]
  rw [htrim, hfilter, List.filter_map]
  constructor
  · intro h
    rw [← List.forall₂_eq_eq_eq]
    exact List.forall₂_map_left_iff.mpr h
  · rintro rfl
    exact List.forall₂_map_right_iff.mpr (List.forall₂_same.mpr fun _ _ => rfl)

theorem saysNames_iff {setting : Option String} {names : List String} :
    SaysNames setting names ↔
      ((setting.map Overrides.names).filter fun ns => !ns.isEmpty) = some names := by
  simp only [SaysNames, isSplit_iff, forall₂_isTrimmed_iff, Option.filter_eq_some_iff,
    Option.map_eq_some_iff, Bool.not_eq_true', List.isEmpty_eq_false_iff]
  constructor
  · rintro ⟨s, _, hs, rfl, hnames, hne⟩
    exact ⟨⟨s, hs, hnames⟩, hne⟩
  · rintro ⟨⟨s, hs, hnames⟩, hne⟩
    exact ⟨s, _, hs, rfl, hnames, hne⟩

/-! ## Padded lists of names -/

/-- The parts of a list that shows the names: each with blanks around it, and blank or empty parts
anywhere. -/
inductive Padded : List String → List String → Prop
  | nil : Padded [] []
  | blank {names parts : List String} {part : String} (hpart : IsBlankText part)
      (hparts : Padded names parts) : Padded names (part :: parts)
  | name {names parts : List String} (before name after : String)
      (hbefore : IsBlankText before) (hafter : IsBlankText after) (hparts : Padded names parts) :
      Padded (name :: names) ((before ++ name ++ after) :: parts)

/-- A name that a list can show. -/
structure IsListed (name : String) : Prop where
  comma : ',' ∉ name.toList
  ne_empty : name ≠ ""
  noOuterBlank : NoOuterBlank name

theorem Text.IsBlankText.comma {s : String} (h : IsBlankText s) : ',' ∉ s.toList := by
  intro hmem
  have hblank := h ',' hmem
  revert hblank
  decide

namespace Padded

variable {names parts : List String}

theorem comma (h : Padded names parts) (hnames : ∀ name ∈ names, IsListed name) :
    ∀ part ∈ parts, ',' ∉ part.toList := by
  induction h with
  | nil => simp
  | blank hpart _ ih => exact List.forall_mem_cons.mpr ⟨hpart.comma, ih hnames⟩
  | name before name after hbefore hafter _ ih =>
      obtain ⟨hname, hnames⟩ := List.forall_mem_cons.mp hnames
      refine List.forall_mem_cons.mpr ⟨?_, ih hnames⟩
      simp [hbefore.comma, hafter.comma, hname.comma]

theorem ne_nil (h : Padded names parts) (hne : names ≠ []) : parts ≠ [] := by
  cases h with
  | nil => exact hne
  | blank => exact List.cons_ne_nil _ _
  | name => exact List.cons_ne_nil _ _

theorem filter_map_trim (h : Padded names parts) (hnames : ∀ name ∈ names, IsListed name) :
    ((parts.map trim).filter fun name => !name.isEmpty) = names := by
  induction h with
  | nil => rfl
  | blank hpart _ ih =>
      rw [List.map_cons, trim_of_isBlankText hpart, List.filter_cons_of_neg (by decide)]
      exact ih hnames
  | name before name after hbefore hafter _ ih =>
      obtain ⟨hname, hnames⟩ := List.forall_mem_cons.mp hnames
      have htrim := isTrimmed_iff.mp ⟨hname.noOuterBlank, _, _, hbefore, hafter, rfl⟩
      rw [List.map_cons, htrim, List.filter_cons_of_pos (by simpa using hname.ne_empty), ih hnames]

/-- A padded list says its names. -/
theorem saysNames (h : Padded names parts) (hne : names ≠ [])
    (hnames : ∀ name ∈ names, IsListed name) :
    SaysNames (some (",".intercalate parts)) names :=
  ⟨_, parts, rfl, ⟨h.ne_nil hne, h.comma hnames, rfl⟩,
    forall₂_isTrimmed_iff.mpr (h.filter_map_trim hnames), hne⟩

end Padded

/-! ## Configurations -/

namespace Config

/-- The configuration of a file is taken as a whole, or the defaults are. -/
theorem exists_base (file : StoredFile) (o : Overrides) :
    ∃ base : Config, (load file = .ok base ∨ (∀ c, load file ≠ .ok c) ∧ base = {}) ∧
      base.WellFormed ∧ loadOrDefault file o = o.apply base := by
  cases hload : load file with
  | ok base =>
      refine ⟨base, .inl rfl, wellFormed_of_load hload, ?_⟩
      rw [loadOrDefault, hload]
  | error fault =>
      refine ⟨{}, .inr ⟨by simp, rfl⟩, ⟨by decide, by decide, by decide⟩, ?_⟩
      rw [loadOrDefault, hload]

theorem wellFormed_apply {c : Config} (h : c.WellFormed) (o : Overrides) :
    (o.apply c).WellFormed := by
  refine ⟨?_, h.categoryLevels, h.priceCacheSeconds⟩
  have hreplaced : Replaced (SaysNumber o.maxValuesPerFacet) c.maxValuesPerFacet
      (o.apply c).maxValuesPerFacet := replaced_getD (fun _ => saysNumber_iff) _
  by_cases hsaid : ∃ n, SaysNumber o.maxValuesPerFacet n
  · obtain ⟨n, hn⟩ := hsaid
    rw [hreplaced.1 n hn]
    exact hn.lt_wordLimit
  · rw [hreplaced.2 (not_exists.mp hsaid)]
    exact h.maxValuesPerFacet

/-- There is always a configuration, and one that can be stored. It is that of the file, taken as
a whole, or else all the defaults, but for three fields: each has what its own variable says, and
what it had if the variable says nothing. Names that are joined by commas are set as they are, with
blanks and blank parts put in anywhere around the commas. -/
theorem loadOrDefault_replaces_set_fields (file : StoredFile) (env : String → Option String) :
    ∃ base : Config, (load file = .ok base ∨ (∀ c, load file ≠ .ok c) ∧ base = {}) ∧
      let c := loadOrDefault file (.ofEnvironment env)
      c.WellFormed ∧
      Replaced (SaysNumber (env "CATALOG_BRIDGE_MAX_VALUES_PER_FACET")) base.maxValuesPerFacet
        c.maxValuesPerFacet ∧
      Replaced (SaysText (env "CATALOG_BRIDGE_RULE_CONTEXT")) base.ruleContext c.ruleContext ∧
      Replaced (SaysNames (env "CATALOG_BRIDGE_FACETS")) base.facets.common c.facets.common ∧
      c.facets.byScope = base.facets.byScope ∧ c.categoryLevels = base.categoryLevels ∧
      c.visibility = base.visibility ∧ c.priceCacheSeconds = base.priceCacheSeconds ∧
      ∀ names parts, names ≠ [] → (∀ name ∈ names, IsListed name) → Padded names parts →
        env "CATALOG_BRIDGE_FACETS" = some (",".intercalate parts) → c.facets.common = names := by
  obtain ⟨base, hbase, hwell, heq⟩ := exists_base file (.ofEnvironment env)
  have hnames : Replaced (SaysNames (env "CATALOG_BRIDGE_FACETS")) base.facets.common
      (loadOrDefault file (.ofEnvironment env)).facets.common := by
    rw [heq]
    exact replaced_getD (fun _ => saysNames_iff) _
  refine ⟨base, hbase, ?_⟩
  dsimp only
  refine ⟨heq ▸ wellFormed_apply hwell _, ?_, ?_, hnames, ?_, ?_, ?_, ?_, ?_⟩
  · rw [heq]
    exact replaced_getD (fun _ => saysNumber_iff) _
  · rw [heq]
    exact replaced_getD (fun _ => saysText_iff) _
  · rw [heq]
    rfl
  · rw [heq]
    rfl
  · rw [heq]
    rfl
  · rw [heq]
    rfl
  · intro names parts hne hlisted hpadded henv
    exact hnames.1 names (henv ▸ hpadded.saysNames hne hlisted)

/-- A number with blanks around it, a context that is blank, and names with blanks, a blank part
and an empty one, on a file with a context and a scope of its own. -/
theorem loadOrDefault_replaces_set_fields_of_padded_names :
    let file : StoredFile := .text ("\x7b\"ruleContextMarker\":\"sale\"," ++
      "\"facets\":\x7b\"scopes\":\x7b\"2\":[\"color\"]\x7d\x7d\x7d")
    let env : String → Option String := fun name =>
      [("CATALOG_BRIDGE_MAX_VALUES_PER_FACET", " +250\n"), ("CATALOG_BRIDGE_RULE_CONTEXT", " \t"),
        ("CATALOG_BRIDGE_FACETS", "size, ,\tprice,,größe\u3000")].lookup name
    let c := loadOrDefault file (.ofEnvironment env)
    c.maxValuesPerFacet = 250 ∧ c.ruleContext = "sale" ∧
      c.facets.common = ["size", "price", "größe"] ∧ c.facets.byScope.get? 2 = some ["color"] := by
  intro file env c
  obtain ⟨base, hbase, -, hmax, hcontext, -, hscopes, -, -, -, hnames⟩ :=
    loadOrDefault_replaces_set_fields file env
  have hload : load file = .ok {
      ruleContext := "sale", facets := { byScope := ⟨[(2, ["color"])], by decide⟩ } } := by
    decide +kernel
  obtain rfl : base = _ := by
    rcases hbase with hbase | ⟨hbase, -⟩
    · exact Except.ok.inj (hbase.symm.trans hload)
    · exact absurd hload (hbase _)
  refine ⟨hmax.1 250 ?_, hcontext.2 ?_, hnames ["size", "price", "größe"]
    ["size", " ", "\tprice", "", "größe\u3000"] (by decide) ?_ ?_ (by decide +kernel), ?_⟩
  · exact saysNumber_iff.mpr (by decide +kernel)
  · rintro t ⟨s, hs, hblank, -⟩
    obtain rfl : s = " \t" := (Option.some.inj hs).symm
    exact hblank (by decide +kernel)
  · have hsize : IsListed "size" := ⟨by decide +kernel, by decide, by decide +kernel⟩
    have hprice : IsListed "price" := ⟨by decide +kernel, by decide, by decide +kernel⟩
    have hlong : IsListed "größe" := ⟨by decide +kernel, by decide, by decide +kernel⟩
    simp [hsize, hprice, hlong]
  · have hempty : IsBlankText "" := by decide +kernel
    have hspace : IsBlankText " " := by decide +kernel
    have htab : IsBlankText "\t" := by decide +kernel
    have hwide : IsBlankText "\u3000" := by decide +kernel
    exact .name "" "size" "" hempty hempty <| .blank hspace <|
      .name "\t" "price" "" htab hempty <| .blank hempty <|
      .name "" "größe" "\u3000" hempty hwide .nil
  · rw [hscopes]
    rfl

end Config

end FacetedSearch
