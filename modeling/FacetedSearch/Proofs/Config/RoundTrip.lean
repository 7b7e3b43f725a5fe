import FacetedSearch.Config.Source
import FacetedSearch.Proofs.Filter.Json
import FacetedSearch.Proofs.Json.Doubles
import FacetedSearch.Proofs.Text.Numeral

/-!
# Stored configurations

A configuration is stored as indented text and read back field by field. The scopes with facets of
their own are members named by their numbers, and a name gives its number back. Whatever was read
from a text, fields left to their defaults included, can be stored again.
-/

namespace FacetedSearch

open Json

/-! ## Scopes as names -/

theorem scope?_scopeText (scope : Scope) : scope? (scopeText scope) = some scope := by
  have hlimit : scope.toNat < Text.scopeLimit := scope.toNat_lt
  rw [scope?, scopeText, Text.natural?_digits hlimit, Option.map_some, UInt32.ofNat_toNat]

theorem scopeText_injective : Function.Injective scopeText := by
  intro s s' h
  have hread := congrArg scope? h
  rw [scope?_scopeText, scope?_scopeText] at hread
  exact Option.some.inj hread

/-- A digit is written as itself. -/
theorem isPlain_pieceOf {c : Char} (h : c.isDigit = true) : (pieceOf c).isPlain = true := by
  have hspecial : c ∉ ['"', '\\', '\x08', '\x0c', '\n', '\r', '\t'] := by
    intro hmem
    simp only [List.mem_cons, List.not_mem_nil, or_false] at hmem
    rcases hmem with rfl | rfl | rfl | rfl | rfl | rfl | rfl <;> exact absurd h (by decide)
  have hcontrol : ¬ c.toNat < 0x20 := by
    have hzero : '0'.toNat ≤ c.toNat := (Char.isDigit_iff_toNat.mp h).1
    exact fun hlt => absurd (hzero.trans_lt hlt) (by decide)
  rw [pieceOf, if_neg hspecial, if_neg hcontrol]
  rfl

theorem isPlain_ofString_scopeText (scope : Scope) :
    (Name.ofString (scopeText scope)).isPlain = true := by
  change ((scopeText scope).toList.map pieceOf).all Piece.isPlain = true
  rw [scopeText, String.toList_ofList, List.all_map, List.all_eq_true]
  exact fun c hc => isPlain_pieceOf (Text.isDigit_of_mem_digits hc)

theorem scopeName?_ofString (scope : Scope) :
    scopeName? (.ofString (scopeText scope)) = some scope := by
  rw [scopeName?, if_pos (isPlain_ofString_scopeText scope), Name.text?_ofString, Option.bind_some,
    scope?_scopeText, Option.filter_some, if_pos (beq_self_eq_true _)]

theorem readsBack_scopeMap {α : Type} {d : Decoder α} {f : α → Value} {m : OrderedMap Scope α}
    (h : ∀ e ∈ m.entries, ReadsBack d (f e.2) e.2) :
    ReadsBack (scopeMap d) (.object (m.entries.map fun e => (scopeText e.1, f e.2))) m := by
  refine ⟨.object ?_ ?_, fun {room} hroom => ?_⟩
  · have hnames := m.nodup_keys.map scopeText_injective
    rwa [List.map_map] at hnames ⊢
  · intro member hmember
    obtain ⟨e, he, rfl⟩ := List.mem_map.mp hmember
    exact (h e he).wellFormed
  · rw [Value.depth] at hroom
    obtain ⟨room, rfl⟩ := Nat.exists_eq_add_of_le' (Nat.le_of_add_left_le hroom)
    have hentries := mapM_ofMembers scopeName?_ofString (d := d room) (f := f)
      fun e (he : e ∈ m.entries) => (h e he).decode <|
        (Value.depth_le_membersDepth (List.mem_map_of_mem he)).trans (Nat.le_of_succ_le_succ hroom)
    rw [Tree.ofValue, scopeMap]
    refine (congrArg (Option.map OrderedMap.ofList) hentries).trans ?_
    exact congrArg some (OrderedMap.ext_entries (OrderedMap.entries_ofList m.nodup_keys))

/-! ## Fields -/

theorem Visibility.readsBack (v : Visibility) : ReadsBack decode v.toValue v := by
  have hcatalogCode := ReadsBack.text v.catalogCode
  have hsearchCode := ReadsBack.text v.searchCode
  have hbothCode := ReadsBack.text v.bothCode
  have hcatalogField := ReadsBack.text v.catalogField
  have hsearchField := ReadsBack.text v.searchField
  refine .record (by
    change ["catalogCode", "searchCode", "bothCode", "catalogField", "searchField"].Nodup
    decide) ?_ fun room hroom => ?_
  · simp [hcatalogCode.wellFormed, hsearchCode.wellFormed, hbothCode.wellFormed,
      hcatalogField.wellFormed, hsearchField.wellFormed]
  · rw [hcatalogCode.withDefault hroom rfl, hsearchCode.withDefault hroom rfl,
      hbothCode.withDefault hroom rfl, hcatalogField.withDefault hroom rfl,
      hsearchField.withDefault hroom rfl]
    rfl

theorem FacetSettings.readsBack (s : FacetSettings) : ReadsBack decode s.toValue s := by
  have hcommon := readsBack_ofStrings s.common
  have hscopes := readsBack_scopeMap (m := s.byScope) fun e _ => readsBack_ofStrings e.2
  refine .record (by change ["default", "scopes"].Nodup; decide) ?_ fun room hroom => ?_
  · simp [hcommon.wellFormed, hscopes.wellFormed]
  · rw [hcommon.withDefault hroom rfl, hscopes.withDefault hroom rfl]
    rfl

namespace Config

/-- The configurations that can be stored: their numbers are words. -/
structure WellFormed (c : Config) : Prop where
  maxValuesPerFacet : c.maxValuesPerFacet < Text.wordLimit
  categoryLevels : c.categoryLevels < Text.wordLimit
  priceCacheSeconds : c.priceCacheSeconds < Text.wordLimit

theorem readsBack {c : Config} (h : c.WellFormed) : ReadsBack decode c.toValue c := by
  have hmaxValues := ReadsBack.word h.maxValuesPerFacet
  have hruleContext := ReadsBack.text c.ruleContext
  have hlevels := ReadsBack.word h.categoryLevels
  have hfacets := c.facets.readsBack
  have hvisibility := c.visibility.readsBack
  have hseconds := ReadsBack.word h.priceCacheSeconds
  refine .record (by
    change ["maxValuesPerFacet", "ruleContextMarker", "categoryLevels", "facets", "visibility",
      "priceCacheTtlSecs"].Nodup
    decide) ?_ fun room hroom => ?_
  · simp [hmaxValues.wellFormed, hruleContext.wellFormed, hlevels.wellFormed, hfacets.wellFormed,
      hvisibility.wellFormed, hseconds.wellFormed]
  · rw [hmaxValues.withDefault hroom rfl, hruleContext.withDefault hroom rfl,
      hlevels.withDefault hroom rfl, hfacets.withDefault hroom rfl,
      hvisibility.withDefault hroom rfl, hseconds.withDefault hroom rfl]
    rfl

end Config

/-! ## Nesting -/

theorem Json.Value.depth_ofStrings (ss : List String) : (Value.ofStrings ss).depth = 1 := by
  have hitems : Value.itemsDepth (ss.map .string) = 0 := by
    induction ss with
    | nil => rfl
    | cons s ss ih => rw [List.map_cons, Value.itemsDepth, ih]; rfl
  rw [Value.ofStrings, Value.depth, hitems]

/-- The facets of a scope lie deepest: in the members of all scopes, in the facets, in the
configuration. -/
theorem Config.depth_toValue_le (c : Config) : c.toValue.depth ≤ 4 := by
  have hscopes : Value.membersDepth (c.facets.byScope.entries.map fun e =>
      (scopeText e.1, Value.ofStrings e.2)) ≤ 1 := by
    refine Value.membersDepth_le fun member hmember => ?_
    obtain ⟨e, -, rfl⟩ := List.mem_map.mp hmember
    exact (Value.depth_ofStrings e.2).le
  have hcommon := Value.depth_ofStrings c.facets.common
  simp only [toValue, FacetSettings.toValue, Visibility.toValue, Value.ofNat, Value.depth,
    Value.membersDepth, hcommon]
  omega

/-! ## What a text can carry -/

namespace Json

theorem Decoder.lt_of_word {room : ℕ} {t : Tree} {n : ℕ} (h : word room t = some n) :
    n < Text.wordLimit := by
  unfold word natural at h
  split at h
  next n' =>
    split_ifs at h with hlimit
    obtain rfl := Option.some.inj h
    omega
  next => cases h

/-- A field has what its decoder found or its default. -/
theorem Fields.withDefault_spec {α : Type} {p : α → Prop} {d : Decoder α} {default : α}
    (hdefault : p default) (hd : ∀ {room t x}, d room t = some x → p x) {room : ℕ} {f : Fields}
    {name : String} {x : α} (h : f.withDefault d default room name = some x) : p x := by
  unfold withDefault at h
  split at h
  · rwa [← Option.some.inj h]
  · exact hd h

end Json

namespace Config

theorem wellFormed_of_decode {room : ℕ} {t : Tree} {c : Config} (h : decode room t = some c) :
    c.WellFormed := by
  cases room with
  | zero => cases h
  | succ room =>
      obtain ⟨f, -, h⟩ := Option.bind_eq_some_iff.mp h
      obtain ⟨maxValues, hmaxValues, h⟩ := Option.bind_eq_some_iff.mp h
      obtain ⟨ruleContext, -, h⟩ := Option.bind_eq_some_iff.mp h
      obtain ⟨levels, hlevels, h⟩ := Option.bind_eq_some_iff.mp h
      obtain ⟨facets, -, h⟩ := Option.bind_eq_some_iff.mp h
      obtain ⟨visibility, -, h⟩ := Option.bind_eq_some_iff.mp h
      obtain ⟨seconds, hseconds, h⟩ := Option.bind_eq_some_iff.mp h
      obtain rfl := Option.some.inj h
      have hword {default n : ℕ} {name : String} (hdefault : default < Text.wordLimit)
          (hn : f.withDefault .word default room name = some n) : n < Text.wordLimit :=
        Fields.withDefault_spec (p := (· < Text.wordLimit)) hdefault Decoder.lt_of_word hn
      exact ⟨hword (by decide) hmaxValues, hword (by decide) hlevels, hword (by decide) hseconds⟩

theorem ofText_eq_ok_iff {s : String} {c : Config} :
    ofText s = .ok c ↔ decode.read? .shortest s = some c := by
  unfold ofText Decoder.read?
  cases (parse? .shortest s).bind (decode nestingLimit) <;> simp

theorem load_eq_ok_iff {file : StoredFile} {c : Config} :
    load file = .ok c ↔ ∃ s, file = .text s ∧ decode.read? .shortest s = some c := by
  cases file with
  | absent => simp [load]
  | notText => simp [load]
  | text s => simp [load, ofText_eq_ok_iff]

theorem wellFormed_of_load {file : StoredFile} {c : Config} (h : load file = .ok c) :
    c.WellFormed := by
  obtain ⟨s, -, hread⟩ := load_eq_ok_iff.mp h
  obtain ⟨t, -, hdecode⟩ := Option.bind_eq_some_iff.mp hread
  exact wellFormed_of_decode hdecode

theorem save_true (c : Config) :
    c.save true = .ok (.text (c.toValue.renderIndented .shortest)) := rfl

theorem load_save_of_wellFormed {c : Config} (h : c.WellFormed) :
    (c.save true).bind load = .ok c := by
  have hdepth : c.toValue.depth ≤ nestingLimit := c.depth_toValue_le.trans (by decide)
  have hread := (readsBack h).read?_indented_eq DoubleFormat.faithful_shortest hdepth
  rw [save_true, Except.bind, load_eq_ok_iff]
  exact ⟨_, rfl, hread⟩

/-- A configuration that is saved is loaded again as it was, with all its texts, its facets and
those of each scope, in whatever order the scopes are listed, and its numbers. So what was loaded
from any file can be saved and loaded again without a loss, fields that the file left to their
defaults included. -/
theorem load_save :
    (∀ c : Config, c.WellFormed → (c.save true).bind load = .ok c) ∧
    ∀ (file : StoredFile) (c : Config), load file = .ok c → (c.save true).bind load = .ok c :=
  ⟨fun _ h => load_save_of_wellFormed h,
    fun _ _ h => load_save_of_wellFormed (wellFormed_of_load h)⟩

/-- Texts that need escapes, the last scope before the first, a scope without facets and the
greatest number; and a file that sets the facets of one scope alone. -/
theorem load_save_of_sample :
    let c : Config := {
      maxValuesPerFacet := 18446744073709551615, ruleContext := "\"\\\x01"
      facets := {
        common := ["é\n", ""]
        byScope := ⟨[(4294967295, ["price", "price"]), (0, [])], by decide⟩ }
      visibility := { bothCode := "" } }
    let file : StoredFile := .text "\x7b\"facets\":\x7b\"scopes\":\x7b\"2\":[\"size\"]\x7d\x7d\x7d"
    let loaded : Config := { facets := { byScope := ⟨[(2, ["size"])], by decide⟩ } }
    (c.WellFormed ∧ (c.save true).bind load = .ok c) ∧
      load file = .ok loaded ∧ (loaded.save true).bind load = .ok loaded := by
  intro c file loaded
  have hc : c.WellFormed := ⟨by decide, by decide, by decide⟩
  have hfile : load file = .ok loaded := by decide +kernel
  exact ⟨⟨hc, load_save.1 c hc⟩, hfile, load_save.2 file loaded hfile⟩

end Config

end FacetedSearch
