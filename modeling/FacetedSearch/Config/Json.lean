import FacetedSearch.Config.Basic
import FacetedSearch.Json.Decoder

/-! The JSON form of the configuration. Every field has a default. -/

namespace FacetedSearch

open Json

def Visibility.toValue (v : Visibility) : Value :=
  .object [("catalogCode", .string v.catalogCode), ("searchCode", .string v.searchCode),
    ("bothCode", .string v.bothCode), ("catalogField", .string v.catalogField),
    ("searchField", .string v.searchField)]

def FacetSettings.toValue (s : FacetSettings) : Value :=
  .object [("default", .ofStrings s.common),
    ("scopes", .object (s.byScope.entries.map fun e => (scopeText e.1, .ofStrings e.2)))]

def Config.toValue (c : Config) : Value :=
  .object [("maxValuesPerFacet", .ofNat c.maxValuesPerFacet),
    ("ruleContextMarker", .string c.ruleContext), ("categoryLevels", .ofNat c.categoryLevels),
    ("facets", c.facets.toValue), ("visibility", c.visibility.toValue),
    ("priceCacheTtlSecs", .ofNat c.priceCacheSeconds)]

def Visibility.decode : Decoder Visibility :=
  let preset : Visibility := {}
  .record ["catalogCode", "searchCode", "bothCode", "catalogField", "searchField"]
    fun room f => do
      return {
        catalogCode := ← f.withDefault .text preset.catalogCode room "catalogCode"
        searchCode := ← f.withDefault .text preset.searchCode room "searchCode"
        bothCode := ← f.withDefault .text preset.bothCode room "bothCode"
        catalogField := ← f.withDefault .text preset.catalogField room "catalogField"
        searchField := ← f.withDefault .text preset.searchField room "searchField" }

/-- The scope that a member is named for: a number written plainly, without leading zeros. -/
def scopeName? (name : Name) : Option Scope :=
  if name.isPlain then
    name.text?.bind fun s => (scope? s).filter fun scope => scopeText scope == s
  else none

def scopeMap {α : Type} (d : Decoder α) : Decoder (OrderedMap Scope α)
  | room + 1, .object members =>
    (members.mapM fun (name, t) => do return ((← scopeName? name), (← d room t))).map
      OrderedMap.ofList
  | _, _ => none

def FacetSettings.decode : Decoder FacetSettings :=
  .record ["default", "scopes"] fun room f => do
    return {
      common := ← f.withDefault (.list .text) [] room "default"
      byScope := ← f.withDefault (scopeMap (.list .text)) ∅ room "scopes" }

def Config.decode : Decoder Config :=
  let preset : Config := {}
  .record ["maxValuesPerFacet", "ruleContextMarker", "categoryLevels", "facets", "visibility",
      "priceCacheTtlSecs"]
    fun room f => do
      return {
        maxValuesPerFacet :=
          ← f.withDefault .word preset.maxValuesPerFacet room "maxValuesPerFacet"
        ruleContext := ← f.withDefault .text preset.ruleContext room "ruleContextMarker"
        categoryLevels := ← f.withDefault .word preset.categoryLevels room "categoryLevels"
        facets := ← f.withDefault FacetSettings.decode {} room "facets"
        visibility := ← f.withDefault Visibility.decode {} room "visibility"
        priceCacheSeconds :=
          ← f.withDefault .word preset.priceCacheSeconds room "priceCacheTtlSecs" }

end FacetedSearch
