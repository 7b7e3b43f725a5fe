import FacetedSearch.Lookup.Basic

/-!
# Lookups in memory

Tables that answer the lookups. They are filled entry by entry; a later entry under the same key
replaces the earlier one, except that the options of a field are searched from the first on.
-/

namespace FacetedSearch

structure LabelTable where
  /-- For each field its options, with their labels. -/
  options : OrderedMap String (List (String × String)) := ∅

namespace LabelTable

def addOption (t : LabelTable) (field id label : String) : LabelTable where
  options := t.options.insert field ((t.options.get? field).getD [] ++ [(id, label)])

def label? (t : LabelTable) (field id : String) : Option String :=
  nonEmpty ((t.options.get? field).bind fun os => (os.find? (·.1 == id)).map (·.2))

def optionId? (t : LabelTable) (field label : String) : Option String :=
  nonEmpty ((t.options.get? field).bind fun os => (os.find? (·.2 == label)).map (·.1))

end LabelTable

structure PathTable where
  common : OrderedMap String String := ∅
  /-- Paths that hold in one scope only. -/
  byScope : OrderedMap (Scope × String) String := ∅

namespace PathTable

def addPath (t : PathTable) (id path : String) : PathTable :=
  { t with common := t.common.insert id path }

def addScopedPath (t : PathTable) (scope : Scope) (id path : String) : PathTable :=
  { t with byScope := t.byScope.insert (scope, id) path }

/-- The scope's own path of a category, else the common one. An empty path is none, and an empty
path of the scope hides the common one. -/
def path? (t : PathTable) (scope : Option Scope) (id : String) : Option String :=
  nonEmpty ((scope.bind fun s => t.byScope.get? (s, id)).or (t.common.get? id))

def paths (t : PathTable) (ids : List String) (scope : Option Scope) : OrderedMap String String :=
  .ofList (ids.filterMap fun id => (t.path? scope id).map (id, ·))

end PathTable

/-- The scope with a code; a code that is not listed may be the number of a scope. -/
def scopeOfCode (scopes : OrderedMap String Scope) (d : Dimension) : Except Fault Scope :=
  match (scopes.get? d.value).or (scope? d.value) with
  | some scope => .ok scope
  | none => .error (.scopeNotFound d.value)

def priceKeyOf (keys : OrderedMap Scope String) (scope : Scope) : Except Fault String :=
  match keys.get? scope with
  | some suffix => .ok suffix
  | none => .error (.priceKeyUnavailable scope)

/-- All tables together. -/
structure Tables where
  scopes : OrderedMap String Scope := ∅
  priceKeys : OrderedMap Scope String := ∅
  labels : LabelTable := {}
  paths : PathTable := {}

def Tables.lookups (t : Tables) : Lookups where
  scope := scopeOfCode t.scopes
  priceKey := priceKeyOf t.priceKeys
  label := t.labels.label?
  optionId := t.labels.optionId?
  paths := t.paths.paths

end FacetedSearch
