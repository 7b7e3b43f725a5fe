import FacetedSearch.Lookup.Table
import FacetedSearch.Proofs.Aggregation

/-!
# Candidates joined with counted paths

The bucket of categories is a join: a candidate finds its path in the table, a path of the scope
before one for all scopes, and the path finds its count in the first facet of a level that lists it.
Candidates come once each, in the order in which they are first named, and those without a path or a
count are left out. Nothing else of the table, the candidates and the facets plays a part.
-/

namespace FacetedSearch

namespace PathTable

/-- A path as it is entered into a table, for one scope or for all. -/
structure Entry where
  scope : Option Scope
  id : String
  path : String
deriving Repr, DecidableEq

def enter (t : PathTable) (e : Entry) : PathTable :=
  match e.scope with
  | none => t.addPath e.id e.path
  | some scope => t.addScopedPath scope e.id e.path

/-- A table that is filled entry by entry. -/
def ofEntries (es : List Entry) : PathTable := es.foldl enter {}

/-- The path that was entered last for a category, in one scope or for all. -/
def entered? (es : List Entry) (scope : Option Scope) (id : String) : Option String :=
  (es.filter fun e => decide (e.scope = scope ∧ e.id = id)).getLast?.map Entry.path

/-- The path of a category: the scope's own if one was entered, else the one for all scopes, and
none if that is empty. -/
def pathIn? (es : List Entry) (scope : Option Scope) (id : String) : Option String :=
  ((scope.bind fun s => entered? es (some s) id).or (entered? es none id)).filter fun path =>
    decide (path ≠ "")

theorem ofEntries_concat (es : List Entry) (e : Entry) :
    ofEntries (es ++ [e]) = (ofEntries es).enter e := List.foldl_concat ..

theorem entered?_concat (es : List Entry) (e : Entry) (scope : Option Scope) (id : String) :
    entered? (es ++ [e]) scope id =
      if e.scope = scope ∧ e.id = id then some e.path else entered? es scope id := by
  unfold entered?
  rw [List.filter_append]
  split_ifs with h
  · rw [List.filter_cons_of_pos (by simpa using h), List.filter_nil, List.getLast?_concat,
      Option.map_some]
  · rw [List.filter_cons_of_neg (by simpa using h), List.filter_nil, List.append_nil]

theorem get?_common_ofEntries (es : List Entry) (id : String) :
    (ofEntries es).common.get? id = entered? es none id := by
  induction es using List.reverseRecOn with
  | nil => rfl
  | append_singleton es e ih =>
      obtain ⟨scope, id', path⟩ := e
      rw [ofEntries_concat, entered?_concat, ← ih]
      cases scope with
      | none =>
          rw [enter, addPath, OrderedMap.get?_insert]
          simp only [true_and, eq_comm]
      | some s => simp only [enter, addScopedPath, reduceCtorEq, false_and, if_false]

theorem get?_byScope_ofEntries (es : List Entry) (s : Scope) (id : String) :
    (ofEntries es).byScope.get? (s, id) = entered? es (some s) id := by
  induction es using List.reverseRecOn with
  | nil => rfl
  | append_singleton es e ih =>
      obtain ⟨scope, id', path⟩ := e
      rw [ofEntries_concat, entered?_concat, ← ih]
      cases scope with
      | none => simp only [enter, addPath, reduceCtorEq, false_and, if_false]
      | some s' =>
          change ((ofEntries es).byScope.insert (s', id') path).get? (s, id) = _
          rw [OrderedMap.get?_insert]
          simp only [Prod.mk.injEq, Option.some.injEq, eq_comm]

theorem path?_ofEntries (es : List Entry) (scope : Option Scope) (id : String) :
    (ofEntries es).path? scope id = pathIn? es scope id := by
  simp only [path?, pathIn?, nonEmpty, get?_common_ofEntries, get?_byScope_ofEntries]
  congr 1
  funext path
  rw [Bool.eq_iff_iff]
  simp

theorem get?_paths_ofEntries (es : List Entry) (ids : List String) (scope : Option Scope)
    (id : String) :
    ((ofEntries es).paths ids scope).get? id = if id ∈ ids then pathIn? es scope id else none := by
  rw [paths, OrderedMap.get?_ofList_filterMap, path?_ofEntries]

end PathTable

/-- Lookups whose category paths come from a table. -/
def Lookups.withPaths (l : Lookups) (t : PathTable) : Lookups := { l with paths := t.paths }

namespace Aggregation

open OrderedMap

def isLevel (name : String) : Bool := Text.startsWith "categories.level" name

/-- The count of a path in a facet of a level. Other facets count no paths. -/
def countIn? (path : String) (facet : String × OrderedMap String ℕ) : Option ℕ :=
  if isLevel facet.1 then facet.2.get? path else none

/-- The count of a path in the first facet of a level that lists it. -/
def levelCount? (facets : FacetCounts) (path : String) : Option ℕ :=
  facets.entries.findSome? (countIn? path)

/-- Adds the counts of a facet of a level where a path has none yet. -/
def addLevel (flat : OrderedMap String ℕ) (facet : String × OrderedMap String ℕ) :
    OrderedMap String ℕ :=
  if isLevel facet.1 then facet.2.entries.foldl (fun flat e => flat.insertIfNew e.1 e.2) flat
  else flat

theorem categoryCounts_eq_foldl (facets : FacetCounts) :
    categoryCounts facets = facets.entries.foldl addLevel ∅ := rfl

theorem get?_addLevel (flat : OrderedMap String ℕ) (facet : String × OrderedMap String ℕ)
    (path : String) :
    (addLevel flat facet).get? path = (flat.get? path).or (countIn? path facet) := by
  unfold addLevel countIn?
  split_ifs
  · exact get?_foldl_insertIfNew ..
  · rw [Option.or_none]

theorem get?_foldl_addLevel (facets : List (String × OrderedMap String ℕ))
    (flat : OrderedMap String ℕ) (path : String) :
    (facets.foldl addLevel flat).get? path =
      (flat.get? path).or (facets.findSome? (countIn? path)) := by
  induction facets generalizing flat with
  | nil => rw [List.foldl_nil, List.findSome?_nil, Option.or_none]
  | cons facet facets ih =>
      rw [List.foldl_cons, ih, get?_addLevel, Option.or_assoc, List.findSome?_cons]
      cases countIn? path facet <;> rfl

theorem get?_categoryCounts (facets : FacetCounts) (path : String) :
    (categoryCounts facets).get? path = levelCount? facets path := by
  rw [categoryCounts_eq_foldl, get?_foldl_addLevel, get?_empty, Option.none_or, levelCount?]

theorem levelCount?_filter (facets : FacetCounts) (path : String) :
    levelCount? (facets.filter fun name _ => isLevel name) path = levelCount? facets path := by
  unfold levelCount?
  rw [entries_filter]
  induction facets.entries with
  | nil => rfl
  | cons facet facets ih =>
      rw [List.filter_cons]
      split_ifs with hlevel
      · rw [List.findSome?_cons, List.findSome?_cons, ih]
      · have hnone : countIn? path facet = none := if_neg hlevel
        rw [List.findSome?_cons, hnone, ih]

section

variable (es : List PathTable.Entry) (others : Lookups) (candidates : List String)
  (facets : FacetCounts) (scope : Option Scope)

/-- The count of a category's path. -/
def joined? (id : String) : Option ℕ :=
  (PathTable.pathIn? es scope id).bind (levelCount? facets)

theorem categoryValue?_ofEntries {candidates : List String} {id : String}
    (h : id ∈ candidates) :
    categoryValue? ((others.withPaths (.ofEntries es)).paths candidates scope)
        (categoryCounts facets) id =
      (joined? es facets scope id).map fun count => { value := id, count } := by
  have hpath : ((others.withPaths (.ofEntries es)).paths candidates scope).get? id =
      PathTable.pathIn? es scope id := by
    change ((PathTable.ofEntries es).paths candidates scope).get? id = _
    rw [PathTable.get?_paths_ofEntries, if_pos h]
  have hcount : (categoryCounts facets).get? = levelCount? facets :=
    funext (get?_categoryCounts facets)
  rw [categoryValue?, hpath, hcount, joined?]

theorem entries_categoryBucket_ofEntries :
    (categoryBucket (others.withPaths (.ofEntries es)) candidates facets scope).entries =
      candidates.eraseDups.filterMap fun id =>
        (joined? es facets scope id).map fun count => (id, { value := id, count }) := by
  rw [categoryBucket_eq_ofList, entries_ofList_filterMap]
  refine List.filterMap_congr fun id hid => ?_
  rw [categoryValue?_ofEntries es others facets scope (List.mem_eraseDups.mp hid), Option.map_map]
  rfl

/-- The bucket of categories lists the candidates, each once and in the order in which they are
first named, whose path is listed by a facet of a level, each with the count of its path in the
first such facet. Candidates with the same path have the same count, and facets that are no levels
have no influence. -/
theorem categoryBucket_eq_join :
    (categoryBucket (others.withPaths (.ofEntries es)) candidates facets scope).entries =
        candidates.eraseDups.filterMap (fun id =>
          ((PathTable.pathIn? es scope id).bind (levelCount? facets)).map fun count =>
            (id, { value := id, count })) ∧
      (∀ id ∈ candidates, ∀ id' ∈ candidates,
        PathTable.pathIn? es scope id = PathTable.pathIn? es scope id' →
        ((categoryBucket (others.withPaths (.ofEntries es)) candidates facets scope).get? id).map
            BucketValue.count =
          ((categoryBucket (others.withPaths (.ofEntries es)) candidates facets scope).get?
            id').map BucketValue.count) ∧
      ∀ facets' : FacetCounts,
        facets'.filter (fun name _ => isLevel name) = facets.filter (fun name _ => isLevel name) →
        categoryBucket (others.withPaths (.ofEntries es)) candidates facets' scope =
          categoryBucket (others.withPaths (.ofEntries es)) candidates facets scope := by
  refine ⟨entries_categoryBucket_ofEntries es others candidates facets scope, ?_, ?_⟩
  · intro id hid id' hid' hpath
    rw [get?_categoryBucket, get?_categoryBucket, if_pos hid, if_pos hid',
      categoryValue?_ofEntries es others facets scope hid,
      categoryValue?_ofEntries es others facets scope hid', joined?, joined?, hpath,
      Option.map_map, Option.map_map]
    rfl
  · intro facets' hfacets
    have hcount : levelCount? facets' = levelCount? facets := by
      funext path
      rw [← levelCount?_filter, hfacets, levelCount?_filter]
    apply ext_entries
    simp only [entries_categoryBucket_ofEntries, joined?, hcount]

end

/-- Two candidates with one path, which two levels list, one of them named twice, and a path of the
scope that is empty. A facet that is no level lists the path with another count. -/
theorem categoryBucket_eq_join_of_shared_path :
    let es : List PathTable.Entry :=
      [⟨none, "3", "Men"⟩, ⟨none, "4", "Men"⟩, ⟨none, "5", "Gear"⟩, ⟨some 2, "5", ""⟩]
    let l := ({} : Tables).lookups.withPaths (.ofEntries es)
    let levels : FacetCounts := .ofList [("categories.level0", .ofList [("Men", 30), ("Gear", 9)]),
      ("categories.level1", .ofList [("Men", 1)])]
    let facets : FacetCounts := .ofList [("categories", .ofList [("Men", 2)]),
      ("categories.level0", .ofList [("Men", 30), ("Gear", 9)]),
      ("categories.level1", .ofList [("Men", 1)])]
    let candidates := ["4", "5", "3", "4"]
    (categoryBucket l candidates levels (some 2)).entries =
        [("4", { value := "4", count := 30 }), ("3", { value := "3", count := 30 })] ∧
      categoryBucket l candidates facets (some 2) =
        categoryBucket l candidates levels (some 2) := by
  intro es l levels facets candidates
  obtain ⟨hentries, -, hlevels⟩ :=
    categoryBucket_eq_join es ({} : Tables).lookups candidates levels (some 2)
  refine ⟨hentries.trans ?_, hlevels facets ?_⟩ <;> decide +kernel

end Aggregation

end FacetedSearch
