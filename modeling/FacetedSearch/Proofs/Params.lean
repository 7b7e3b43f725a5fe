import FacetedSearch.Params
import FacetedSearch.Proofs.OrderedMap

/-!
# Clause families

Appending to a family touches no other parameter. A family of plain clauses that is absent
appears at the end of the parameters with its first clause, and one that is present grows at its
own place.
-/

namespace FacetedSearch.Params

open OrderedMap

@[simp] theorem appendAll_nil (p : Params) (family : String) : p.appendAll family [] = p := rfl

@[simp] theorem appendAll_cons (p : Params) (family clause : String) (clauses : List String) :
    p.appendAll family (clause :: clauses) = (p.append family clause).appendAll family clauses :=
  rfl

theorem appendAll_append (p : Params) (family : String) (as bs : List String) :
    p.appendAll family (as ++ bs) = (p.appendAll family as).appendAll family bs :=
  List.foldl_append

theorem get?_append_of_ne (p : Params) {family key : String} (h : key ≠ family)
    (clause : String) : (p.append family clause).get? key = p.get? key := by
  unfold append
  split <;> simp only [get?_insert, if_neg h]

theorem get?_appendAll_of_ne {family key : String} (h : key ≠ family) (clauses : List String)
    (p : Params) : (p.appendAll family clauses).get? key = p.get? key := by
  induction clauses generalizing p with
  | nil => rfl
  | cons clause clauses ih => rw [appendAll_cons, ih, get?_append_of_ne p h]

theorem getElem?_append_of_ne (p : Params) {family key : String} (h : key ≠ family)
    (clause : String) (i : ℕ) (v : Json.Value) :
    (p.append family clause).entries[i]? = some (key, v) ↔ p.entries[i]? = some (key, v) := by
  unfold append
  split <;> exact getElem?_putEntry_of_ne h _ _ _ _

/-- The entry of a family. A family without clauses has none. -/
def familyEntries (family : String) : List String → List (String × Json.Value)
  | [] => []
  | clauses => [(family, .ofStrings clauses)]

theorem entries_append_of_mem {p : Params} {family : String}
    {before after : List (String × Json.Value)}
    {clauses : List String} (h : p.entries = before ++ (family, .ofStrings clauses) :: after)
    (clause : String) :
    (p.append family clause).entries =
      before ++ (family, .ofStrings (clauses ++ [clause])) :: after := by
  have hget : p.get? family = some (.ofStrings clauses) := by
    rw [get?_eq_some_iff, h]
    simp
  have hnew : family ∉ before.map Prod.fst := by
    have hn := p.nodup_keys
    rw [h, List.map_append, List.map_cons, List.nodup_append] at hn
    exact fun hm => hn.2.2 family hm family (by simp) rfl
  unfold append
  rw [hget]
  simp only [Json.Value.ofStrings, entries_insert, h, putEntry_append_cons hnew, List.map_append,
    List.map_cons, List.map_nil]

theorem entries_append_of_not_mem {p : Params} {family : String} (h : family ∉ p.keys)
    (clause : String) :
    (p.append family clause).entries = p.entries ++ [(family, .ofStrings [clause])] := by
  unfold append
  rw [get?_eq_none_iff.mpr h]
  exact putEntry_of_not_mem h

theorem entries_appendAll_of_mem {p : Params} {family : String}
    {before after : List (String × Json.Value)} {clauses : List String}
    (h : p.entries = before ++ (family, .ofStrings clauses) :: after) (more : List String) :
    (p.appendAll family more).entries =
      before ++ (family, .ofStrings (clauses ++ more)) :: after := by
  induction more generalizing p clauses with
  | nil => simpa using h
  | cons clause more ih =>
      rw [appendAll_cons, ih (entries_append_of_mem h clause), List.append_assoc,
        List.singleton_append]

theorem entries_appendAll_of_not_mem {p : Params} {family : String} (h : family ∉ p.keys)
    (clauses : List String) :
    (p.appendAll family clauses).entries = p.entries ++ familyEntries family clauses := by
  cases clauses with
  | nil => simp [familyEntries]
  | cons clause clauses =>
      exact entries_appendAll_of_mem (entries_append_of_not_mem h clause) clauses

end FacetedSearch.Params
