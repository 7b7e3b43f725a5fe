import FacetedSearch.Proofs.OrderedMap
import Mathlib.Algebra.BigOperators.Group.Finset.Piecewise
import Mathlib.Algebra.Order.BigOperators.Group.Finset
import Mathlib.Data.List.Induction

/-!
# Values under one key

A list of entries may give several values to a key. A map made of the list has the last of them,
and the weight of the others is lost.
-/

namespace FacetedSearch.OrderedMap

open scoped BigOperators

variable {κ α β : Type}

theorem keys_map (g : κ → α → β) (m : OrderedMap κ α) : (m.map g).keys = m.keys := by
  unfold keys OrderedMap.map
  rw [List.map_map]
  rfl

/-- A change of the values that keeps each weight. -/
theorem total_map {f : α → ℕ} {f' : β → ℕ} {g : κ → α → β} (h : ∀ k v, f' (g k v) = f v)
    (m : OrderedMap κ α) : total f' (m.map g).entries = total f m.entries := by
  unfold total OrderedMap.map
  rw [List.map_map]
  exact congrArg List.sum (List.map_congr_left fun e _ => h e.1 e.2)

variable [DecidableEq κ]

theorem get?_map (g : κ → α → β) (m : OrderedMap κ α) (k : κ) :
    (m.map g).get? k = (m.get? k).map (g k) := by
  change (m.entries.map fun e => (e.1, g e.1 e.2)).lookup k = (m.entries.lookup k).map (g k)
  induction m.entries with
  | nil => rfl
  | cons e es ih =>
      rw [List.map_cons, lookup_cons_eq_ite, lookup_cons_eq_ite, ih]
      split_ifs with h
      · rw [h, Option.map_some]
      · rfl

theorem ofList_concat (es : List (κ × α)) (e : κ × α) :
    ofList (es ++ [e]) = (ofList es).insert e.1 e.2 := by
  unfold ofList
  rw [List.foldl_concat]

theorem map_putEntry (g : κ → α → β) (k : κ) (v : α) (es : List (κ × α)) :
    (putEntry k v es).map (fun e => (e.1, g e.1 e.2)) =
      putEntry k (g k v) (es.map fun e => (e.1, g e.1 e.2)) := by
  induction es with
  | nil => rfl
  | cons e es ih =>
      rw [putEntry, List.map_cons, putEntry]
      split_ifs
      · rfl
      · rw [List.map_cons, ih]

theorem map_insert (g : κ → α → β) (m : OrderedMap κ α) (k : κ) (v : α) :
    (m.insert k v).map g = (m.map g).insert k (g k v) :=
  ext_entries (map_putEntry g k v m.entries)

theorem map_ofList (g : κ → α → β) (es : List (κ × α)) :
    (ofList es).map g = ofList (es.map fun e => (e.1, g e.1 e.2)) := by
  induction es using List.reverseRecOn with
  | nil => rfl
  | append_singleton es e ih =>
      rw [ofList_concat, map_insert, ih, List.map_append, List.map_singleton, ofList_concat]


section Groups

/-- The values that a list has under a key, in their order. -/
def valuesOf (es : List (κ × α)) (k : κ) : List α :=
  (es.filter fun e => decide (e.1 = k)).map Prod.snd

theorem valuesOf_cons (e : κ × α) (es : List (κ × α)) (k : κ) :
    valuesOf (e :: es) k = if e.1 = k then e.2 :: valuesOf es k else valuesOf es k := by
  unfold valuesOf
  by_cases h : e.1 = k <;> simp [h]

theorem mem_valuesOf {es : List (κ × α)} {k : κ} {v : α} : v ∈ valuesOf es k ↔ (k, v) ∈ es := by
  simp [valuesOf]

theorem valuesOf_concat (es : List (κ × α)) (e : κ × α) (k : κ) :
    valuesOf (es ++ [e]) k = if k = e.1 then valuesOf es k ++ [e.2] else valuesOf es k := by
  unfold valuesOf
  by_cases h : k = e.1
  · simp [h]
  · simp [h, Ne.symm h]

/-- Of the values of a key the last one is found. -/
theorem get?_ofList_eq_getLast? (es : List (κ × α)) (k : κ) :
    (ofList es).get? k = (valuesOf es k).getLast? := by
  induction es using List.reverseRecOn with
  | nil => rfl
  | append_singleton es e ih =>
      rw [ofList_concat, get?_insert, valuesOf_concat, ih]
      split_ifs
      · rw [List.getLast?_concat]
      · rfl

/-- Where keys are distinct, a key has one value at most. -/
theorem valuesOf_eq_toList {es : List (κ × α)} (h : (es.map Prod.fst).Nodup) (k : κ) :
    valuesOf es k = (es.lookup k).toList := by
  induction es with
  | nil => rfl
  | cons e es ih =>
      simp only [List.map_cons, List.nodup_cons] at h
      rw [valuesOf_cons, ih h.2, lookup_cons_eq_ite]
      by_cases hk : e.1 = k
      · have hnone : es.lookup k = none := by
          rw [List.lookup_eq_none_iff]
          exact fun e' he' => bne_iff_ne.mpr fun (heq : k = e'.1) =>
            h.1 (hk.trans heq ▸ List.mem_map_of_mem he')
        rw [if_pos hk, if_pos hk.symm, hnone]
        rfl
      · rw [if_neg hk, if_neg (Ne.symm hk)]

variable (f : α → ℕ)

/-- The weight of a list is that of its groups. -/
theorem total_eq_sum_valuesOf {es : List (κ × α)} {ks : Finset κ} (h : ∀ e ∈ es, e.1 ∈ ks) :
    total f es = ∑ k ∈ ks, ((valuesOf es k).map f).sum := by
  induction es with
  | nil => simp [valuesOf]
  | cons e es ih =>
      have hcons (k : κ) : ((valuesOf (e :: es) k).map f).sum =
          (if e.1 = k then f e.2 else 0) + ((valuesOf es k).map f).sum := by
        rw [valuesOf_cons]
        split_ifs <;> simp
      rw [total_cons, ih fun e' he' => h e' (List.mem_cons_of_mem e he')]
      simp only [hcons, Finset.sum_add_distrib, Finset.sum_ite_eq, h e List.mem_cons_self, if_true]

theorem sum_dropLast_add_getLast? (vs : List α) :
    (vs.dropLast.map f).sum + (vs.getLast?.toList.map f).sum = (vs.map f).sum := by
  induction vs using List.reverseRecOn with
  | nil => rfl
  | append_singleton vs v ih => simp

/-- A map made of a list has lost the weight of all values but the last of each key. -/
theorem total_ofList_add_dropLast {es : List (κ × α)} {ks : Finset κ} (h : ∀ e ∈ es, e.1 ∈ ks) :
    total f (ofList es).entries + ∑ k ∈ ks, ((valuesOf es k).dropLast.map f).sum =
      total f es := by
  have hkeys : ∀ e ∈ (ofList es).entries, e.1 ∈ ks := fun e he =>
    h e (mem_of_get?_ofList (get?_eq_some_iff.mpr he))
  have hlast (k : κ) : valuesOf (ofList es).entries k = (valuesOf es k).getLast?.toList := by
    rw [valuesOf_eq_toList (ofList es).nodup_keys, ← get?_ofList_eq_getLast?]
    rfl
  rw [total_eq_sum_valuesOf f hkeys, total_eq_sum_valuesOf f h, ← Finset.sum_add_distrib]
  refine Finset.sum_congr rfl fun k _ => ?_
  rw [hlast, Nat.add_comm, sum_dropLast_add_getLast?]

/-- A map keeps the whole weight of a list exactly if all values but the last of each key weigh
nothing. -/
theorem total_ofList_eq_iff_dropLast {es : List (κ × α)} :
    total f (ofList es).entries = total f es ↔ ∀ k, ∀ v ∈ (valuesOf es k).dropLast, f v = 0 := by
  have hkeys : ∀ e ∈ es, e.1 ∈ (es.map Prod.fst).toFinset := fun e he =>
    List.mem_toFinset.mpr (List.mem_map_of_mem he)
  have hweight := total_ofList_add_dropLast f hkeys
  rw [← hweight, Nat.left_eq_add, Finset.sum_eq_zero_iff]
  simp only [List.sum_eq_zero_iff, List.forall_mem_map]
  constructor
  · intro h k v hv
    have hk : k ∈ (es.map Prod.fst).toFinset :=
      hkeys (k, v) (mem_valuesOf.mp (List.mem_of_mem_dropLast hv))
    exact h k hk v hv
  · exact fun h k _ => h k

end Groups

end FacetedSearch.OrderedMap
