import FacetedSearch.OrderedMap
import Mathlib.Algebra.Ring.Nat
import Mathlib.Data.List.Induction
import Mathlib.Data.List.Nodup

/-!
# Look-up in ordered maps

What writing, erasing and filtering do to the entries of an ordered map and to what is found in
it. The entries in their order are all that can be seen of a map, so two maps with the same
entries are equal. Since keys are distinct, a key finds exactly the entry that carries it.
-/

namespace FacetedSearch.OrderedMap

variable {κ α : Type}

theorem ext_entries {m n : OrderedMap κ α} (h : m.entries = n.entries) : m = n := by
  cases m
  cases n
  cases h
  rfl

@[simp] theorem entries_empty : (∅ : OrderedMap κ α).entries = [] := rfl

@[simp] theorem entries_filter (p : κ → α → Bool) (m : OrderedMap κ α) :
    (m.filter p).entries = m.entries.filter fun e => p e.1 e.2 := rfl

theorem filter_filter (p q : κ → α → Bool) (m : OrderedMap κ α) :
    (m.filter p).filter q = m.filter fun k v => p k v && q k v := by
  apply ext_entries
  simp only [entries_filter, List.filter_filter]
  exact List.filter_congr fun e _ => Bool.and_comm _ _

/-- The total weight of the values of some entries. -/
def total (f : α → ℕ) (es : List (κ × α)) : ℕ := (es.map fun e => f e.2).sum

@[simp] theorem total_nil (f : α → ℕ) : total f ([] : List (κ × α)) = 0 := rfl

@[simp] theorem total_cons (f : α → ℕ) (e : κ × α) (es : List (κ × α)) :
    total f (e :: es) = f e.2 + total f es := by
  simp [total]

@[simp] theorem total_append (f : α → ℕ) (as bs : List (κ × α)) :
    total f (as ++ bs) = total f as + total f bs := by
  simp [total]

variable [DecidableEq κ]

@[simp] theorem get?_empty (k : κ) : (∅ : OrderedMap κ α).get? k = none := rfl

@[simp] theorem entries_insert (m : OrderedMap κ α) (k : κ) (v : α) :
    (m.insert k v).entries = putEntry k v m.entries := rfl

/-- Writing goes past the entries of other keys. -/
theorem putEntry_append {k : κ} {v : α} {as bs : List (κ × α)} (h : k ∉ as.map Prod.fst) :
    putEntry k v (as ++ bs) = as ++ putEntry k v bs := by
  induction as with
  | nil => rfl
  | cons a as ih =>
      simp only [List.map_cons, List.mem_cons, not_or] at h
      simp only [List.cons_append, putEntry, Ne.symm h.1, if_false, ih h.2]

/-- A key that is present keeps its place. -/
theorem putEntry_append_cons {k : κ} {v w : α} {as bs : List (κ × α)}
    (h : k ∉ as.map Prod.fst) : putEntry k v (as ++ (k, w) :: bs) = as ++ (k, v) :: bs := by
  rw [putEntry_append h]
  simp [putEntry]

/-- A new key goes to the end. -/
theorem putEntry_of_not_mem {k : κ} {v : α} {es : List (κ × α)} (h : k ∉ es.map Prod.fst) :
    putEntry k v es = es ++ [(k, v)] := by
  rw [← List.append_nil es, putEntry_append h, List.append_nil, putEntry]

/-- Writing under one key leaves the entries of the others where they are. -/
theorem getElem?_putEntry_of_ne {k k' : κ} (h : k' ≠ k) (v v' : α) (es : List (κ × α)) (i : ℕ) :
    (putEntry k v es)[i]? = some (k', v') ↔ es[i]? = some (k', v') := by
  induction es generalizing i with
  | nil => cases i <;> simp [putEntry, Ne.symm h]
  | cons e es ih =>
      rw [putEntry]
      split_ifs with he
      · cases i with
        | zero =>
            have hne : e ≠ (k', v') := fun heq => h (by rw [← he, heq])
            simp [Ne.symm h, hne]
        | succ i => simp
      · cases i with
        | zero => simp
        | succ i => simpa using ih i

theorem lookup_cons_eq_ite (k k' : κ) (v : α) (es : List (κ × α)) :
    ((k, v) :: es).lookup k' = if k' = k then some v else es.lookup k' := by
  by_cases h : k' = k
  · simp [h]
  · simp [List.lookup_cons, h, beq_false_of_ne h]

theorem lookup_putEntry (k k' : κ) (v : α) (es : List (κ × α)) :
    (putEntry k v es).lookup k' = if k' = k then some v else es.lookup k' := by
  induction es with
  | nil => simp only [putEntry, lookup_cons_eq_ite]
  | cons e es ih =>
      obtain ⟨a, w⟩ := e
      by_cases ha : a = k
      · subst ha
        simp only [putEntry, if_true, lookup_cons_eq_ite]
        split_ifs <;> rfl
      · simp only [putEntry, if_neg ha, lookup_cons_eq_ite, ih]
        by_cases hk : k' = k
        · subst hk
          simp [Ne.symm ha]
        · simp [hk]

@[simp] theorem get?_insert (m : OrderedMap κ α) (k k' : κ) (v : α) :
    (m.insert k v).get? k' = if k' = k then some v else m.get? k' :=
  lookup_putEntry k k' v m.entries

theorem lookup_eq_some_iff_mem {es : List (κ × α)} (h : (es.map Prod.fst).Nodup) {k : κ}
    {v : α} : es.lookup k = some v ↔ (k, v) ∈ es := by
  induction es with
  | nil => simp
  | cons e es ih =>
      obtain ⟨k', w⟩ := e
      simp only [List.map_cons, List.nodup_cons] at h
      rw [lookup_cons_eq_ite]
      split_ifs with hk
      · subst hk
        have hv : (k, v) ∉ es := fun hm => h.1 (List.mem_map_of_mem hm)
        simp only [Option.some.injEq, List.mem_cons, Prod.mk.injEq, hv, true_and, or_false]
        exact eq_comm
      · simp only [ih h.2, List.mem_cons, Prod.mk.injEq, show k ≠ k' from hk, false_and,
          false_or]

/-- A key finds the entry that carries it. -/
theorem get?_eq_some_iff {m : OrderedMap κ α} {k : κ} {v : α} :
    m.get? k = some v ↔ (k, v) ∈ m.entries :=
  lookup_eq_some_iff_mem m.nodup_keys

theorem get?_eq_none_iff {m : OrderedMap κ α} {k : κ} : m.get? k = none ↔ k ∉ m.keys := by
  simp only [Option.eq_none_iff_forall_ne_some, ne_eq, get?_eq_some_iff, keys, List.mem_map,
    Prod.exists, exists_and_right, exists_eq_right, not_exists]

theorem get?_filter (p : κ → α → Bool) (m : OrderedMap κ α) (k : κ) :
    (m.filter p).get? k = (m.get? k).filter (p k) := by
  apply Option.ext
  intro v
  simp [get?_eq_some_iff, Option.filter_eq_some_iff]

theorem get?_erase (m : OrderedMap κ α) (k k' : κ) :
    (m.erase k).get? k' = if k' = k then none else m.get? k' := by
  rw [erase, get?_filter]
  split_ifs with h
  · simp [h]
  · cases m.get? k' <;> simp [h]

theorem mem_keys_iff {m : OrderedMap κ α} {k : κ} : k ∈ m.keys ↔ (m.get? k).isSome := by
  rw [← Option.ne_none_iff_isSome, ne_eq, get?_eq_none_iff, not_not]

/-- Entries whose keys are present change no key, and the others bring theirs in the order in which
they first arrive. -/
theorem keys_foldl_insert (es : List (κ × α)) (m : OrderedMap κ α) :
    (es.foldl (fun m e => m.insert e.1 e.2) m).keys =
      m.keys ++ ((es.map Prod.fst).filter fun k => decide (k ∉ m.keys)).eraseDups := by
  induction es generalizing m with
  | nil => simp
  | cons e es ih =>
      rw [List.foldl_cons, ih, List.map_cons]
      by_cases hk : e.1 ∈ m.keys
      · have hinsert : (m.insert e.1 e.2).keys = m.keys := keys_putEntry_of_mem hk
        rw [hinsert, List.filter_cons_of_neg (by simpa using hk)]
      · have hinsert : (m.insert e.1 e.2).keys = m.keys ++ [e.1] := keys_putEntry_of_not_mem hk
        have hrest : ((es.map Prod.fst).filter fun k => decide (k ∉ m.keys ++ [e.1])) =
            ((es.map Prod.fst).filter fun k => decide (k ∉ m.keys)).filter
              fun k => !k == e.1 := by
          rw [List.filter_filter]
          refine List.filter_congr fun k _ => ?_
          rw [Bool.eq_iff_iff]
          simp [and_comm]
        rw [hinsert, List.filter_cons_of_pos (by simpa using hk), List.eraseDups_cons, hrest,
          List.append_assoc, List.singleton_append]

/-- The keys of a list, each once, in the order in which they first arrive. -/
theorem keys_ofList (es : List (κ × α)) : (ofList es).keys = (es.map Prod.fst).eraseDups := by
  have hfilter : ((es.map Prod.fst).filter fun k => decide (k ∉ (∅ : OrderedMap κ α).keys)) =
      es.map Prod.fst :=
    List.filter_eq_self.mpr fun k _ => by simp [keys]
  unfold ofList
  rw [keys_foldl_insert, hfilter]
  rfl

/-- Of the entries that are put in under one key the last is found. -/
theorem get?_foldl_insert (es : List (κ × α)) (m : OrderedMap κ α) (k : κ) :
    (es.foldl (fun m e => m.insert e.1 e.2) m).get? k = (es.reverse.lookup k).or (m.get? k) := by
  induction es generalizing m with
  | nil => rfl
  | cons e es ih =>
      rw [List.foldl_cons, ih, get?_insert, List.reverse_cons, List.lookup_append, Option.or_assoc,
        lookup_cons_eq_ite]
      split_ifs <;> rfl

theorem get?_ofList (es : List (κ × α)) (k : κ) : (ofList es).get? k = es.reverse.lookup k := by
  unfold ofList
  rw [get?_foldl_insert, get?_empty, Option.or_none]

theorem mem_of_get?_ofList {es : List (κ × α)} {k : κ} {v : α}
    (h : (ofList es).get? k = some v) : (k, v) ∈ es := by
  rw [get?_ofList, List.lookup_eq_some_iff] at h
  obtain ⟨before, after, hes, -⟩ := h
  rw [← List.mem_reverse, hes]
  exact List.mem_append_right _ List.mem_cons_self

theorem lookup_filterMap_self (f : κ → Option α) (ks : List κ) (k : κ) :
    (ks.filterMap fun k => (f k).map (k, ·)).lookup k = if k ∈ ks then f k else none := by
  induction ks with
  | nil => rfl
  | cons k' ks ih =>
      rw [List.filterMap_cons]
      by_cases hk : k = k'
      · subst hk
        cases hf : f k with
        | none => simp only [Option.map_none, ih, hf, ite_self]
        | some v => simp
      · have hmem : k ∈ k' :: ks ↔ k ∈ ks := by simp [hk]
        cases f k' with
        | none => simp only [Option.map_none, ih, hmem]
        | some v => simp only [Option.map_some, lookup_cons_eq_ite, if_neg hk, ih, hmem]

/-- Entries whose values depend on their keys alone. -/
theorem get?_ofList_filterMap (f : κ → Option α) (ks : List κ) (k : κ) :
    (ofList (ks.filterMap fun k => (f k).map (k, ·))).get? k = if k ∈ ks then f k else none := by
  rw [get?_ofList, ← List.filterMap_reverse, lookup_filterMap_self]
  simp only [List.mem_reverse]

/-- The entries are the keys in their order with what they find. -/
theorem entries_eq_filterMap_keys (m : OrderedMap κ α) :
    m.entries = m.keys.filterMap fun k => (m.get? k).map (k, ·) := by
  have hself : m.entries.filterMap (fun e => (m.get? e.1).map (e.1, ·)) =
      m.entries.filterMap some :=
    List.filterMap_congr fun e he => by rw [get?_eq_some_iff.mpr he, Option.map_some]
  rw [keys, List.filterMap_map]
  exact (hself.trans List.filterMap_some).symm

/-- A map is known by its keys in their order and by what they find. -/
theorem ext_get? {m n : OrderedMap κ α} (hkeys : m.keys = n.keys)
    (h : ∀ k, m.get? k = n.get? k) : m = n := by
  apply ext_entries
  rw [entries_eq_filterMap_keys, entries_eq_filterMap_keys, hkeys]
  exact List.filterMap_congr fun k _ => by rw [h]

theorem eraseDups_filter (p : κ → Bool) (ks : List κ) :
    (ks.filter p).eraseDups = ks.eraseDups.filter p := by
  induction ks using List.reverseRecOn with
  | nil => rfl
  | append_singleton ks k ih =>
      have hlast : (([k].filter p).removeAll (ks.filter p)).eraseDups =
          ([k].removeAll ks).eraseDups.filter p := by
        by_cases hk : k ∈ ks <;> by_cases hp : p k = true <;>
          simp [List.removeAll, List.eraseDups_cons, hk, hp]
      rw [List.filter_append, List.eraseDups_append, List.eraseDups_append, List.filter_append, ih,
        hlast]

/-- Entries whose values depend on their keys alone stand once each, in the order in which their
keys first arrive. -/
theorem entries_ofList_filterMap (f : κ → Option α) (ks : List κ) :
    (ofList (ks.filterMap fun k => (f k).map (k, ·))).entries =
      ks.eraseDups.filterMap fun k => (f k).map (k, ·) := by
  have hkeys : (ks.filterMap fun k => (f k).map (k, ·)).map Prod.fst =
      ks.filter fun k => (f k).isSome := by
    induction ks with
    | nil => rfl
    | cons k ks ih => cases h : f k <;> simp [h, ih]
  rw [entries_eq_filterMap_keys, keys_ofList, hkeys, eraseDups_filter, List.filterMap_filter]
  refine List.filterMap_congr fun k hk => ?_
  rw [get?_ofList_filterMap, if_pos (List.mem_eraseDups.mp hk)]
  cases f k <;> rfl

/-! ### Entries that stay -/

@[simp] theorem get?_insertIfNew (m : OrderedMap κ α) (k k' : κ) (v : α) :
    (m.insertIfNew k v).get? k' = (m.get? k').or (if k' = k then some v else none) := by
  unfold insertIfNew contains
  split_ifs with hnew hk hk
  · subst hk
    obtain ⟨w, hw⟩ := Option.isSome_iff_exists.mp hnew
    rw [hw, Option.some_or]
  · rw [Option.or_none]
  · subst hk
    rw [get?_insert, if_pos rfl, Option.not_isSome_iff_eq_none.mp hnew, Option.none_or]
  · rw [get?_insert, if_neg hk, Option.or_none]

/-- Of the entries that are put in if their key is new the first one is found. -/
theorem get?_foldl_insertIfNew (es : List (κ × α)) (m : OrderedMap κ α) (k : κ) :
    (es.foldl (fun m e => m.insertIfNew e.1 e.2) m).get? k = (m.get? k).or (es.lookup k) := by
  induction es generalizing m with
  | nil => rw [List.lookup_nil, Option.or_none, List.foldl_nil]
  | cons e es ih =>
      rw [List.foldl_cons, ih, get?_insertIfNew, Option.or_assoc, lookup_cons_eq_ite]
      split_ifs <;> rfl

section Totals

variable {f : α → ℕ}

theorem total_putEntry_le (f : α → ℕ) (k : κ) (v : α) (es : List (κ × α)) :
    total f (putEntry k v es) ≤ total f es + f v := by
  induction es with
  | nil => simp [putEntry]
  | cons e es ih =>
      obtain ⟨a, w⟩ := e
      rw [putEntry]
      split_ifs
      · simp only [total_cons]
        omega
      · simp only [total_cons]
        omega

/-- Writing over an entry loses its weight. -/
theorem total_putEntry_lt {k : κ} {es : List (κ × α)} (hk : k ∈ es.map Prod.fst)
    (hpos : ∀ e ∈ es, 0 < f e.2) (v : α) : total f (putEntry k v es) < total f es + f v := by
  induction es with
  | nil => simp at hk
  | cons e es ih =>
      obtain ⟨a, w⟩ := e
      have hw : 0 < f w := hpos (a, w) List.mem_cons_self
      rw [putEntry]
      split_ifs with ha
      · simp only [total_cons]
        omega
      · simp only [List.map_cons, List.mem_cons] at hk
        have hlt := ih (hk.resolve_left (Ne.symm ha)) fun e he => hpos e (List.mem_cons_of_mem _ he)
        simp only [total_cons]
        omega

theorem total_foldl_insert_le (es : List (κ × α)) (m : OrderedMap κ α) :
    total f (es.foldl (fun m e => m.insert e.1 e.2) m).entries ≤
      total f m.entries + total f es := by
  induction es generalizing m with
  | nil => simp
  | cons e es ih =>
      have hstep := ih (m.insert e.1 e.2)
      have hput := total_putEntry_le f e.1 e.2 m.entries
      rw [entries_insert] at hstep
      rw [List.foldl_cons, total_cons]
      omega

theorem entries_foldl_insert {es : List (κ × α)} {m : OrderedMap κ α}
    (h : ((m.entries ++ es).map Prod.fst).Nodup) :
    (es.foldl (fun m e => m.insert e.1 e.2) m).entries = m.entries ++ es := by
  induction es generalizing m with
  | nil => simp
  | cons e es ih =>
      have hnew : e.1 ∉ m.entries.map Prod.fst := by
        rw [List.map_append, List.nodup_append] at h
        exact fun hm => h.2.2 e.1 hm e.1 (by simp) rfl
      have hinsert : (m.insert e.1 e.2).entries = m.entries ++ [e] := putEntry_of_not_mem hnew
      rw [List.foldl_cons, ih, hinsert, List.append_assoc, List.singleton_append]
      rwa [hinsert, List.append_assoc, List.singleton_append]

theorem total_foldl_insert_lt {es : List (κ × α)} {m : OrderedMap κ α}
    (hm : ∀ e ∈ m.entries, 0 < f e.2) (hpos : ∀ e ∈ es, 0 < f e.2)
    (h : ¬ ((m.entries ++ es).map Prod.fst).Nodup) :
    total f (es.foldl (fun m e => m.insert e.1 e.2) m).entries <
      total f m.entries + total f es := by
  induction es generalizing m with
  | nil => exact absurd (by simpa using m.nodup_keys) h
  | cons e es ih =>
      rw [List.foldl_cons, total_cons]
      by_cases hk : e.1 ∈ m.entries.map Prod.fst
      · have hput := total_putEntry_lt hk hm e.2
        have hrest := total_foldl_insert_le (f := f) es (m.insert e.1 e.2)
        rw [entries_insert] at hrest
        omega
      · have hinsert : (m.insert e.1 e.2).entries = m.entries ++ [e] := putEntry_of_not_mem hk
        have hrest := ih (m := m.insert e.1 e.2) (by
          rw [hinsert]
          intro x hx
          rcases List.mem_append.mp hx with hx | hx
          · exact hm x hx
          · rw [List.mem_singleton.mp hx]
            exact hpos e List.mem_cons_self)
          (fun x hx => hpos x (List.mem_cons_of_mem _ hx))
          (by rwa [hinsert, List.append_assoc, List.singleton_append])
        rw [hinsert, total_append, total_cons, total_nil] at hrest
        omega

theorem entries_ofList {es : List (κ × α)} (h : (es.map Prod.fst).Nodup) :
    (ofList es).entries = es := by
  unfold ofList
  have hfold : ((((∅ : OrderedMap κ α).entries ++ es).map Prod.fst)).Nodup := by simpa using h
  simpa using entries_foldl_insert hfold

/-- A map keeps the whole weight of a list exactly if no key is written twice. -/
theorem total_ofList_eq_iff {es : List (κ × α)} (hpos : ∀ e ∈ es, 0 < f e.2) :
    total f (ofList es).entries = total f es ↔ (es.map Prod.fst).Nodup := by
  constructor
  · intro h
    by_contra hdup
    have hlt := total_foldl_insert_lt (f := f) (m := (∅ : OrderedMap κ α)) (by simp) hpos
      (by simpa using hdup)
    simp only [entries_empty, total_nil, Nat.zero_add] at hlt
    unfold ofList at h
    omega
  · intro h
    rw [entries_ofList h]

theorem total_ofList_le (es : List (κ × α)) :
    total f (ofList es).entries ≤ total f es := by
  unfold ofList
  have hle := total_foldl_insert_le (f := f) es (∅ : OrderedMap κ α)
  simpa using hle

end Totals

end FacetedSearch.OrderedMap
