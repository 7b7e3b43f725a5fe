/-!
# Maps that keep the order of arrival

A finite map whose entries stand in the order in which their keys first arrived. Writing to a
key that is present replaces its value and moves nothing; a new key goes to the end. That the
keys are distinct is part of the type.
-/

namespace FacetedSearch

variable {κ α β : Type}

structure OrderedMap (κ α : Type) where
  entries : List (κ × α)
  /-- Each key stands once. -/
  nodup_keys : (entries.map Prod.fst).Nodup
deriving Repr, DecidableEq

namespace OrderedMap

section Entries

variable [DecidableEq κ]

/-- Replaces the value of the first entry under `k`, or adds an entry at the end. -/
def putEntry (k : κ) (v : α) : List (κ × α) → List (κ × α)
  | [] => [(k, v)]
  | e :: es => if e.1 = k then (k, v) :: es else e :: putEntry k v es

theorem keys_putEntry_of_mem {k : κ} {v : α} {es : List (κ × α)} (h : k ∈ es.map Prod.fst) :
    (putEntry k v es).map Prod.fst = es.map Prod.fst := by
  induction es with
  | nil => simp at h
  | cons e es ih =>
    by_cases he : e.1 = k
    · simp [putEntry, he]
    · have : k ∈ es.map Prod.fst := by
        simp only [List.map_cons, List.mem_cons] at h
        exact h.resolve_left fun hk => he hk.symm
      simp only [putEntry, he, if_false, List.map_cons, ih this]

theorem keys_putEntry_of_not_mem {k : κ} {v : α} {es : List (κ × α)}
    (h : k ∉ es.map Prod.fst) :
    (putEntry k v es).map Prod.fst = es.map Prod.fst ++ [k] := by
  induction es with
  | nil => rfl
  | cons e es ih =>
    simp only [List.map_cons, List.mem_cons, not_or] at h
    simp only [putEntry, Ne.symm h.1, if_false, List.map_cons, ih h.2, List.cons_append]

theorem nodup_putEntry {k : κ} {v : α} {es : List (κ × α)} (h : (es.map Prod.fst).Nodup) :
    ((putEntry k v es).map Prod.fst).Nodup := by
  by_cases hk : k ∈ es.map Prod.fst
  · rwa [keys_putEntry_of_mem hk]
  · rw [keys_putEntry_of_not_mem hk, List.nodup_append]
    refine ⟨h, by simp, ?_⟩
    intro a ha b hb
    rw [List.mem_singleton.1 hb]
    exact fun hab => hk (hab ▸ ha)

end Entries

theorem nodup_filter {p : κ × α → Bool} {es : List (κ × α)} (h : (es.map Prod.fst).Nodup) :
    ((es.filter p).map Prod.fst).Nodup :=
  h.sublist ((List.filter_sublist (p := p) (l := es)).map Prod.fst)

def empty : OrderedMap κ α := ⟨[], by simp⟩

instance : EmptyCollection (OrderedMap κ α) := ⟨empty⟩

instance : Inhabited (OrderedMap κ α) := ⟨empty⟩

def keys (m : OrderedMap κ α) : List κ := m.entries.map Prod.fst

def values (m : OrderedMap κ α) : List α := m.entries.map Prod.snd

def size (m : OrderedMap κ α) : Nat := m.entries.length

def isEmpty (m : OrderedMap κ α) : Bool := m.entries.isEmpty

/-- The entries that satisfy `p`, in their order. -/
def filter (p : κ → α → Bool) (m : OrderedMap κ α) : OrderedMap κ α where
  entries := m.entries.filter fun e => p e.1 e.2
  nodup_keys := nodup_filter m.nodup_keys

/-- Changes every value and no key. -/
def map (f : κ → α → β) (m : OrderedMap κ α) : OrderedMap κ β where
  entries := m.entries.map fun e => (e.1, f e.1 e.2)
  nodup_keys := by simpa [Function.comp_def] using m.nodup_keys

variable [DecidableEq κ]

def get? (m : OrderedMap κ α) (k : κ) : Option α := m.entries.lookup k

def contains (m : OrderedMap κ α) (k : κ) : Bool := (m.get? k).isSome

def insert (m : OrderedMap κ α) (k : κ) (v : α) : OrderedMap κ α where
  entries := putEntry k v m.entries
  nodup_keys := nodup_putEntry m.nodup_keys

/-- The entry stays if its key is present already. -/
def insertIfNew (m : OrderedMap κ α) (k : κ) (v : α) : OrderedMap κ α :=
  if m.contains k then m else m.insert k v

def erase (m : OrderedMap κ α) (k : κ) : OrderedMap κ α :=
  m.filter fun k' _ => decide (k' ≠ k)

/-- The entries put in one after another: a repeated key keeps its first place and its last
value. -/
def ofList (es : List (κ × α)) : OrderedMap κ α :=
  es.foldl (fun m e => m.insert e.1 e.2) ∅

example : (ofList [("b", 1), ("a", 2), ("b", 3)]).entries = [("b", 3), ("a", 2)] := by decide

end OrderedMap

end FacetedSearch
