import FacetedSearch.Proofs.Params
import Mathlib.Data.List.DropRight

/-!
# Parameters over whole runs

Values may be set and clauses appended under any names and in any order. What stands under a name
in the end is a log of its own: the value that was set last, or the one it began with, and then the
clauses that were appended since. Work under other names leaves no trace in it, and the names stand
in the order in which they were first mentioned.
-/

namespace FacetedSearch.Params

open OrderedMap

/-- One change of the parameters. -/
inductive Change where
  | set (key : String) (value : Json.Value)
  | append (family clause : String)

namespace Change

/-- The name under which something is changed. -/
def key : Change → String
  | .set key _ => key
  | .append family _ => family

def apply : Change → Params → Params
  | .set key value, p => p.insert key value
  | .append family clause, p => p.append family clause

/-- The value that a change sets a name to. -/
def setTo? (key : String) : Change → Option Json.Value
  | .set key' value => if key' = key then some value else none
  | .append _ _ => none

/-- The clause that a change appends to a family. -/
def appendedTo? (family : String) : Change → Option String
  | .set _ _ => none
  | .append family' clause => if family' = family then some clause else none

end Change

/-- The parameters after a run of changes. -/
def after (p : Params) (cs : List Change) : Params :=
  cs.foldl (fun p c => c.apply p) p

/-- The value that a name was set to last in a run. -/
def lastSet? (key : String) (cs : List Change) : Option Json.Value :=
  (cs.filterMap (Change.setTo? key)).getLast?

/-- The clauses appended to a family in a run, or in what follows its last setting. -/
def appendedSince (family : String) (cs : List Change) : List String :=
  (cs.rtakeWhile fun c => (c.setTo? family).isNone).filterMap (Change.appendedTo? family)

/-- What the array of a family begins with if `base` stood there before. -/
def elements : Option Json.Value → List Json.Value
  | none => []
  | some (.array items) => items
  | some v => [v]

/-- The texts among what stands under a name. -/
def texts : Option Json.Value → List String
  | some (.array items) => items.filterMap Json.Value.string?
  | some (.string s) => [s]
  | _ => []

/-- What stands under a name after clauses were appended to `base`. -/
def logged (base : Option Json.Value) : List String → Option Json.Value
  | [] => base
  | clauses => some (.array (elements base ++ clauses.map .string))

theorem clauses_eq_texts (p : Params) (family : String) :
    p.clauses family = texts (p.get? family) := rfl

/-- Appending writes the array that goes on with the clause. -/
theorem append_eq_insert (p : Params) (family clause : String) :
    p.append family clause =
      p.insert family (.array (elements (p.get? family) ++ [.string clause])) := by
  unfold append
  cases p.get? family with
  | none => rfl
  | some v => cases v <;> rfl

theorem texts_logged (base : Option Json.Value) (clauses : List String) :
    texts (logged base clauses) = texts base ++ clauses := by
  have helements : (elements base).filterMap Json.Value.string? = texts base := by
    cases base with
    | none => rfl
    | some v => cases v <;> rfl
  cases clauses with
  | nil => rw [logged, List.append_nil]
  | cons clause clauses =>
      have hclauses : ((clause :: clauses).map Json.Value.string).filterMap Json.Value.string? =
          clause :: clauses := by
        rw [List.filterMap_map]
        exact List.filterMap_some
      change (elements base ++ (clause :: clauses).map Json.Value.string).filterMap
        Json.Value.string? = texts base ++ clause :: clauses
      rw [List.filterMap_append, helements, hclauses]

/-- A clause after the others of a log. -/
theorem logged_concat (base : Option Json.Value) (clauses : List String) (clause : String) :
    logged base (clauses ++ [clause]) =
      some (.array (elements (logged base clauses) ++ [.string clause])) := by
  cases clauses with
  | nil => rfl
  | cons first clauses =>
      simp only [logged, List.cons_append, elements, List.map_cons, List.map_append, List.map_nil,
        List.append_assoc]

theorem after_concat (p : Params) (cs : List Change) (c : Change) :
    p.after (cs ++ [c]) = c.apply (p.after cs) := List.foldl_concat ..

/-- Every change writes one entry. -/
theorem exists_apply_eq_insert (c : Change) (p : Params) : ∃ v, c.apply p = p.insert c.key v := by
  cases c with
  | set key value => exact ⟨value, rfl⟩
  | append family clause => exact ⟨_, append_eq_insert p family clause⟩

theorem exists_after_eq_foldl_insert (cs : List Change) (p : Params) :
    ∃ es : List (String × Json.Value), es.map Prod.fst = cs.map Change.key ∧
      p.after cs = es.foldl (fun m e => m.insert e.1 e.2) p := by
  induction cs generalizing p with
  | nil => exact ⟨[], rfl, rfl⟩
  | cons c cs ih =>
      obtain ⟨v, hv⟩ := exists_apply_eq_insert c p
      obtain ⟨es, hkeys, hes⟩ := ih (c.apply p)
      refine ⟨(c.key, v) :: es, congrArg (c.key :: ·) hkeys, ?_⟩
      rw [List.foldl_cons, ← hv]
      exact hes

theorem get?_apply_of_ne {c : Change} {key : String} (h : c.key ≠ key) (p : Params) :
    (c.apply p).get? key = p.get? key := by
  obtain ⟨v, hv⟩ := exists_apply_eq_insert c p
  rw [hv, get?_insert, if_neg (Ne.symm h)]

/-- What a change makes of an entry depends on that entry alone. -/
theorem get?_apply_congr {c : Change} {p q : Params} (h : p.get? c.key = q.get? c.key) :
    (c.apply p).get? c.key = (c.apply q).get? c.key := by
  cases c with
  | set key value => simp only [Change.apply, Change.key, get?_insert, if_true]
  | append family clause =>
      simp only [Change.key] at h
      simp only [Change.apply, Change.key, append_eq_insert, get?_insert, h]

/-- Changes under other names can be left out. -/
theorem get?_after_filter (p : Params) (cs : List Change) (key : String) :
    (p.after (cs.filter fun c => decide (c.key = key))).get? key = (p.after cs).get? key := by
  induction cs using List.reverseRecOn with
  | nil => rfl
  | append_singleton cs c ih =>
      rw [List.filter_append, after_concat]
      by_cases hkey : c.key = key
      · subst hkey
        rw [List.filter_cons_of_pos (by simp), List.filter_nil, after_concat]
        exact get?_apply_congr ih
      · rw [List.filter_cons_of_neg (by simpa using hkey), List.filter_nil, List.append_nil, ih,
          get?_apply_of_ne hkey]

theorem setTo?_of_ne {c : Change} {key : String} (h : c.key ≠ key) : c.setTo? key = none := by
  cases c with
  | set key' value => exact if_neg h
  | append family clause => rfl

theorem appendedTo?_of_ne {c : Change} {key : String} (h : c.key ≠ key) :
    c.appendedTo? key = none := by
  cases c with
  | set key' value => rfl
  | append family clause => exact if_neg h

theorem lastSet?_concat (key : String) (cs : List Change) (c : Change) :
    lastSet? key (cs ++ [c]) = (c.setTo? key).or (lastSet? key cs) := by
  unfold lastSet?
  cases h : c.setTo? key <;> simp [List.filterMap_append, h]

theorem appendedSince_concat (family : String) (cs : List Change) (c : Change) :
    appendedSince family (cs ++ [c]) =
      if (c.setTo? family).isNone then
        appendedSince family cs ++ (c.appendedTo? family).toList
      else [] := by
  unfold appendedSince
  rw [List.rtakeWhile_concat]
  split_ifs with h
  · cases hclause : c.appendedTo? family <;> simp [List.filterMap_append, hclause]
  · rfl

/-- What stands under a name is its log. -/
theorem get?_after (p : Params) (cs : List Change) (key : String) :
    (p.after cs).get? key =
      logged ((lastSet? key cs).or (p.get? key)) (appendedSince key cs) := by
  induction cs using List.reverseRecOn with
  | nil => rfl
  | append_singleton cs c ih =>
      rw [after_concat, lastSet?_concat, appendedSince_concat]
      by_cases hkey : c.key = key
      · subst hkey
        cases c with
        | set key value => simp [Change.apply, Change.setTo?, Change.key, logged]
        | append family clause =>
            simp only [Change.key] at ih
            simp only [Change.apply, Change.setTo?, Change.appendedTo?, Change.key,
              append_eq_insert, get?_insert, if_true, Option.isNone_none, Option.toList_some,
              Option.none_or, logged_concat, ih]
      · rw [get?_apply_of_ne hkey, ih, setTo?_of_ne hkey, appendedTo?_of_ne hkey]
        simp

/-- Parameters are an ordered log over every run of changes. Names stand in the order in which they
were first mentioned, those of the beginning first; an entry does not depend on changes under other
names; its clauses are the texts of the value it was set to last, or began with, and then those
appended since; and no value is lost when a clause is appended to it. -/
theorem after_is_log (p : Params) (cs : List Change) :
    (p.after cs).keys =
        p.keys ++ ((cs.map Change.key).filter fun key => decide (key ∉ p.keys)).eraseDups ∧
      (p.after cs).keys.Nodup ∧
      ∀ key : String,
        (p.after cs).get? key =
            (p.after (cs.filter fun c => decide (c.key = key))).get? key ∧
        (p.after cs).clauses key =
            texts ((lastSet? key cs).or (p.get? key)) ++ appendedSince key cs ∧
        (p.after cs).get? key =
            logged ((lastSet? key cs).or (p.get? key)) (appendedSince key cs) ∧
        ∀ clause v, (p.after cs).get? key = some v → (∀ items, v ≠ .array items) →
          ((p.after cs).append key clause).get? key = some (.array [v, .string clause]) := by
  refine ⟨?_, (p.after cs).nodup_keys, fun key => ⟨?_, ?_, ?_, ?_⟩⟩
  · obtain ⟨es, hkeys, hes⟩ := exists_after_eq_foldl_insert cs p
    rw [hes, keys_foldl_insert, hkeys]
  · exact (get?_after_filter p cs key).symm
  · rw [clauses_eq_texts, get?_after, texts_logged]
  · exact get?_after p cs key
  · intro clause v hv harray
    have helements : elements (some v) = [v] := by
      cases v with
      | array items => exact absurd rfl (harray items)
      | _ => rfl
    rw [append_eq_insert, get?_insert, if_pos rfl, hv, helements]
    rfl

/-- A number that is appended to stays the first element, and the entry keeps its place. -/
example :
    let p : Params := ofList [("a", .ofNat 7), ("b", .null)]
    let cs : List Change := [.append "a" "x", .set "c" (.string "y"), .append "c" "z"]
    (p.after cs).keys = ["a", "b", "c"] ∧ (p.after cs).clauses "a" = ["x"] ∧
      (p.after cs).clauses "c" = ["y", "z"] := by
  decide

end FacetedSearch.Params
