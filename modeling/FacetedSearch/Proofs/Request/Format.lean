import FacetedSearch.EngineResult.Json
import FacetedSearch.Proofs.Json.Members
import FacetedSearch.Request.Json

/-!
# The format of requests, filters and engine results

For each kind of object the fields that its members hold, with what stands in them and what they
are if they are left out. From that follows how one tree can be spelled in several ways: the
members of such an object may be ordered anew, others may be added, and a default may be written.
-/

namespace FacetedSearch

open Json

/-- The kinds of objects whose members are found by their names. -/
inductive Node where
  | dimension
  | aggregation
  | request
  | result
  | filter
  | query
deriving DecidableEq

/-- What stands at a place of a document. -/
inductive Form where
  /-- Nothing with a kind of its own. -/
  | plain
  | list (item : Form)
  /-- An object whose members are entries, in their order. -/
  | map (entry : Form)
  | node (n : Node)

structure Field where
  name : String
  form : Form := .plain
  /-- What it says if it is left out. -/
  default? : Option Tree := none

/-- The variant that the tag of an object names, by its name or its place. -/
def variantOf? (tag : String) (variants : List String) (ms : List (Name × Tree)) : Option ℕ :=
  match valuesUnder tag ms with
  | [t] => variant? true variants t
  | _ => none

/-- The fields of a variant of filters, the tag apart. -/
def FilterNode.fields : ℕ → List Field
  | 0 => [{ name := "field" }, { name := "value" }]
  | 1 =>
    [{ name := "field" }, { name := "from", default? := some .null },
      { name := "to", default? := some .null },
      { name := "fromInclusive", default? := some (.bool true) },
      { name := "toInclusive", default? := some (.bool true) }]
  | _ => [{ name := "field" }, { name := "values" }]

/-- The fields of a variant of query nodes, the tag apart. -/
def QueryNode.fields : ℕ → List Field
  | 0 =>
    [{ name := "must", form := .map (.node .query), default? := some (.object []) },
      { name := "should", form := .map (.node .query), default? := some (.object []) },
      { name := "mustNot", form := .map (.node .query), default? := some (.object []) }]
  | 1 => [{ name := "field" }, { name := "text" }]
  | _ => [{ name := "filter", form := .node .filter }]

/-- The fields of a kind of object. Those of a tagged node are its tag and what its variant has,
so they depend on the members. -/
def Node.fields : Node → List (Name × Tree) → List Field
  | .dimension, _ => [{ name := "name" }, { name := "value" }]
  | .aggregation, _ =>
    [{ name := "name" }, { name := "field" }, { name := "kind" },
      { name := "include", default? := some (.array []) }]
  | .request, _ =>
    [{ name := "name", default? := some (.string (some "")) }, { name := "index" },
      { name := "dimensions", form := .list (.node .dimension), default? := some (.array []) },
      { name := "query", form := .node .query },
      { name := "aggregations", form := .list (.node .aggregation),
        default? := some (.array []) },
      { name := "from", default? := some (.number (some (.whole 0))) },
      { name := "size", default? := some (.number (some (.whole 20))) }]
  | .result, _ =>
    [{ name := "hits", default? := some (.array []) },
      { name := "nbHits", default? := some (.number (some (.whole 0))) },
      { name := "nbPages", default? := some .null },
      { name := "hitsPerPage", default? := some .null },
      { name := "page", default? := some .null },
      { name := "facets", default? := some (.object []) }]
  | .filter, ms =>
    { name := "type" } :: (variantOf? "type" FilterNode.variants ms).elim [] FilterNode.fields
  | .query, ms =>
    { name := "kind" } :: (variantOf? "kind" QueryNode.variants ms).elim [] QueryNode.fields

/-- One difference in how a tree is spelled, where `room` arrays and objects may be open: the
members of an object stand in another order, one with an unknown name is added, or one that says
the default where none did; and such a difference inside. -/
inductive Respelling : Form → ℕ → Tree → Tree → Prop
  | order {n : Node} {room : ℕ} {ms ms' : List (Name × Tree)} (h : ms.Perm ms') :
      Respelling (.node n) room (.object ms) (.object ms')
  | unknown {n : Node} {room : ℕ} {ms : List (Name × Tree)} (name : Name) {s : String} {t : Tree}
      (hname : name.text? = some s) (hunknown : ∀ field ∈ n.fields ms, field.name ≠ s)
      (ht : t.readable (room - 1) = true) :
      Respelling (.node n) room (.object ms) (.object ((name, t) :: ms))
  | written {n : Node} {room : ℕ} {ms : List (Name × Tree)} (name : Name) {t : Tree}
      {field : Field} (hfield : field ∈ n.fields ms) (hdefault : field.default? = some t)
      (hname : name.text? = some field.name)
      (habsent : ∀ m ∈ ms, m.1.text? ≠ some field.name) :
      Respelling (.node n) room (.object ms) (.object ((name, t) :: ms))
  | member {n : Node} {room : ℕ} (before after : List (Name × Tree)) {name : Name} {t t' : Tree}
      {field : Field} (hfield : field ∈ n.fields (before ++ (name, t) :: after))
      (hname : name.text? = some field.name) (h : Respelling field.form (room - 1) t t') :
      Respelling (.node n) room (.object (before ++ (name, t) :: after))
        (.object (before ++ (name, t') :: after))
  | item {item : Form} {room : ℕ} (before after : List Tree) {t t' : Tree}
      (h : Respelling item (room - 1) t t') :
      Respelling (.list item) room (.array (before ++ t :: after)) (.array (before ++ t' :: after))
  | entry {entry : Form} {room : ℕ} (before after : List (Name × Tree)) {name : Name}
      {t t' : Tree} (h : Respelling entry (room - 1) t t') :
      Respelling (.map entry) room (.object (before ++ (name, t) :: after))
        (.object (before ++ (name, t') :: after))

/-! ## Fields -/

/-- The names of the fields are different ones. -/
theorem Node.nodup_fields (n : Node) (ms : List (Name × Tree)) :
    ((n.fields ms).map Field.name).Nodup := by
  cases n with
  | dimension => simp [fields]
  | aggregation => simp [fields]
  | request => simp [fields]
  | result => simp [fields]
  | filter =>
      rw [fields]
      rcases variantOf? "type" FilterNode.variants ms with _ | _ | _ | i
      all_goals simp [FilterNode.fields]
  | query =>
      rw [fields]
      rcases variantOf? "kind" QueryNode.variants ms with _ | _ | _ | i
      all_goals simp [QueryNode.fields]

/-! ## Room -/

/-- Where an object of the kind opens, the arrays and objects that its defaults are open too.
Nodes of a query lie two levels apart, the clauses between them. -/
def Node.Fits : Node → ℕ → Prop
  | .dimension, _ => True
  | .aggregation, room => room ≠ 1
  | .request, room => room % 2 = 1 ∧ 5 ≤ room
  | .result, room => room ≠ 1
  | .filter, _ => True
  | .query, room => room % 2 = 0

def Form.Fits : Form → ℕ → Prop
  | .plain, _ => True
  | .list item, room => item.Fits (room - 1)
  | .map entry, room => entry.Fits (room - 1)
  | .node n, room => n.Fits room

/-- Where an object opens whose defaults are lists or maps, one of these can open too. -/
theorem Node.Fits.one_lt {n : Node} {room : ℕ} (h : n.Fits room) (hn : n ≠ .dimension ∧ n ≠ .filter)
    (hroom : 0 < room) : 0 < room - 1 := by
  cases n with
  | dimension => exact absurd rfl hn.1
  | filter => exact absurd rfl hn.2
  | _ => rw [Node.Fits] at h; omega

/-- There is room for what stands in a field and for its default. -/
theorem Node.Fits.field {n : Node} {room : ℕ} (h : n.Fits room) {ms : List (Name × Tree)}
    {field : Field} (hfield : field ∈ n.fields ms) :
    field.form.Fits (room - 1) ∧
      ∀ t, field.default? = some t → 0 < room → t.readable (room - 1) = true := by
  revert field
  cases n with
  | dimension => simp [Node.fields, Form.Fits]
  | aggregation =>
      rw [Node.Fits] at h
      simp [Node.fields, Form.Fits, Tree.readable, Tree.readableItems]
      omega
  | request =>
      rw [Node.Fits] at h
      simp [Node.fields, Form.Fits, Node.Fits, Tree.readable, Tree.readableItems]
      omega
  | result =>
      rw [Node.Fits] at h
      simp [Node.fields, Form.Fits, Tree.readable, Tree.readableItems, Tree.readableMembers]
      omega
  | filter =>
      rw [Node.fields]
      rcases variantOf? "type" FilterNode.variants ms with _ | _ | _ | i
      all_goals simp [FilterNode.fields, Form.Fits, Tree.readable]
  | query =>
      rw [Node.Fits] at h
      rw [Node.fields]
      rcases variantOf? "kind" QueryNode.variants ms with _ | _ | _ | i
      all_goals simp [QueryNode.fields, Form.Fits, Node.Fits, Tree.readable, Tree.readableMembers]
      omega

/-- A tree can be read in full under all its spellings or under none. -/
theorem Respelling.readable_eq {f : Form} {room : ℕ} {t t' : Tree} (h : Respelling f room t t')
    (hfits : f.Fits room) : t.readable room = t'.readable room := by
  induction h with
  | order h =>
      rw [Tree.readable, Tree.readable, Tree.readableMembers_eq_all, Tree.readableMembers_eq_all,
        h.all_eq]
  | unknown name hname hunknown ht =>
      rw [Tree.readable, Tree.readable, Tree.readableMembers, hname, ht]
      rfl
  | @written n room ms name t field hfield hdefault hname habsent =>
      rw [Tree.readable, Tree.readable, Tree.readableMembers, hname]
      by_cases hroom : 0 < room
      · rw [(Node.Fits.field hfits hfield).2 t hdefault hroom]
        rfl
      · simp [hroom]
  | member before after hfield hname h ih =>
      rw [Tree.readable, Tree.readable, Tree.readableMembers_eq_all, Tree.readableMembers_eq_all]
      simp only [List.all_append, List.all_cons, ih (Node.Fits.field hfits hfield).1]
  | item before after h ih =>
      rw [Tree.readable, Tree.readable, Tree.readableItems_eq_all, Tree.readableItems_eq_all]
      simp only [List.all_append, List.all_cons, ih hfits]
  | entry before after h ih =>
      rw [Tree.readable, Tree.readable, Tree.readableMembers_eq_all, Tree.readableMembers_eq_all]
      simp only [List.all_append, List.all_cons, ih hfits]

end FacetedSearch
