import FacetedSearch.Filter.Json
import FacetedSearch.Proofs.Json.Decoder

/-!
# Filters in texts

A filter is read back from its own text, by the type that the text names, if its bounds are
finite.
-/

namespace FacetedSearch

open Json

/-- The bounds that a range has are numbers. -/
def RangeFilter.IsFinite (f : RangeFilter) : Prop :=
  (∀ x ∈ f.lower, x.isFinite = true) ∧ ∀ x ∈ f.upper, x.isFinite = true

def FilterNode.IsFinite : FilterNode → Prop
  | .range f => f.IsFinite
  | _ => True

instance : DecidablePred RangeFilter.IsFinite := fun f =>
  inferInstanceAs
    (Decidable ((∀ x ∈ f.lower, x.isFinite = true) ∧ ∀ x ∈ f.upper, x.isFinite = true))

instance : DecidablePred FilterNode.IsFinite
  | .range f => inferInstanceAs (Decidable f.IsFinite)
  | .term _ | .values _ => isTrue trivial

theorem readsBack_boundValue {b : Option Float} (h : ∀ x ∈ b, x.isFinite = true) :
    ReadsBack (.nullable .double) (boundValue b) b := by
  cases b with
  | none => exact .null .double
  | some x => exact .nullable (.double (h x rfl)) (by nofun)

theorem readsBack_ofStrings (ss : List String) :
    ReadsBack (.list .text) (.ofStrings ss) ss :=
  .list fun s _ => .text s

theorem TermFilter.readsBack (f : TermFilter) : ReadsBack decode (.object f.members) f := by
  have hfield := ReadsBack.text f.field
  have hvalue := ReadsBack.text f.value
  refine .record (by change ["field", "value"].Nodup; decide) ?_ fun room hroom => ?_
  · simp [members, hfield.wellFormed, hvalue.wellFormed]
  · rw [hfield.required hroom rfl, hvalue.required hroom rfl]
    rfl

theorem RangeFilter.readsBack {f : RangeFilter} (h : f.IsFinite) :
    ReadsBack decode (.object f.members) f := by
  have hfield := ReadsBack.text f.field
  have hlower := readsBack_boundValue h.1
  have hupper := readsBack_boundValue h.2
  have hlowerInclusive := ReadsBack.bool f.lowerInclusive
  have hupperInclusive := ReadsBack.bool f.upperInclusive
  refine .record (by change ["field", "from", "to", "fromInclusive", "toInclusive"].Nodup; decide)
    ?_ fun room hroom => ?_
  · simp [members, hfield.wellFormed, hlower.wellFormed, hupper.wellFormed,
      hlowerInclusive.wellFormed, hupperInclusive.wellFormed]
  · rw [hfield.required hroom rfl, hlower.withDefault hroom rfl, hupper.withDefault hroom rfl,
      hlowerInclusive.withDefault hroom rfl, hupperInclusive.withDefault hroom rfl]
    rfl

theorem ValuesFilter.readsBack (f : ValuesFilter) : ReadsBack decode (.object f.members) f := by
  have hfield := ReadsBack.text f.field
  have hvalues := readsBack_ofStrings f.values
  refine .record (by change ["field", "values"].Nodup; decide) ?_ fun room hroom => ?_
  · simp [members, hfield.wellFormed, hvalues.wellFormed]
  · rw [hfield.required hroom rfl, hvalues.required hroom rfl]
    rfl

/-- A filter is read by its type, also inside another tagged node. -/
theorem FilterNode.readsBack_decodeRead {n : FilterNode} (h : n.IsFinite) (inner : Bool) :
    ReadsBack (decodeRead inner) n.toValue n := by
  cases n with
  | term f =>
      have htag : "type" ∉ f.members.map Prod.fst := by
        change "type" ∉ ["field", "value"]
        decide
      refine f.readsBack.map_some.tagged htag fun room => ?_
      rw [decodeRead, tagged?_ofValue htag rfl]
      rfl
  | range f =>
      have htag : "type" ∉ f.members.map Prod.fst := by
        change "type" ∉ ["field", "from", "to", "fromInclusive", "toInclusive"]
        decide
      refine (RangeFilter.readsBack h).map_some.tagged htag fun room => ?_
      rw [decodeRead, tagged?_ofValue htag rfl]
      rfl
  | values f =>
      have htag : "type" ∉ f.members.map Prod.fst := by
        change "type" ∉ ["field", "values"]
        decide
      refine f.readsBack.map_some.tagged htag fun room => ?_
      rw [decodeRead, tagged?_ofValue htag rfl]
      rfl

theorem FilterNode.readsBack {n : FilterNode} (h : n.IsFinite) :
    ReadsBack decode n.toValue n :=
  (readsBack_decodeRead h false).readInFull

theorem FilterMap.readsBack {m : FilterMap} (h : ∀ e ∈ m.entries, e.2.IsFinite) :
    ReadsBack decode m.toValue m :=
  .map fun e he => FilterNode.readsBack (h e he)

end FacetedSearch
