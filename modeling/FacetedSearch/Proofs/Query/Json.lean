import FacetedSearch.Proofs.Filter.Json
import FacetedSearch.Query.Json

/-!
# Queries in texts

A query is read back from its own text, however deep its nodes lie in one another. Each node
opens an object of its own, so the nesting of the text bounds the recursion of the reader.
-/

namespace FacetedSearch

open Json

/-- The queries that a request can carry: no clause repeats the name of another one beside it,
and the bounds of all filters are finite. -/
inductive QueryNode.WellFormed : QueryNode → Prop
  | bool {must should mustNot : List (String × QueryNode)}
      (hmust : (must.map Prod.fst).Nodup) (hshould : (should.map Prod.fst).Nodup)
      (hmustNot : (mustNot.map Prod.fst).Nodup) (must_nodes : ∀ c ∈ must, WellFormed c.2)
      (should_nodes : ∀ c ∈ should, WellFormed c.2)
      (mustNot_nodes : ∀ c ∈ mustNot, WellFormed c.2) : WellFormed (.bool must should mustNot)
  | matching (q : MatchQuery) : WellFormed (.matching q)
  | filter {n : FilterNode} (h : n.IsFinite) : WellFormed (.filter n)

theorem clauseMembers_eq_map (cs : List (String × QueryNode)) :
    clauseMembers cs = cs.map fun c => (c.1, c.2.toValue) := by
  induction cs with
  | nil => rfl
  | cons c cs ih => rw [clauseMembers, ih, List.map_cons]

theorem MatchQuery.readsBack (q : MatchQuery) : ReadsBack decode (.object q.members) q := by
  have hfield := ReadsBack.text q.field
  have htext := ReadsBack.text q.text
  refine .record (by change ["field", "text"].Nodup; decide) ?_ fun room hroom => ?_
  · simp [members, hfield.wellFormed, htext.wellFormed]
  · rw [hfield.required hroom rfl, htext.required hroom rfl]
    rfl

theorem readsBack_clauses {d : Decoder QueryNode} {cs : List (String × QueryNode)}
    (hnames : (cs.map Prod.fst).Nodup) (h : ∀ c ∈ cs, ReadsBack d c.2.toValue c.2) :
    ReadsBack (clauses d) (.object (clauseMembers cs)) cs := by
  have hentries := ReadsBack.entries hnames h
  refine ⟨?_, fun hroom => ?_⟩
  · rw [clauseMembers_eq_map]
    exact hentries.wellFormed
  · rw [clauseMembers_eq_map] at hroom ⊢
    rw [clauses, Decoder.map, hentries.decode hroom, Option.map_some, Option.map_some,
      OrderedMap.entries_ofList hnames]

/-- A query is read back if its clauses are. -/
theorem BoolQuery.readsBack_decodeWith {d : Decoder QueryNode} {q : BoolQuery}
    (hmust : ReadsBack (clauses d) (.object (clauseMembers q.must)) q.must)
    (hshould : ReadsBack (clauses d) (.object (clauseMembers q.should)) q.should)
    (hmustNot : ReadsBack (clauses d) (.object (clauseMembers q.mustNot)) q.mustNot) :
    ReadsBack (decodeWith d) q.toValue q := by
  refine .record (by change ["must", "should", "mustNot"].Nodup; decide) ?_ fun room hroom => ?_
  · simp [hmust.wellFormed, hshould.wellFormed, hmustNot.wellFormed]
  · rw [hmust.withDefault hroom rfl, hshould.withDefault hroom rfl, hmustNot.withDefault hroom rfl]
    rfl

theorem depth_clause_lt {key : String} {cs : List (String × QueryNode)}
    {ms : List (String × Value)} (hcs : (key, .object (clauseMembers cs)) ∈ ms)
    {c : String × QueryNode} (h : c ∈ cs) : c.2.toValue.depth < (Value.object ms).depth := by
  have hclause : (c.1, c.2.toValue) ∈ clauseMembers cs := by
    rw [clauseMembers_eq_map]
    exact List.mem_map_of_mem h
  have hinner : c.2.toValue.depth ≤ _ := Value.depth_le_membersDepth hclause
  have houter := Value.depth_le_membersDepth hcs
  rw [Value.depth] at houter ⊢
  omega

/-- A node is read back with fuel for its nesting, also inside another node. -/
theorem QueryNode.readsBack_decodeRead {n : QueryNode} (h : n.WellFormed) {fuel : ℕ}
    (hfuel : n.toValue.depth ≤ fuel) (inner : Bool) :
    ReadsBack (decodeRead fuel inner) n.toValue n := by
  induction fuel generalizing n inner with
  | zero => cases h <;> simp [toValue, Value.depth] at hfuel
  | succ fuel ih =>
      cases h with
      | @bool must should mustNot hmust hshould hmustNot must_nodes should_nodes mustNot_nodes =>
          rw [toValue] at hfuel ⊢
          have hnodes (key : String) (cs : List (String × QueryNode))
              (hcs : (key, .object (clauseMembers cs)) ∈ [("kind", Value.string "bool"),
                ("must", .object (clauseMembers must)), ("should", .object (clauseMembers should)),
                ("mustNot", .object (clauseMembers mustNot))])
              (hnodes : ∀ c ∈ cs, WellFormed c.2) :
              ∀ c ∈ cs, ReadsBack (decodeRead fuel true) c.2.toValue c.2 := fun c hc =>
            ih (hnodes c hc)
              (Nat.le_of_lt_succ ((depth_clause_lt hcs hc).trans_le hfuel)) true
          have hquery := BoolQuery.readsBack_decodeWith (q := ⟨must, should, mustNot⟩)
            (readsBack_clauses hmust (hnodes "must" must (by simp) must_nodes))
            (readsBack_clauses hshould (hnodes "should" should (by simp) should_nodes))
            (readsBack_clauses hmustNot (hnodes "mustNot" mustNot (by simp) mustNot_nodes))
          have htag : "kind" ∉ ["must", "should", "mustNot"] := by decide
          refine (hquery.map_some (f := ofBool)).tagged htag fun room => ?_
          rw [decodeRead, tagged?_ofValue htag rfl]
          rfl
      | matching q =>
          have htag : "kind" ∉ q.members.map Prod.fst := by
            change "kind" ∉ ["field", "text"]
            decide
          refine (q.readsBack.map_some (f := matching)).tagged htag fun room => ?_
          rw [decodeRead, tagged?_ofValue htag rfl]
          rfl
      | @filter n hn =>
          have hfilter := FilterNode.readsBack_decodeRead hn true
          have hnode : ReadsBack (.record ["filter"] fun room f =>
              (f.required (FilterNode.decodeRead true) room "filter").map filter)
              (.object [("filter", n.toValue)]) (filter n) := by
            refine .record (by change ["filter"].Nodup; decide) ?_ fun room hroom => ?_
            · simp [hfilter.wellFormed]
            · rw [hfilter.required hroom rfl, Option.map_some]
          have htag : "kind" ∉ ["filter"] := by decide
          refine hnode.tagged htag fun room => ?_
          rw [decodeRead, tagged?_ofValue htag rfl]
          rfl

theorem QueryNode.readsBack {n : QueryNode} (h : n.WellFormed) :
    ReadsBack decode n.toValue n := by
  refine ⟨(readsBack_decodeRead h le_rfl false).wellFormed, fun hroom => ?_⟩
  have hread := readsBack_decodeRead h hroom false
  exact hread.readInFull.decode hroom

end FacetedSearch
