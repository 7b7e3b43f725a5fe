import FacetedSearch.Proofs.Json.RoundTrip
import FacetedSearch.Proofs.Request.Format

/-!
# One request in several spellings

What is read from a request, from filters or from an engine result is the same under all
spellings. A single difference keeps what any decoder of the format finds: by induction on where
the difference is, down to the object whose members differ, and there name by name.
-/

namespace FacetedSearch

open Json

/-- The decoders of a form. Tagged nodes have one for nodes that were read in full already. -/
inductive IsDecoder : Form → {α : Type} → Decoder α → Prop
  | plain {α : Type} (d : Decoder α) : IsDecoder .plain d
  | list {f : Form} {α : Type} {d : Decoder α} (h : IsDecoder f d) : IsDecoder (.list f) (.list d)
  | map {f : Form} {α : Type} {d : Decoder α} (h : IsDecoder f d) : IsDecoder (.map f) (.map d)
  | clauses {d : Decoder QueryNode} (h : IsDecoder (.node .query) d) :
      IsDecoder (.map (.node .query)) (clauses d)
  | dimension : IsDecoder (.node .dimension) Dimension.decode
  | aggregation : IsDecoder (.node .aggregation) BucketDefinition.decode
  | request : IsDecoder (.node .request) SearchRequest.decode
  | result : IsDecoder (.node .result) EngineResult.decode
  | filterRead (inner : Bool) : IsDecoder (.node .filter) (FilterNode.decodeRead inner)
  | filter : IsDecoder (.node .filter) FilterNode.decode
  | queryRead (fuel : ℕ) (inner : Bool) : IsDecoder (.node .query) (QueryNode.decodeRead fuel inner)
  | query : IsDecoder (.node .query) QueryNode.decode

/-- No decoder of the form tells the trees apart. -/
def ReadAlike (f : Form) (room : ℕ) (t t' : Tree) : Prop :=
  ∀ ⦃α : Type⦄ ⦃d : Decoder α⦄, IsDecoder f d → d room t = d room t'

theorem ReadAlike.eq_of_plain {room : ℕ} {t t' : Tree} (h : ReadAlike .plain room t t') : t = t' :=
  Option.some.inj (h (.plain fun _ t => some t))

/-- Members that records with the fields do not tell apart. -/
structure Alike (fields : List Field) (room : ℕ) (ms ms' : List (Name × Tree)) : Prop where
  named : AllNamed ms ↔ AllNamed ms'
  values : ∀ field ∈ fields, ValuesAlike (ReadAlike field.form room) field.default?
    (valuesUnder field.name ms) (valuesUnder field.name ms')

/-! ## Members that differ once -/

section Moves

variable {fields : List Field} {room : ℕ} {ms : List (Name × Tree)} {name : Name}

theorem Alike.of_perm {ms' : List (Name × Tree)} (h : ms.Perm ms') : Alike fields room ms ms' where
  named := forall_congr' fun m => by rw [h.mem_iff]
  values _ _ := .of_perm (valuesUnder_perm h)

theorem Alike.of_unknown {s : String} {t : Tree} (hname : name.text? = some s)
    (hunknown : ∀ field ∈ fields, field.name ≠ s) : Alike fields room ms ((name, t) :: ms) := by
  refine ⟨by simp [AllNamed, hname], fun field hfield => ?_⟩
  rw [valuesUnder_cons_of_text? hname (hunknown field hfield)]
  exact .equal _

theorem Alike.of_default (hnodup : (fields.map Field.name).Nodup) {field : Field}
    (hfield : field ∈ fields) {t : Tree} (hdefault : field.default? = some t)
    (hname : name.text? = some field.name) (habsent : ∀ m ∈ ms, m.1.text? ≠ some field.name) :
    Alike fields room ms ((name, t) :: ms) := by
  refine ⟨by simp [AllNamed, hname], fun field' hfield' => ?_⟩
  by_cases hsame : field'.name = field.name
  · obtain rfl := List.inj_on_of_nodup_map hnodup hfield' hfield hsame
    rw [valuesUnder_cons_of_eq hname, valuesUnder_eq_nil_iff.mpr habsent]
    exact .written hdefault
  · rw [valuesUnder_cons_of_text? hname hsame]
    exact .equal _

theorem Alike.of_readAlike (hnodup : (fields.map Field.name).Nodup) {field : Field}
    (hfield : field ∈ fields) (hname : name.text? = some field.name) {t t' : Tree}
    (h : ReadAlike field.form room t t') (before after : List (Name × Tree)) :
    Alike fields room (before ++ (name, t) :: after) (before ++ (name, t') :: after) := by
  refine ⟨by simp only [AllNamed, List.forall_mem_append, List.forall_mem_cons],
    fun field' hfield' => ?_⟩
  rw [valuesUnder_append, valuesUnder_append]
  by_cases hsame : field'.name = field.name
  · obtain rfl := List.inj_on_of_nodup_map hnodup hfield' hfield hsame
    rw [valuesUnder_cons_of_eq hname, valuesUnder_cons_of_eq hname]
    exact .of_same h _ _
  · rw [valuesUnder_cons_of_text? hname hsame, valuesUnder_cons_of_text? hname hsame]
    exact .equal _

end Moves

/-! ## Records and tags -/

namespace Alike

variable {fields : List Field} {room : ℕ} {ms ms' : List (Name × Tree)} {α : Type}

theorem record (h : Alike fields (room - 1) ms ms') {build : ℕ → Fields → Option α}
    (hbuild : 0 < room → (∀ field ∈ fields, (valuesUnder field.name ms).length ≤ 1) →
      build (room - 1) (.named (texts ms)) = build (room - 1) (.named (texts ms'))) :
    Decoder.record (fields.map Field.name) build room (.object ms) =
      Decoder.record (fields.map Field.name) build room (.object ms') := by
  refine Decoder.record_eq_of_alike h.named ?_ fun hroom hone =>
    hbuild hroom (List.forall_mem_map.mp hone)
  exact List.forall_mem_map.mpr fun field hfield => (h.values field hfield).length_le_one_iff

/-- A name without a form of its own has the same single value on both sides, or on neither. -/
theorem single_iff (h : Alike fields room ms ms') {name : String}
    (hfield : { name := name } ∈ fields) (t : Tree) :
    valuesUnder name ms = [t] ↔ valuesUnder name ms' = [t] := by
  have hvalues := h.values _ hfield
  dsimp only at hvalues
  generalize valuesUnder name ms = ts at hvalues
  generalize valuesUnder name ms' = ts' at hvalues
  cases hvalues with
  | equal => rfl
  | read h => rw [h.eq_of_plain]
  | written h => cases h
  | repeated h h' =>
      constructor
      · rintro rfl
        exact absurd h (by simp)
      · rintro rfl
        exact absurd h' (by simp)

theorem others {tag : String} (h : Alike ({ name := tag } :: fields) room ms ms')
    (htag : ∀ field ∈ fields, field.name ≠ tag) :
    Alike fields room (others tag ms) (others tag ms') where
  named := allNamed_others.trans (h.named.trans allNamed_others.symm)
  values field hfield := by
    rw [valuesUnder_others (htag field hfield), valuesUnder_others (htag field hfield)]
    exact h.values field (List.mem_cons_of_mem _ hfield)

/-- A tagged node is the same if the record of its variant is. -/
theorem tagged {tag : String} {variants : List String} {fieldsOf : ℕ → List Field}
    (h : Alike ({ name := tag } :: (variantOf? tag variants ms).elim [] fieldsOf) room ms ms')
    (htag : ∀ i, ∀ field ∈ fieldsOf i, field.name ≠ tag) {build : ℕ × Tree → Option α}
    (hbuild : ∀ i, Alike (fieldsOf i) room (Json.others tag ms) (Json.others tag ms') →
      build (i, .object (Json.others tag ms)) = build (i, .object (Json.others tag ms')))
    (inner : Bool) :
    (tagged? tag variants inner (.object ms)).bind build =
      (tagged? tag variants inner (.object ms')).bind build := by
  have hiff := h.single_iff List.mem_cons_self
  by_cases hsingle : ∃ t, valuesUnder tag ms = [t]
  · obtain ⟨t, ht⟩ := hsingle
    rw [tagged?_of_single ht, tagged?_of_single ((hiff t).mp ht)]
    cases hi : variant? inner variants t with
    | none => rfl
    | some i =>
        have hvariant : variantOf? tag variants ms = some i := by
          rw [variantOf?, ht]
          exact variant?_true hi
        rw [hvariant] at h
        exact hbuild i (h.others (htag i))
  · have hnone : ∀ t, valuesUnder tag ms' ≠ [t] := fun t ht => hsingle ⟨t, (hiff t).mpr ht⟩
    rw [tagged?_eq_none (not_exists.mp hsingle), tagged?_eq_none hnone]

section Fields

variable {d : Decoder α} {name : String} {form : Form} (h : Alike fields room ms ms')
  (hone : ∀ field ∈ fields, (valuesUnder field.name ms).length ≤ 1)

include h hone

theorem required (i : ℕ) (hfield : fields[i]? = some { name := name, form := form })
    (hd : IsDecoder form d) :
    (Fields.named (texts ms)).required d room name =
      (Fields.named (texts ms')).required d room name := by
  have hmem := List.mem_of_getElem? hfield
  exact Fields.required_eq_of_alike (h.values _ hmem) (hone _ hmem) fun _ _ halike => halike hd

theorem withDefault (i : ℕ) {t : Tree}
    (hfield : fields[i]? = some { name := name, form := form, default? := some t })
    (hd : IsDecoder form d) {default : α} (ht : d room t = some default) :
    (Fields.named (texts ms)).withDefault d default room name =
      (Fields.named (texts ms')).withDefault d default room name := by
  have hmem := List.mem_of_getElem? hfield
  exact Fields.withDefault_eq_of_alike (h.values _ hmem) (hone _ hmem)
    (fun _ _ halike => halike hd) ht

end Fields

end Alike

/-! ## The objects of the format -/

section Objects

variable {room : ℕ} {ms ms' : List (Name × Tree)}

theorem clauses_nil (d : Decoder QueryNode) (h : 0 < room) :
    clauses d room (.object []) = some [] := by
  rw [clauses, Decoder.map_nil d h]
  rfl

theorem TermFilter.decode_eq_of_alike (h : Alike (FilterNode.fields 0) (room - 1) ms ms') :
    decode room (.object ms) = decode room (.object ms') := by
  refine h.record fun _ hone => ?_
  rw [h.required hone 0 rfl (.plain .text), h.required hone 1 rfl (.plain .text)]

theorem RangeFilter.decode_eq_of_alike (h : Alike (FilterNode.fields 1) (room - 1) ms ms') :
    decode room (.object ms) = decode room (.object ms') := by
  refine h.record fun _ hone => ?_
  rw [h.required hone 0 rfl (.plain .text),
    h.withDefault hone 1 rfl (.plain (.nullable .double)) rfl,
    h.withDefault hone 2 rfl (.plain (.nullable .double)) rfl,
    h.withDefault hone 3 rfl (.plain .bool) rfl, h.withDefault hone 4 rfl (.plain .bool) rfl]

theorem ValuesFilter.decode_eq_of_alike (h : Alike (FilterNode.fields 2) (room - 1) ms ms') :
    decode room (.object ms) = decode room (.object ms') := by
  refine h.record fun _ hone => ?_
  rw [h.required hone 0 rfl (.plain .text), h.required hone 1 rfl (.plain (.list .text))]

theorem FilterNode.decodeRead_eq_of_alike (h : Alike (Node.filter.fields ms) (room - 1) ms ms')
    (inner : Bool) : decodeRead inner room (.object ms) = decodeRead inner room (.object ms') := by
  refine h.tagged (fun i => ?_) (fun i hvariant => ?_) inner
  · rcases i with _ | _ | i
    all_goals simp [fields]
  · rcases i with _ | _ | i
    · exact congrArg (Option.map FilterNode.term) (TermFilter.decode_eq_of_alike hvariant)
    · exact congrArg (Option.map FilterNode.range) (RangeFilter.decode_eq_of_alike hvariant)
    · exact congrArg (Option.map FilterNode.values) (ValuesFilter.decode_eq_of_alike hvariant)

theorem BoolQuery.decodeWith_eq_of_alike {d : Decoder QueryNode} (hd : IsDecoder (.node .query) d)
    (h : Alike (QueryNode.fields 0) (room - 1) ms ms') (hfits : Node.query.Fits room) :
    decodeWith d room (.object ms) = decodeWith d room (.object ms') := by
  refine h.record fun hpos hone => ?_
  have hnil := clauses_nil d (hfits.one_lt (by decide) hpos)
  rw [h.withDefault hone 0 rfl (.clauses hd) hnil, h.withDefault hone 1 rfl (.clauses hd) hnil,
    h.withDefault hone 2 rfl (.clauses hd) hnil]

theorem MatchQuery.decode_eq_of_alike (h : Alike (QueryNode.fields 1) (room - 1) ms ms') :
    decode room (.object ms) = decode room (.object ms') := by
  refine h.record fun _ hone => ?_
  rw [h.required hone 0 rfl (.plain .text), h.required hone 1 rfl (.plain .text)]

theorem QueryNode.decodeRead_eq_of_alike (h : Alike (Node.query.fields ms) (room - 1) ms ms')
    (hfits : Node.query.Fits room) (fuel : ℕ) (inner : Bool) :
    decodeRead fuel inner room (.object ms) = decodeRead fuel inner room (.object ms') := by
  cases fuel with
  | zero => rfl
  | succ fuel =>
      refine h.tagged (fun i => ?_) (fun i hvariant => ?_) inner
      · rcases i with _ | _ | i
        all_goals simp [fields]
      · rcases i with _ | _ | i
        · exact congrArg (Option.map QueryNode.ofBool)
            (BoolQuery.decodeWith_eq_of_alike (.queryRead fuel true) hvariant hfits)
        · exact congrArg (Option.map QueryNode.matching) (MatchQuery.decode_eq_of_alike hvariant)
        · refine hvariant.record fun _ hone => ?_
          rw [hvariant.required hone 0 rfl (.filterRead true)]

theorem Dimension.decode_eq_of_alike (h : Alike (Node.dimension.fields ms) (room - 1) ms ms') :
    decode room (.object ms) = decode room (.object ms') := by
  refine h.record fun _ hone => ?_
  rw [h.required hone 0 rfl (.plain .text), h.required hone 1 rfl (.plain .text)]

theorem BucketDefinition.decode_eq_of_alike
    (h : Alike (Node.aggregation.fields ms) (room - 1) ms ms')
    (hfits : Node.aggregation.Fits room) : decode room (.object ms) = decode room (.object ms') := by
  refine h.record fun hpos hone => ?_
  have hroom := hfits.one_lt (by decide) hpos
  rw [h.required hone 0 rfl (.plain .text), h.required hone 1 rfl (.plain .text),
    h.required hone 2 rfl (.plain BucketKind.decode),
    h.withDefault hone 3 rfl (.plain (.list .text)) (Decoder.list_nil _ hroom)]

theorem SearchRequest.decode_eq_of_alike (h : Alike (Node.request.fields ms) (room - 1) ms ms')
    (hfits : Node.request.Fits room) : decode room (.object ms) = decode room (.object ms') := by
  refine h.record fun hpos hone => ?_
  have hroom := hfits.one_lt (by decide) hpos
  have hoffset : Decoder.word (room - 1) (.number (some (.whole 0))) = some 0 := rfl
  have hsize : Decoder.word (room - 1) (.number (some (.whole 20))) = some 20 := rfl
  rw [h.withDefault hone 0 rfl (.plain .text) rfl, h.required hone 1 rfl (.plain .text),
    h.withDefault hone 2 rfl (.list .dimension) (Decoder.list_nil _ hroom),
    h.required hone 3 rfl .query,
    h.withDefault hone 4 rfl (.list .aggregation) (Decoder.list_nil _ hroom),
    h.withDefault hone 5 rfl (.plain .word) hoffset, h.withDefault hone 6 rfl (.plain .word) hsize]

theorem EngineResult.decode_eq_of_alike (h : Alike (Node.result.fields ms) (room - 1) ms ms')
    (hfits : Node.result.Fits room) : decode room (.object ms) = decode room (.object ms') := by
  refine h.record fun hpos hone => ?_
  have hroom := hfits.one_lt (by decide) hpos
  have hcount : Decoder.word (room - 1) (.number (some (.whole 0))) = some 0 := rfl
  rw [h.withDefault hone 0 rfl (.plain (.list .value)) (Decoder.list_nil _ hroom),
    h.withDefault hone 1 rfl (.plain .word) hcount,
    h.withDefault hone 2 rfl (.plain (.nullable .word)) rfl,
    h.withDefault hone 3 rfl (.plain (.nullable .word)) rfl,
    h.withDefault hone 4 rfl (.plain (.nullable .word)) rfl,
    h.withDefault hone 5 rfl (.plain FacetCounts.decode) (Decoder.map_nil _ hroom)]

/-- No decoder of a kind of object tells members apart that are found alike. -/
theorem Alike.readAlike {n : Node} (h : Alike (n.fields ms) (room - 1) ms ms') (hfits : n.Fits room)
    (hreadable : (Tree.object ms).readable room = (Tree.object ms').readable room) :
    ReadAlike (.node n) room (.object ms) (.object ms') := by
  intro α d hd
  cases hd with
  | dimension => exact Dimension.decode_eq_of_alike h
  | aggregation => exact BucketDefinition.decode_eq_of_alike h hfits
  | request => exact SearchRequest.decode_eq_of_alike h hfits
  | result => exact EngineResult.decode_eq_of_alike h hfits
  | filterRead inner => exact FilterNode.decodeRead_eq_of_alike h inner
  | filter =>
      rw [FilterNode.decode, hreadable, FilterNode.decodeRead_eq_of_alike h, FilterNode.decode]
  | queryRead fuel inner => exact QueryNode.decodeRead_eq_of_alike h hfits fuel inner
  | query =>
      rw [QueryNode.decode, hreadable, QueryNode.decodeRead_eq_of_alike h hfits, QueryNode.decode]

end Objects

/-! ## Spellings -/

theorem mapM_append_cons_congr {α β : Type} {f : α → Option β} {x y : α} (h : f x = f y)
    (before after : List α) : (before ++ x :: after).mapM f = (before ++ y :: after).mapM f := by
  rw [List.mapM_append, List.mapM_append, List.mapM_cons, List.mapM_cons, h]

/-- No decoder of the format tells two spellings apart that differ once. -/
theorem Respelling.readAlike {f : Form} {room : ℕ} {t t' : Tree} (h : Respelling f room t t')
    (hfits : f.Fits room) : ReadAlike f room t t' := by
  induction h with
  | order h => exact (Alike.of_perm h).readAlike hfits (readable_eq (.order h) hfits)
  | unknown name hname hunknown ht =>
      exact (Alike.of_unknown hname hunknown).readAlike hfits
        (readable_eq (.unknown name hname hunknown ht) hfits)
  | written name hfield hdefault hname habsent =>
      exact (Alike.of_default (Node.nodup_fields _ _) hfield hdefault hname habsent).readAlike hfits
        (readable_eq (.written name hfield hdefault hname habsent) hfits)
  | member before after hfield hname h ih =>
      have halike := Alike.of_readAlike (Node.nodup_fields _ _) hfield hname
        (ih (Node.Fits.field hfits hfield).1) before after
      exact halike.readAlike hfits (readable_eq (.member before after hfield hname h) hfits)
  | @item item room before after t t' h ih =>
      intro α d hd
      cases hd with
      | list hd =>
          cases room with
          | zero => rfl
          | succ room => exact mapM_append_cons_congr (ih hfits hd) before after
  | @entry entry room before after name t t' h ih =>
      have hentries : ∀ {α : Type} {d : Decoder α}, IsDecoder entry d →
          Decoder.map d room (.object (before ++ (name, t) :: after)) =
            Decoder.map d room (.object (before ++ (name, t') :: after)) := by
        intro α d hd
        cases room with
        | zero => rfl
        | succ room =>
            have hread : d room t = d room t' := ih hfits hd
            refine congrArg (Option.map OrderedMap.ofList) (mapM_append_cons_congr ?_ before after)
            rw [hread]
      intro α d hd
      cases hd with
      | map hd => exact hentries hd
      | clauses hd => exact congrArg (Option.map OrderedMap.entries) (hentries hd)

/-- Trees of a form that differ in their spelling alone. -/
def Respelled (f : Form) : Tree → Tree → Prop :=
  Relation.EqvGen (Respelling f nestingLimit)

theorem Respelled.read_eq {f : Form} {t t' : Tree} (h : Respelled f t t')
    (hfits : f.Fits nestingLimit) {α : Type} {d : Decoder α} (hd : IsDecoder f d) :
    d nestingLimit t = d nestingLimit t' := by
  induction h with
  | rel _ _ h => exact h.readAlike hfits hd
  | refl _ => rfl
  | symm _ _ _ ih => exact ih.symm
  | trans _ _ _ _ _ ih ih' => exact ih.trans ih'

/-- The keys are the names of the members of an object, in the order in which each is first
written. -/
def InOrder (t : Tree) (keys : List String) : Prop :=
  ∃ (ms : List (Name × Tree)) (names : List String), t = .object ms ∧
    ms.map (fun m => m.1.text?) = names.map some ∧ keys = names.eraseDups

theorem text?_of_entries {α : Type} {d : Tree → Option α} {ms : List (Name × Tree)}
    {es : List (String × α)}
    (h : (ms.mapM fun m => do return ((← m.1.text?), (← d m.2))) = some es) :
    ms.map (fun m => m.1.text?) = (es.map Prod.fst).map some := by
  induction ms generalizing es with
  | nil =>
      obtain rfl := Option.some.inj h
      rfl
  | cons m ms ih =>
      rw [List.mapM_cons] at h
      obtain ⟨e, he, h⟩ := Option.bind_eq_some_iff.mp h
      obtain ⟨es', hes', h⟩ := Option.bind_eq_some_iff.mp h
      obtain rfl := Option.some.inj h
      obtain ⟨s, hs, he⟩ := Option.bind_eq_some_iff.mp he
      obtain ⟨x, -, he⟩ := Option.bind_eq_some_iff.mp he
      obtain rfl := Option.some.inj he
      rw [List.map_cons, hs, ih hes']
      rfl

theorem inOrder_of_map {α : Type} {d : Decoder α} {room : ℕ} {t : Tree} {m : OrderedMap String α}
    (h : Decoder.map d room t = some m) : InOrder t m.keys := by
  obtain ⟨es, hes, rfl⟩ := Option.map_eq_some_iff.mp h
  unfold Decoder.entries at hes
  split at hes
  next ms => exact ⟨ms, es.map Prod.fst, rfl, text?_of_entries hes, OrderedMap.keys_ofList es⟩
  next => cases hes

theorem inOrder_of_clauses {d : Decoder QueryNode} {room : ℕ} {t : Tree}
    {cs : List (String × QueryNode)} (h : clauses d room t = some cs) :
    InOrder t (cs.map Prod.fst) := by
  obtain ⟨m, hm, rfl⟩ := Option.map_eq_some_iff.mp h
  exact inOrder_of_map hm

/-- Two spellings of a request, of filters or of an engine result are both refused or are read
as the same, at whatever depth they differ, and every spelling of what is written for a value is
read as that value. The entries of a map and the clauses of a query are no part of the spelling:
they are kept in the order in which they are written. -/
theorem decode_eq_of_respelled :
    ((∀ t t', Respelled (.node .request) t t' →
        SearchRequest.decode nestingLimit t = SearchRequest.decode nestingLimit t') ∧
      (∀ t t', Respelled (.map (.node .filter)) t t' →
        FilterMap.decode nestingLimit t = FilterMap.decode nestingLimit t') ∧
      ∀ t t', Respelled (.node .result) t t' →
        EngineResult.decode nestingLimit t = EngineResult.decode nestingLimit t') ∧
    ((∀ r : SearchRequest, r.WellFormed → r.toValue.depth ≤ nestingLimit →
        ∀ t, Respelled (.node .request) (.ofValue r.toValue) t →
          SearchRequest.decode nestingLimit t = some r) ∧
      (∀ m : FilterMap, (∀ e ∈ m.entries, e.2.IsFinite) → m.toValue.depth ≤ nestingLimit →
        ∀ t, Respelled (.map (.node .filter)) (.ofValue m.toValue) t →
          FilterMap.decode nestingLimit t = some m) ∧
      ∀ r : EngineResult, r.WellFormed → r.toValue.depth ≤ nestingLimit →
        ∀ t, Respelled (.node .result) (.ofValue r.toValue) t →
          EngineResult.decode nestingLimit t = some r) ∧
    (∀ (α : Type) (d : Decoder α) room t m, Decoder.map d room t = some m → InOrder t m.keys) ∧
    ∀ d room t cs, clauses d room t = some cs → InOrder t (cs.map Prod.fst) := by
  have hrequest (t t' : Tree) (h : Respelled (.node .request) t t') :
      SearchRequest.decode nestingLimit t = SearchRequest.decode nestingLimit t' :=
    Respelled.read_eq h ⟨by decide, by decide⟩ .request
  have hfilters (t t' : Tree) (h : Respelled (.map (.node .filter)) t t') :
      FilterMap.decode nestingLimit t = FilterMap.decode nestingLimit t' :=
    Respelled.read_eq h trivial (.map .filter)
  have hresult (t t' : Tree) (h : Respelled (.node .result) t t') :
      EngineResult.decode nestingLimit t = EngineResult.decode nestingLimit t' :=
    Respelled.read_eq h (by decide : nestingLimit ≠ 1) .result
  refine ⟨⟨hrequest, hfilters, hresult⟩, ⟨?_, ?_, ?_⟩, fun α d room t m h => inOrder_of_map h,
    fun d room t cs h => inOrder_of_clauses h⟩
  · intro r hr hdepth t ht
    rw [← hrequest _ _ ht]
    exact (SearchRequest.readsBack hr).decode hdepth
  · intro m hm hdepth t ht
    rw [← hfilters _ _ ht]
    exact (FilterMap.readsBack hm).decode hdepth
  · intro r hr hdepth t ht
    rw [← hresult _ _ ht]
    exact (EngineResult.readsBack hr).decode hdepth

/-- A request without its defaults and with its tags in front, and one that writes some of them,
has a member more in its query and its tags behind other members, down to the filter. -/
theorem decode_eq_of_respelled_of_moved_tags :
    let member := fun (name : String) (t : Tree) => ((⟨some name, true⟩ : Name), t)
    let text := fun (s : String) => Tree.string (some s)
    let t : Tree := .object [member "index" (text "products"), member "query" (.object [
      member "kind" (text "bool"), member "must" (.object [member "price" (.object [
        member "kind" (text "filter"), member "filter" (.object [
          member "type" (text "range"), member "field" (text "price")])])])])]
    let t' : Tree := .object [member "query" (.object [
      member "must" (.object [member "price" (.object [
        member "filter" (.object [member "field" (text "price"), member "type" (text "range"),
          member "toInclusive" (.bool true)]), member "kind" (text "filter")])]),
      member "kind" (text "bool"), member "note" (.array [.null])]),
      member "index" (text "products"), member "size" (.number (some (.whole 20)))]
    let filter : FilterNode := .range { field := "price", lower := none, upper := none }
    let request : SearchRequest := {
      index := "products", query := .bool [("price", .filter filter)] [] [] }
    Respelled (.node .request) t t' ∧ SearchRequest.decode nestingLimit t = some request ∧
      SearchRequest.decode nestingLimit t' = some request := by
  intro member text t t' filter request
  -- the places of the differences
  let clause := fun x => Tree.object [member "kind" (text "filter"), member "filter" x]
  let query := fun c => Tree.object
    [member "kind" (text "bool"), member "must" (.object [member "price" c])]
  let document := fun q => Tree.object [member "index" (text "products"), member "query" q]
  have inQuery {q q'} (h : Respelling (.node .query) 126 q q') :
      Respelled (.node .request) (document q) (document q') :=
    .rel _ _ (.member [_] [] (List.mem_of_getElem? (i := 3) rfl) rfl h)
  have inClause {c c'} (h : Respelling (.node .query) 124 c c') :
      Respelled (.node .request) (document (query c)) (document (query c')) :=
    inQuery (.member [_] [] (List.mem_of_getElem? (i := 1) rfl) rfl (.entry [] [] h))
  have inFilter {x x'} (h : Respelling (.node .filter) 123 x x') :
      Respelled (.node .request) (document (query (clause x))) (document (query (clause x'))) :=
    inClause (.member [_] [] (List.mem_of_getElem? (i := 1) rfl) rfl h)
  have hrespelled : Respelled (.node .request) t t' := by
    refine (inFilter (.written ⟨some "toInclusive", true⟩ (List.mem_of_getElem? (i := 5) rfl) rfl
      rfl (by decide))).trans _ _ _ ?_
    refine (inFilter (.order (List.reverse_perm _).symm)).trans _ _ _ ?_
    refine (inClause (.order (List.reverse_perm _).symm)).trans _ _ _ ?_
    refine (inQuery (.unknown (t := .array [.null]) ⟨some "note", true⟩ rfl (by decide)
      rfl)).trans _ _ _ ?_
    refine (inQuery (.order (List.reverse_perm _).symm)).trans _ _ _ ?_
    refine .trans _ _ _ (.rel _ _ (.written ⟨some "size", true⟩ (List.mem_of_getElem? (i := 6) rfl)
      rfl rfl (by decide))) (.rel _ _ (.order (List.reverse_perm _).symm))
  have hread : SearchRequest.decode nestingLimit t = some request := rfl
  exact ⟨hrespelled, hread, (decode_eq_of_respelled.1.1 t t' hrespelled).symm.trans hread⟩

end FacetedSearch
