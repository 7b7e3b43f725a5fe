import FacetedSearch.Json.Decoder
import FacetedSearch.Proofs.Json.Parser
import FacetedSearch.Proofs.OrderedMap

/-!
# Reading typed data back

`ReadsBack d v x` says that the decoder `d` finds `x` in the text of the value `v`, given room
for its arrays and objects. It holds of the single decoders and is passed on by lists, maps,
records and tagged nodes, so that it holds of a document by the shape of its decoder.
-/

namespace FacetedSearch.Json

namespace Value

mutual

/-- How many arrays and objects the text of a value opens one inside another. -/
def depth : Value → ℕ
  | .array items => itemsDepth items + 1
  | .object members => membersDepth members + 1
  | _ => 0

def itemsDepth : List Value → ℕ
  | [] => 0
  | v :: vs => max v.depth (itemsDepth vs)

def membersDepth : List (String × Value) → ℕ
  | [] => 0
  | (_, v) :: ms => max v.depth (membersDepth ms)

end

theorem depth_le_itemsDepth {v : Value} {items : List Value} (h : v ∈ items) :
    v.depth ≤ itemsDepth items := by
  induction items with
  | nil => cases h
  | cons u us ih =>
      rw [itemsDepth]
      rcases List.mem_cons.mp h with rfl | h
      · exact Nat.le_max_left ..
      · exact (ih h).trans (Nat.le_max_right ..)

theorem depth_le_membersDepth {m : String × Value} {members : List (String × Value)}
    (h : m ∈ members) : m.2.depth ≤ membersDepth members := by
  induction members with
  | nil => cases h
  | cons m' ms ih =>
      rw [membersDepth]
      rcases List.mem_cons.mp h with rfl | h
      · exact Nat.le_max_left ..
      · exact (ih h).trans (Nat.le_max_right ..)

theorem membersDepth_le {ms : List (String × Value)} {n : ℕ} (h : ∀ m ∈ ms, m.2.depth ≤ n) :
    membersDepth ms ≤ n := by
  induction ms with
  | nil => exact Nat.zero_le n
  | cons m ms ih =>
      rw [membersDepth]
      have hrest := ih fun m' hm => h m' (List.mem_cons_of_mem m hm)
      exact Nat.max_le.mpr ⟨h m List.mem_cons_self, hrest⟩

end Value

namespace Tree

theorem ofItems_eq_map (vs : List Value) : ofItems vs = vs.map ofValue := by
  induction vs with
  | nil => rfl
  | cons v vs ih => rw [ofItems, ih, List.map_cons]

theorem ofMembers_eq_map (ms : List (String × Value)) :
    ofMembers ms = ms.map fun m => (.ofString m.1, ofValue m.2) := by
  induction ms with
  | nil => rfl
  | cons m ms ih => rw [ofMembers, ih, List.map_cons]

theorem readableItems_ofItems {room : ℕ} {vs : List Value}
    (h : ∀ v ∈ vs, (ofValue v).readable room = true) :
    readableItems room (ofItems vs) = true := by
  induction vs with
  | nil => rfl
  | cons v vs ih =>
      rw [ofItems, readableItems, h v (List.mem_cons_self ..),
        ih fun u hu => h u (List.mem_cons_of_mem _ hu), Bool.and_self]

theorem readableMembers_ofMembers {room : ℕ} {ms : List (String × Value)}
    (h : ∀ m ∈ ms, (ofValue m.2).readable room = true) :
    readableMembers room (ofMembers ms) = true := by
  induction ms with
  | nil => rfl
  | cons m ms ih =>
      rw [ofMembers, readableMembers, Name.text?_ofString, h m (List.mem_cons_self ..),
        ih fun n hn => h n (List.mem_cons_of_mem _ hn)]
      rfl

/-- What was written can be used in full where there is room for its nesting. -/
theorem readable_ofValue {v : Value} (h : v.WellFormed) {room : ℕ} (hroom : v.depth ≤ room) :
    (ofValue v).readable room = true := by
  induction h generalizing room with
  | null => rfl
  | bool b => rfl
  | number h => rfl
  | string s => rfl
  | @array items h ih =>
      rw [Value.depth] at hroom
      have hitems := readableItems_ofItems fun v hv =>
        ih v hv ((Value.depth_le_itemsDepth hv).trans (Nat.le_sub_one_of_lt hroom))
      rw [ofValue, readable, hitems, Bool.and_true, decide_eq_true (by omega)]
  | @object members hnames h ih =>
      rw [Value.depth] at hroom
      have hmembers := readableMembers_ofMembers fun m hm =>
        ih m hm ((Value.depth_le_membersDepth hm).trans (Nat.le_sub_one_of_lt hroom))
      rw [ofValue, readable, hmembers, Bool.and_true, decide_eq_true (by omega)]

theorem items?_ofItems {vs : List Value} (h : ∀ v ∈ vs, (ofValue v).value? = some v) :
    items? (ofItems vs) = some vs := by
  induction vs with
  | nil => rfl
  | cons v vs ih =>
      rw [ofItems, items?, h v (List.mem_cons_self ..),
        ih fun u hu => h u (List.mem_cons_of_mem _ hu)]
      rfl

theorem members?_ofMembers {acc ms : List (String × Value)}
    (hnames : ((acc ++ ms).map Prod.fst).Nodup) (h : ∀ m ∈ ms, (ofValue m.2).value? = some m.2) :
    members? acc (ofMembers ms) = some (acc ++ ms) := by
  induction ms generalizing acc with
  | nil => rw [ofMembers, members?, List.append_nil]
  | cons m ms ih =>
      have hfresh : m.1 ∉ acc.map Prod.fst := by
        rw [List.map_append, List.map_cons] at hnames
        exact fun hm => (List.nodup_append.mp hnames).2.2 m.1 hm m.1 (List.mem_cons_self ..) rfl
      have hrest : members? (acc ++ [m]) (ofMembers ms) = some (acc ++ [m] ++ ms) :=
        ih (by rwa [List.append_assoc, List.singleton_append])
          fun n hn => h n (List.mem_cons_of_mem _ hn)
      rw [ofMembers, members?, Name.text?_ofString, h m (List.mem_cons_self ..)]
      change members? (OrderedMap.putEntry m.1 m.2 acc) (ofMembers ms) = _
      rw [OrderedMap.putEntry_of_not_mem hfresh, hrest, List.append_assoc, List.singleton_append]

/-- What was written carries the value that it was written for. -/
theorem value?_ofValue {v : Value} (h : v.WellFormed) : (ofValue v).value? = some v := by
  induction h with
  | null => rfl
  | bool b => rfl
  | number h => rfl
  | string s => rfl
  | array h ih => rw [ofValue, value?, items?_ofItems ih, Option.map_some]
  | object hnames h ih =>
      rw [ofValue, value?, members?_ofMembers (by simpa using hnames) ih, Option.map_some,
        List.nil_append]

end Tree

/-! ## Decoders -/

theorem mapM_eq_some {α β : Type} {f : α → Option β} {g : α → β} {as : List α}
    (h : ∀ a ∈ as, f a = some (g a)) : as.mapM f = some (as.map g) := by
  induction as with
  | nil => rfl
  | cons a as ih =>
      rw [List.mapM_cons, h a (List.mem_cons_self ..),
        ih fun b hb => h b (List.mem_cons_of_mem _ hb)]
      rfl

/-- Members are read back one by one if their names and their values are. -/
theorem mapM_ofMembers {κ α : Type} {name? : Name → Option κ} {text : κ → String}
    (hname : ∀ k, name? (.ofString (text k)) = some k) {d : Tree → Option α} {f : α → Value}
    {es : List (κ × α)} (h : ∀ e ∈ es, d (.ofValue (f e.2)) = some e.2) :
    (Tree.ofMembers (es.map fun e => (text e.1, f e.2))).mapM
      (fun m => do return ((← name? m.1), (← d m.2))) = some es := by
  rw [Tree.ofMembers_eq_map, List.map_map, List.mapM_map]
  refine (mapM_eq_some fun e he => ?_).trans (congrArg some (List.map_id es))
  simp only [Function.comp_apply, hname, h e he]
  rfl

/-- Reads a text that is one document. -/
def Decoder.read? {α : Type} (d : Decoder α) (doubles : DoubleFormat) (s : String) : Option α :=
  (parse? doubles s).bind (d nestingLimit)

/-- The decoder finds `x` in the text of `v`, wherever there is room for its nesting. -/
structure ReadsBack {α : Type} (d : Decoder α) (v : Value) (x : α) : Prop where
  wellFormed : v.WellFormed
  decode : ∀ {room : ℕ}, v.depth ≤ room → d room (.ofValue v) = some x

namespace ReadsBack

variable {α β : Type} {d : Decoder α} {v : Value} {x : α}

/-- What a decoder finds in every text of `v` is what it reads from a whole one. -/
theorem read?_eq (h : ReadsBack d v x) {doubles : DoubleFormat} (hdoubles : doubles.Faithful)
    (hdepth : v.depth ≤ nestingLimit) : d.read? doubles (v.render doubles) = some x := by
  rw [Decoder.read?, parse?_render hdoubles h.wellFormed]
  exact h.decode hdepth

theorem read?_indented_eq (h : ReadsBack d v x) {doubles : DoubleFormat}
    (hdoubles : doubles.Faithful) (hdepth : v.depth ≤ nestingLimit) :
    d.read? doubles (v.renderIndented doubles) = some x := by
  rw [Decoder.read?, parse?_renderIndented hdoubles h.wellFormed]
  exact h.decode hdepth

theorem text (s : String) : ReadsBack .text (.string s) s :=
  ⟨.string s, fun _ => rfl⟩

theorem bool (b : Bool) : ReadsBack .bool (.bool b) b :=
  ⟨.bool b, fun _ => rfl⟩

theorem word {n : ℕ} (h : n < Text.wordLimit) : ReadsBack .word (.ofNat n) n := by
  refine ⟨.number ⟨by omega, by omega⟩, fun _ => ?_⟩
  change (if 0 ≤ (n : ℤ) ∧ (n : ℤ) < Text.wordLimit then some (n : ℤ).toNat else none) = some n
  rw [if_pos ⟨Int.natCast_nonneg n, by omega⟩, Int.toNat_natCast]

theorem double {y : Float} (h : y.isFinite = true) : ReadsBack .double (.ofFloat y) y :=
  ⟨.number h, fun _ => rfl⟩

theorem value (h : v.WellFormed) : ReadsBack .value v v :=
  ⟨h, fun hroom => by
    rw [Decoder.value, if_pos (Tree.readable_ofValue h hroom), Tree.value?_ofValue h]⟩

theorem null (d : Decoder α) : ReadsBack (.nullable d) .null none :=
  ⟨.null, fun _ => rfl⟩

theorem nullable (h : ReadsBack d v x) (hnull : v ≠ .null) :
    ReadsBack (.nullable d) v (some x) := by
  refine ⟨h.wellFormed, fun {room} hroom => ?_⟩
  have hread := h.decode hroom
  cases v with
  | null => exact absurd rfl hnull
  | _ => exact congrArg (Option.map some) hread

/-- A decoder that asks for all of its tree finds nothing missing. -/
theorem readInFull (h : ReadsBack d v x) :
    ReadsBack (fun room t => if t.readable room then d room t else none) v x :=
  ⟨h.wellFormed, fun hroom => by
    rw [if_pos (Tree.readable_ofValue h.wellFormed hroom), h.decode hroom]⟩

theorem map_some {f : α → β} (h : ReadsBack d v x) :
    ReadsBack (fun room t => (d room t).map f) v (f x) :=
  ⟨h.wellFormed, fun hroom => by rw [h.decode hroom, Option.map_some]⟩

theorem list {f : α → Value} {xs : List α} (h : ∀ y ∈ xs, ReadsBack d (f y) y) :
    ReadsBack (.list d) (.array (xs.map f)) xs := by
  refine ⟨.array ?_, fun {room} hroom => ?_⟩
  · intro v hv
    obtain ⟨y, hy, rfl⟩ := List.mem_map.mp hv
    exact (h y hy).wellFormed
  · rw [Value.depth] at hroom
    obtain ⟨room, rfl⟩ := Nat.exists_eq_add_of_le' (Nat.le_of_add_left_le hroom)
    rw [Tree.ofValue, Decoder.list, Tree.ofItems_eq_map, List.map_map, List.mapM_map]
    refine (mapM_eq_some fun y hy => (h y hy).decode ?_).trans (congrArg some (List.map_id xs))
    exact (Value.depth_le_itemsDepth (List.mem_map_of_mem hy)).trans (Nat.le_of_succ_le_succ hroom)

theorem entries {f : α → Value} {es : List (String × α)} (hnames : (es.map Prod.fst).Nodup)
    (h : ∀ e ∈ es, ReadsBack d (f e.2) e.2) :
    ReadsBack (.entries d) (.object (es.map fun e => (e.1, f e.2))) es := by
  refine ⟨.object (by simpa [Function.comp_def] using hnames) ?_, fun {room} hroom => ?_⟩
  · intro m hm
    obtain ⟨e, he, rfl⟩ := List.mem_map.mp hm
    exact (h e he).wellFormed
  · rw [Value.depth] at hroom
    obtain ⟨room, rfl⟩ := Nat.exists_eq_add_of_le' (Nat.le_of_add_left_le hroom)
    exact mapM_ofMembers Name.text?_ofString fun e he => (h e he).decode <|
      (Value.depth_le_membersDepth (List.mem_map_of_mem he)).trans (Nat.le_of_succ_le_succ hroom)

theorem map {f : α → Value} {m : OrderedMap String α}
    (h : ∀ e ∈ m.entries, ReadsBack d (f e.2) e.2) : ReadsBack (.map d) (.ofMap f m) m := by
  have hentries := entries m.nodup_keys h
  refine ⟨hentries.wellFormed, fun hroom => ?_⟩
  rw [Decoder.map, Value.ofMap, hentries.decode hroom, Option.map_some]
  exact congrArg some (OrderedMap.ext_entries (OrderedMap.entries_ofList m.nodup_keys))

end ReadsBack

/-! ## Records and tags -/

section Fields

variable {α : Type} {d : Decoder α} {v : Value} {x : α} {ms : List (String × Value)}

/-- The fields of an object that was written. -/
def Fields.ofMembers (ms : List (String × Value)) : Fields :=
  .named (ms.map fun m => (m.1, .ofValue m.2))

theorem Fields.ofTree?_ofValue (names : List String) (hnames : (ms.map Prod.fst).Nodup) :
    ofTree? names (.ofValue (.object ms)) = some (.ofMembers ms) := by
  have hmembers : (Tree.ofMembers ms).mapM (fun m => do return ((← m.1.text?), m.2)) =
      some (ms.map fun m => (m.1, Tree.ofValue m.2)) := by
    rw [Tree.ofMembers_eq_map, List.mapM_map]
    refine mapM_eq_some fun m _ => ?_
    simp only [Function.comp_apply, Name.text?_ofString]
    rfl
  have hcount : names.all (fun name =>
      decide (((ms.map fun m => (m.1, Tree.ofValue m.2)).map Prod.fst).count name ≤ 1)) = true := by
    rw [List.all_eq_true]
    intro name _
    rw [List.map_map]
    exact decide_eq_true (List.nodup_iff_count_le_one.mp hnames name)
  rw [Tree.ofValue, ofTree?, hmembers]
  exact if_pos hcount

theorem Fields.find?_ofMembers (ms : List (String × Value)) (name : String) :
    (ofMembers ms).find? name = (ms.lookup name).map Tree.ofValue := by
  change (ms.map fun m => (m.1, Tree.ofValue m.2)).lookup name = _
  induction ms with
  | nil => rfl
  | cons m ms ih =>
      rw [List.map_cons, List.lookup_cons, List.lookup_cons, ih]
      cases name == m.1 <;> rfl

theorem ReadsBack.exists_find? (h : ReadsBack d v x) {room : ℕ}
    (hroom : ∀ m ∈ ms, m.2.depth ≤ room) {name : String} (hfind : ms.lookup name = some v) :
    ∃ t, (Fields.ofMembers ms).find? name = some t ∧ d room t = some x := by
  refine ⟨.ofValue v, by rw [Fields.find?_ofMembers, hfind, Option.map_some], h.decode ?_⟩
  obtain ⟨before, after, rfl, -⟩ := List.lookup_eq_some_iff.mp hfind
  exact hroom (name, v) (by simp)

theorem ReadsBack.required (h : ReadsBack d v x) {room : ℕ}
    (hroom : ∀ m ∈ ms, m.2.depth ≤ room) {name : String} (hfind : ms.lookup name = some v) :
    (Fields.ofMembers ms).required d room name = some x := by
  obtain ⟨t, ht, hx⟩ := h.exists_find? hroom hfind
  rw [Fields.required, ht, Option.bind_some, hx]

theorem ReadsBack.withDefault (h : ReadsBack d v x) {room : ℕ}
    (hroom : ∀ m ∈ ms, m.2.depth ≤ room) {name : String} (hfind : ms.lookup name = some v)
    (default : α) : (Fields.ofMembers ms).withDefault d default room name = some x := by
  obtain ⟨t, ht, hx⟩ := h.exists_find? hroom hfind
  rw [Fields.withDefault, ht]
  exact hx

/-- A record is read back if its fields are, once each of them has room. -/
theorem ReadsBack.record {names : List String} {build : ℕ → Fields → Option α}
    (hnames : (ms.map Prod.fst).Nodup) (hms : ∀ m ∈ ms, m.2.WellFormed)
    (hbuild : ∀ room, (∀ m ∈ ms, m.2.depth ≤ room) → build room (.ofMembers ms) = some x) :
    ReadsBack (.record names build) (.object ms) x := by
  refine ⟨.object hnames hms, fun {room} hroom => ?_⟩
  rw [Value.depth] at hroom
  obtain ⟨room, rfl⟩ := Nat.exists_eq_add_of_le' (Nat.le_of_add_left_le hroom)
  rw [Decoder.record, Fields.ofTree?_ofValue names hnames, Option.bind_some]
  exact hbuild room fun m hm =>
    (Value.depth_le_membersDepth hm).trans (Nat.le_of_succ_le_succ hroom)

end Fields

theorem tagged?_ofValue {tag s : String} {variants : List String} {ms : List (String × Value)}
    (htag : tag ∉ ms.map Prod.fst) {i : ℕ} (hi : variants.findIdx? (· == s) = some i)
    (inner : Bool) :
    tagged? tag variants inner (.ofValue (.object ((tag, .string s) :: ms))) =
      some (i, .ofValue (.object ms)) := by
  have hne : ∀ m ∈ Tree.ofMembers ms, m.1.text? ≠ some tag := by
    rw [Tree.ofMembers_eq_map]
    intro m hm
    obtain ⟨n, hn, rfl⟩ := List.mem_map.mp hm
    rw [Name.text?_ofString, Ne, Option.some_inj]
    rintro rfl
    exact htag (List.mem_map_of_mem hn)
  have htagged : (Tree.ofMembers ms).filter (fun m => m.1.text? == some tag) = [] :=
    List.filter_eq_nil_iff.mpr fun m hm => by simpa using hne m hm
  have hothers : (Tree.ofMembers ms).filter (fun m => m.1.text? != some tag) = Tree.ofMembers ms :=
    List.filter_eq_self.mpr fun m hm => by simpa using hne m hm
  have hvariant : variant? inner variants (.string (some s)) = some i := hi
  rw [Tree.ofValue, Tree.ofMembers, Tree.ofValue, tagged?, List.filter_cons, List.filter_cons,
    htagged, hothers]
  simp [Name.text?_ofString, hvariant, Tree.ofValue]

/-- A tagged node is read back if the decoder of its variant reads what the tag leaves. -/
theorem ReadsBack.tagged {α : Type} {d d' : Decoder α} {tag s : String}
    {ms : List (String × Value)} {x : α} (h : ReadsBack d (.object ms) x)
    (htag : tag ∉ ms.map Prod.fst)
    (hd : ∀ room, d' room (.ofValue (.object ((tag, .string s) :: ms))) =
      d room (.ofValue (.object ms))) :
    ReadsBack d' (.object ((tag, .string s) :: ms)) x := by
  refine ⟨?_, fun {room} hroom => ?_⟩
  · obtain ⟨hnames, hms⟩ : (ms.map Prod.fst).Nodup ∧ ∀ m ∈ ms, m.2.WellFormed := by
      cases h.wellFormed with
      | object hnames hms => exact ⟨hnames, hms⟩
    exact .object (List.nodup_cons.mpr ⟨htag, hnames⟩)
      (List.forall_mem_cons.mpr ⟨.string s, hms⟩)
  · rw [hd room]
    refine h.decode (Nat.le_trans (Nat.succ_le_succ ?_) hroom)
    exact Nat.le_max_right ..

end FacetedSearch.Json
