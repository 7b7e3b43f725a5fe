import FacetedSearch.Proofs.Json.Decoder

/-!
# The members of an object by name

A record and a tagged node see of an object only which values stand under each of their names.
So two objects are read alike if their values are, name by name: the same ones, two that the field
reads alike, none and the default, or too many on both sides.
-/

namespace FacetedSearch.Json

namespace Tree

theorem readableItems_eq_all (room : ℕ) (ts : List Tree) :
    readableItems room ts = ts.all fun t => t.readable room := by
  induction ts with
  | nil => rfl
  | cons t ts ih => rw [readableItems, ih, List.all_cons]

theorem readableMembers_eq_all (room : ℕ) (ms : List (Name × Tree)) :
    readableMembers room ms = ms.all fun m => m.1.text?.isSome && m.2.readable room := by
  induction ms with
  | nil => rfl
  | cons m ms ih => rw [readableMembers, ih, List.all_cons]

end Tree

/-- The values of the members with a name, in order. -/
def valuesUnder (name : String) (ms : List (Name × Tree)) : List Tree :=
  (ms.filter fun m => m.1.text? == some name).map Prod.snd

/-- The members with other names than the tag. -/
def others (tag : String) (ms : List (Name × Tree)) : List (Name × Tree) :=
  ms.filter fun m => m.1.text? != some tag

/-- Every name can be read. -/
def AllNamed (ms : List (Name × Tree)) : Prop := ∀ m ∈ ms, m.1.text?.isSome = true

/-- The members whose names can be read. -/
def texts (ms : List (Name × Tree)) : List (String × Tree) :=
  ms.filterMap fun m => m.1.text?.map fun s => (s, m.2)

section Members

variable {name : String} {n : Name} {t : Tree} {ms : List (Name × Tree)}

theorem valuesUnder_cons_of_eq (h : n.text? = some name) :
    valuesUnder name ((n, t) :: ms) = t :: valuesUnder name ms := by
  rw [valuesUnder, List.filter_cons_of_pos (by simpa using h), List.map_cons, valuesUnder]

theorem valuesUnder_cons_of_ne (h : n.text? ≠ some name) :
    valuesUnder name ((n, t) :: ms) = valuesUnder name ms := by
  rw [valuesUnder, List.filter_cons_of_neg (by simpa using h), valuesUnder]

theorem valuesUnder_cons_of_text? {s : String} (hn : n.text? = some s) (h : name ≠ s) :
    valuesUnder name ((n, t) :: ms) = valuesUnder name ms :=
  valuesUnder_cons_of_ne fun heq => h (Option.some.inj (heq.symm.trans hn))

theorem valuesUnder_append (before after : List (Name × Tree)) :
    valuesUnder name (before ++ after) = valuesUnder name before ++ valuesUnder name after := by
  simp only [valuesUnder, List.filter_append, List.map_append]

theorem valuesUnder_eq_nil_iff : valuesUnder name ms = [] ↔ ∀ m ∈ ms, m.1.text? ≠ some name := by
  simp [valuesUnder, List.filter_eq_nil_iff]

theorem valuesUnder_perm {ms' : List (Name × Tree)} (h : ms.Perm ms') :
    (valuesUnder name ms).Perm (valuesUnder name ms') :=
  (h.filter _).map _

theorem valuesUnder_others {tag : String} (h : name ≠ tag) :
    valuesUnder name (others tag ms) = valuesUnder name ms := by
  rw [valuesUnder, others, List.filter_filter, valuesUnder]
  congr 1
  refine List.filter_congr fun m _ => ?_
  by_cases hm : m.1.text? = some name
  · simp [hm, h]
  · simp [hm]

/-- The tag itself is a name that can be read. -/
theorem allNamed_others {tag : String} : AllNamed (others tag ms) ↔ AllNamed ms := by
  constructor
  · intro h m hm
    by_cases htag : m.1.text? = some tag
    · exact Option.isSome_iff_exists.mpr ⟨tag, htag⟩
    · exact h m (List.mem_filter.mpr ⟨hm, by simpa using htag⟩)
  · intro h m hm
    exact h m (List.mem_filter.mp hm).1

theorem lookup_texts : (texts ms).lookup name = (valuesUnder name ms).head? := by
  induction ms with
  | nil => rfl
  | cons m ms ih =>
      obtain ⟨n, t⟩ := m
      by_cases hn : n.text? = some name
      · rw [valuesUnder_cons_of_eq hn, texts, List.filterMap_cons, hn]
        simp
      · rw [valuesUnder_cons_of_ne hn, ← ih, texts, List.filterMap_cons]
        cases htext : n.text? with
        | none => rfl
        | some s =>
            have hne : (name == s) = false := by
              rw [beq_eq_false_iff_ne]
              rintro rfl
              exact hn htext
            rw [Option.map_some, List.lookup_cons, hne]
            rfl

theorem count_texts : ((texts ms).map Prod.fst).count name = (valuesUnder name ms).length := by
  induction ms with
  | nil => rfl
  | cons m ms ih =>
      obtain ⟨n, t⟩ := m
      by_cases hn : n.text? = some name
      · rw [valuesUnder_cons_of_eq hn, texts, List.filterMap_cons, hn]
        simp [← ih, texts]
      · rw [valuesUnder_cons_of_ne hn, ← ih, texts, List.filterMap_cons]
        cases htext : n.text? with
        | none => rfl
        | some s =>
            have hne : s ≠ name := fun hs => hn (hs ▸ htext)
            simp [hne, texts]

theorem mapM_text?_of_allNamed (h : AllNamed ms) :
    (ms.mapM fun m => do return ((← m.1.text?), m.2)) = some (texts ms) := by
  induction ms with
  | nil => rfl
  | cons m ms ih =>
      obtain ⟨hm, hms⟩ := List.forall_mem_cons.mp h
      obtain ⟨s, hs⟩ := Option.isSome_iff_exists.mp hm
      rw [List.mapM_cons, ih hms]
      simp [texts, hs]

theorem mapM_text?_of_not_allNamed (h : ¬ AllNamed ms) :
    (ms.mapM fun m => do return ((← m.1.text?), m.2)) = none := by
  induction ms with
  | nil => exact absurd (by simp [AllNamed]) h
  | cons m ms ih =>
      rw [List.mapM_cons]
      cases hs : m.1.text? with
      | none => rfl
      | some s =>
          have hms : ¬ AllNamed ms := fun hms =>
            h (List.forall_mem_cons.mpr ⟨Option.isSome_iff_exists.mpr ⟨s, hs⟩, hms⟩)
          rw [ih hms]
          rfl

end Members

/-- The fields of an object whose names can all be read. -/
theorem Fields.ofTree?_object {names : List String} {ms : List (Name × Tree)} (h : AllNamed ms) :
    ofTree? names (.object ms) =
      if ∀ name ∈ names, (valuesUnder name ms).length ≤ 1 then some (.named (texts ms))
      else none := by
  rw [ofTree?, mapM_text?_of_allNamed h, Option.bind_eq_bind, Option.bind_some]
  simp only [count_texts, List.all_eq_true, decide_eq_true_eq]
  rfl

theorem Fields.ofTree?_object_of_not_allNamed (names : List String) {ms : List (Name × Tree)}
    (h : ¬ AllNamed ms) : ofTree? names (.object ms) = none := by
  rw [ofTree?, mapM_text?_of_not_allNamed h]
  rfl

theorem tagged?_of_single {tag : String} {ms : List (Name × Tree)} {t : Tree}
    (h : valuesUnder tag ms = [t]) (variants : List String) (inner : Bool) :
    tagged? tag variants inner (.object ms) =
      (variant? inner variants t).map fun i => (i, .object (others tag ms)) := by
  obtain ⟨m, hm, rfl⟩ := List.map_eq_singleton_iff.mp h
  rw [tagged?, hm]
  exact Option.map_eq_bind.symm

theorem tagged?_eq_none {tag : String} {ms : List (Name × Tree)}
    (h : ∀ t, valuesUnder tag ms ≠ [t]) (variants : List String) (inner : Bool) :
    tagged? tag variants inner (.object ms) = none := by
  rw [tagged?]
  split
  next m hm => exact absurd (List.map_eq_singleton_iff.mpr ⟨m, hm, rfl⟩) (h m.2)
  next => rfl

/-- Whether the place of a variant may stand for its name decides only if there is a variant, and
not which one. -/
theorem variant?_true {inner : Bool} {variants : List String} {t : Tree} {i : ℕ}
    (h : variant? inner variants t = some i) : variant? true variants t = some i := by
  cases inner with
  | true => exact h
  | false =>
      unfold variant? at h ⊢
      split at h
      · exact h
      · simp at h
      · cases h

/-! ## Values that a field reads alike -/

/-- The values under the name of a field, where `same` holds of values that the field reads
alike. -/
inductive ValuesAlike (same : Tree → Tree → Prop) (default? : Option Tree) :
    List Tree → List Tree → Prop
  | equal (ts : List Tree) : ValuesAlike same default? ts ts
  | read {t t' : Tree} (h : same t t') : ValuesAlike same default? [t] [t']
  | written {t : Tree} (h : default? = some t) : ValuesAlike same default? [] [t]
  /-- A record takes none of them. -/
  | repeated {ts ts' : List Tree} (h : 1 < ts.length) (h' : 1 < ts'.length) :
      ValuesAlike same default? ts ts'

section Alike

variable {α : Type} {d : Decoder α} {same : Tree → Tree → Prop} {default? : Option Tree}
  {name : String} {room : ℕ} {ms ms' : List (Name × Tree)}

/-- A value that stands alone has no other order. -/
theorem ValuesAlike.of_perm {ts ts' : List Tree} (h : ts.Perm ts') :
    ValuesAlike same default? ts ts' := by
  rcases ts with _ | ⟨t, _ | ⟨u, ts⟩⟩
  · exact h.nil_eq ▸ .equal _
  · exact h.singleton_eq ▸ .equal _
  · exact .repeated (by simp) (h.length_eq ▸ by simp)

theorem ValuesAlike.of_same {t t' : Tree} (h : same t t') (before after : List Tree) :
    ValuesAlike same default? (before ++ t :: after) (before ++ t' :: after) := by
  cases before with
  | nil =>
      cases after with
      | nil => exact .read h
      | cons => exact .repeated (by simp) (by simp)
  | cons => exact .repeated (by simp) (by simp)

theorem ValuesAlike.length_le_one_iff {ts ts' : List Tree} (h : ValuesAlike same default? ts ts') :
    ts.length ≤ 1 ↔ ts'.length ≤ 1 := by
  cases h with
  | equal => rfl
  | read => simp
  | written => simp
  | repeated h h' => omega

theorem Fields.required_eq_of_alike
    (h : ValuesAlike same none (valuesUnder name ms) (valuesUnder name ms'))
    (hone : (valuesUnder name ms).length ≤ 1) (hsame : ∀ t t', same t t' → d room t = d room t') :
    (named (texts ms)).required d room name = (named (texts ms')).required d room name := by
  rw [required, required, find?, find?, lookup_texts, lookup_texts]
  generalize valuesUnder name ms = ts at h hone
  generalize valuesUnder name ms' = ts' at h
  cases h with
  | equal => rfl
  | read h => exact hsame _ _ h
  | written h => cases h
  | repeated h => omega

theorem Fields.withDefault_eq_of_alike {default : α} {t₀ : Tree}
    (h : ValuesAlike same (some t₀) (valuesUnder name ms) (valuesUnder name ms'))
    (hone : (valuesUnder name ms).length ≤ 1) (hsame : ∀ t t', same t t' → d room t = d room t')
    (hdefault : d room t₀ = some default) :
    (named (texts ms)).withDefault d default room name =
      (named (texts ms')).withDefault d default room name := by
  rw [withDefault, withDefault, find?, find?, lookup_texts, lookup_texts]
  generalize valuesUnder name ms = ts at h hone
  generalize valuesUnder name ms' = ts' at h
  cases h with
  | equal => rfl
  | read h => exact hsame _ _ h
  | written h =>
      obtain rfl := Option.some.inj h
      exact hdefault.symm
  | repeated h => omega

/-- A record is the same if both objects have one value for each field at most, or neither has,
and its fields are the same in the first case. -/
theorem Decoder.record_eq_of_alike {names : List String} {build : ℕ → Fields → Option α}
    (hnamed : AllNamed ms ↔ AllNamed ms')
    (hone : ∀ name ∈ names, (valuesUnder name ms).length ≤ 1 ↔ (valuesUnder name ms').length ≤ 1)
    (hbuild : 0 < room → (∀ name ∈ names, (valuesUnder name ms).length ≤ 1) →
      build (room - 1) (.named (texts ms)) = build (room - 1) (.named (texts ms'))) :
    record names build room (.object ms) = record names build room (.object ms') := by
  cases room with
  | zero => rfl
  | succ room =>
      rw [record, record]
      by_cases h : AllNamed ms
      · rw [Fields.ofTree?_object h, Fields.ofTree?_object (hnamed.mp h)]
        by_cases hms : ∀ name ∈ names, (valuesUnder name ms).length ≤ 1
        · rw [if_pos hms, if_pos ((forall₂_congr hone).mp hms)]
          exact hbuild room.succ_pos hms
        · rw [if_neg hms, if_neg (mt (forall₂_congr hone).mpr hms)]
      · rw [Fields.ofTree?_object_of_not_allNamed names h,
          Fields.ofTree?_object_of_not_allNamed names (h ∘ hnamed.mpr)]

end Alike

/-! ## Empty lists and maps -/

theorem Decoder.list_nil {α : Type} (d : Decoder α) {room : ℕ} (h : 0 < room) :
    list d room (.array []) = some [] := by
  obtain ⟨room, rfl⟩ := Nat.exists_eq_add_of_le' h
  rfl

theorem Decoder.map_nil {α : Type} (d : Decoder α) {room : ℕ} (h : 0 < room) :
    map d room (.object []) = some ∅ := by
  obtain ⟨room, rfl⟩ := Nat.exists_eq_add_of_le' h
  rfl

end FacetedSearch.Json
