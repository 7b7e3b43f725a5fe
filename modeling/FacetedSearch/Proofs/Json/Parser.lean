import FacetedSearch.Proofs.Json.Layout
import FacetedSearch.Proofs.Json.Number
import FacetedSearch.Proofs.Json.Quoted

/-!
# Reading what was written

The text of a value, in whatever layout, is read as the tree of that value: every name and string
with its text, every number as it was. The induction is on the fuel of the reader, which the length
of the text bounds.
-/

namespace FacetedSearch.Json

/-- A name as it is written. -/
def Name.ofString (s : String) : Name := .ofPieces (s.toList.map pieceOf)

theorem Name.text?_ofString (s : String) : (Name.ofString s).text? = some s :=
  piecesText?_map_pieceOf s

namespace Tree

mutual

/-- What the text of a value says. -/
def ofValue : Value → Tree
  | .null => .null
  | .bool b => .bool b
  | .number n => .number (some n)
  | .string s => .string (some s)
  | .array items => .array (ofItems items)
  | .object members => .object (ofMembers members)

def ofItems : List Value → List Tree
  | [] => []
  | v :: vs => ofValue v :: ofItems vs

def ofMembers : List (String × Value) → List (Name × Tree)
  | [] => []
  | (name, v) :: ms => (.ofString name, ofValue v) :: ofMembers ms

end

end Tree

/-- The values that a text can carry: their numbers are well-formed and no object has two members
of one name. -/
inductive Value.WellFormed : Value → Prop
  | null : WellFormed .null
  | bool (b : Bool) : WellFormed (.bool b)
  | number {n : Number} (h : n.WellFormed) : WellFormed (.number n)
  | string (s : String) : WellFormed (.string s)
  | array {items : List Value} (h : ∀ v ∈ items, WellFormed v) : WellFormed (.array items)
  | object {members : List (String × Value)} (hnames : (members.map Prod.fst).Nodup)
      (h : ∀ m ∈ members, WellFormed m.2) : WellFormed (.object members)

/-! ## First characters -/

theorem skipSpace_cons {c : Char} (h : isSpace c = false) (cs : List Char) :
    skipSpace (c :: cs) = c :: cs :=
  List.dropWhile_cons_of_neg (by rw [h]; decide)

/-- A number begins as nothing else in a text does. -/
theorem not_numeral_head {c : Char} (h : c = '-' ∨ c.isDigit = true) :
    isSpace c = false ∧ c ∉ ['n', 't', 'f', '"', '[', '{', ']'] := by
  rcases h with rfl | hdigit
  · decide
  · have hne (d : Char) (hd : d.isDigit = false) : c ≠ d := by
      rintro rfl
      rw [hdigit] at hd
      cases hd
    have hspace : c ≠ ' ' ∧ c ≠ '\t' ∧ c ≠ '\n' ∧ c ≠ '\r' :=
      ⟨hne _ rfl, hne _ rfl, hne _ rfl, hne _ rfl⟩
    refine ⟨by simp [isSpace, hspace], ?_⟩
    simp only [List.mem_cons, List.not_mem_nil, or_false, not_or]
    exact ⟨hne _ rfl, hne _ rfl, hne _ rfl, hne _ rfl, hne _ rfl, hne _ rfl, hne _ rfl⟩

theorem treeFrom_number (doubles : DoubleFormat) {c : Char} (h : c = '-' ∨ c.isDigit = true)
    (fuel : ℕ) (cs : List Char) :
    treeFrom doubles (fuel + 1) (c :: cs) =
      (number? doubles (c :: cs)).map fun r => (.number r.1, r.2) := by
  obtain ⟨hspace, hc⟩ := not_numeral_head h
  rw [treeFrom, skipSpace_cons hspace]
  split
  all_goals simp_all

theorem Value.WellFormed.exists_laidOut_eq {v : Value} (h : v.WellFormed) {l : Layout}
    (hl : l.doubles.Faithful) (depth : ℕ) :
    ∃ c cs, v.laidOut l depth = c :: cs ∧ isSpace c = false ∧ c ≠ ']' := by
  cases h with
  | null => exact ⟨'n', _, rfl, by decide⟩
  | bool b => cases b <;> exact ⟨_, _, rfl, by decide⟩
  | number h =>
      obtain ⟨c, cs, hchars, hc⟩ := Number.exists_chars_eq hl h
      obtain ⟨hspace, hmem⟩ := not_numeral_head hc
      exact ⟨c, cs, by rw [Value.laidOut, hchars], hspace, by rintro rfl; simp at hmem⟩
  | string s => exact ⟨'"', _, by rw [Value.laidOut, quoted], by decide⟩
  | @array items _ =>
    cases items with
    | nil => exact ⟨'[', _, rfl, by decide⟩
    | cons v vs => exact ⟨'[', _, by rw [Value.laidOut], by decide⟩
  | @object members _ _ =>
    cases members with
    | nil => exact ⟨'{', _, rfl, by decide⟩
    | cons m ms => exact ⟨'{', _, by rw [Value.laidOut], by decide⟩

/-! ## Blanks before a token -/

section Blanks

variable (doubles : DoubleFormat) {ws : List Char} (h : ∀ c ∈ ws, isSpace c = true) (fuel : ℕ)
  (cs : List Char)

include h

theorem skipSpace_append : skipSpace (ws ++ cs) = skipSpace cs :=
  List.dropWhile_append_of_pos h

theorem treeFrom_append : treeFrom doubles fuel (ws ++ cs) = treeFrom doubles fuel cs := by
  cases fuel with
  | zero => rfl
  | succ fuel => simp only [treeFrom, skipSpace_append h]

theorem itemsFrom_append : itemsFrom doubles fuel (ws ++ cs) = itemsFrom doubles fuel cs := by
  cases fuel with
  | zero => rfl
  | succ fuel => simp only [itemsFrom, treeFrom_append doubles h]

theorem membersFrom_append : membersFrom doubles fuel (ws ++ cs) = membersFrom doubles fuel cs := by
  cases fuel with
  | zero => rfl
  | succ fuel => simp only [membersFrom, skipSpace_append h]

end Blanks

/-! ## Single steps of the reader -/

theorem treeFrom_string (doubles : DoubleFormat) (fuel : ℕ) (cs : List Char) :
    treeFrom doubles (fuel + 1) ('"' :: cs) =
      (pieces? cs).map fun r => (.string (piecesText? r.1), r.2) :=
  rfl

section Steps

variable {doubles : DoubleFormat} {ws : List Char} (h : ∀ c ∈ ws, isSpace c = true)

include h

theorem treeFrom_items {c : Char} (hspace : isSpace c = false) (hclose : c ≠ ']') (fuel : ℕ)
    (cs : List Char) :
    treeFrom doubles (fuel + 1) ('[' :: (ws ++ c :: cs)) =
      (itemsFrom doubles fuel (c :: cs)).map fun r => (.array r.1, r.2) := by
  rw [treeFrom, skipSpace_cons (by decide)]
  simp only [skipSpace_append h, skipSpace_cons hspace]
  split
  next heq => exact absurd (List.cons.inj heq).1 hclose
  next => rfl

theorem treeFrom_members (fuel : ℕ) (cs : List Char) :
    treeFrom doubles (fuel + 1) ('{' :: (ws ++ '"' :: cs)) =
      (membersFrom doubles fuel ('"' :: cs)).map fun r => (.object r.1, r.2) := by
  rw [treeFrom, skipSpace_cons (by decide)]
  simp only [skipSpace_append h, skipSpace_cons (show isSpace '"' = false by decide)]
  rfl

theorem itemsFrom_of_comma {fuel : ℕ} {cs rest : List Char} {t : Tree}
    (ht : treeFrom doubles fuel cs = some (t, ',' :: (ws ++ rest))) :
    itemsFrom doubles (fuel + 1) cs =
      (itemsFrom doubles fuel rest).map fun r => (t :: r.1, r.2) := by
  rw [itemsFrom, ht]
  change (itemsFrom doubles fuel (ws ++ rest)).bind _ = _
  rw [itemsFrom_append _ h]
  cases itemsFrom doubles fuel rest <;> rfl

theorem itemsFrom_of_close {fuel : ℕ} {cs rest : List Char} {t : Tree}
    (ht : treeFrom doubles fuel cs = some (t, ws ++ ']' :: rest)) :
    itemsFrom doubles (fuel + 1) cs = some ([t], rest) := by
  rw [itemsFrom, ht]
  simp only [Option.bind_eq_bind, Option.bind_some, skipSpace_append h,
    skipSpace_cons (show isSpace ']' = false by decide)]
  rfl

variable {ws' : List Char} (h' : ∀ c ∈ ws', isSpace c = true)

include h'

theorem membersFrom_of_comma {fuel : ℕ} {name : String} {cs rest : List Char} {t : Tree}
    (ht : treeFrom doubles fuel cs = some (t, ',' :: (ws' ++ rest))) :
    membersFrom doubles (fuel + 1) (quoted name ++ ':' :: (ws ++ cs)) =
      (membersFrom doubles fuel rest).map fun r => ((.ofString name, t) :: r.1, r.2) := by
  rw [quoted_append, membersFrom, skipSpace_cons (by decide)]
  simp only [pieces?_quoted, Option.bind_eq_bind, Option.bind_some, treeFrom_append _ h, ht,
    skipSpace_cons (show isSpace ':' = false by decide),
    skipSpace_cons (show isSpace ',' = false by decide), membersFrom_append _ h']
  cases membersFrom doubles fuel rest <;> rfl

theorem membersFrom_of_close {fuel : ℕ} {name : String} {cs rest : List Char} {t : Tree}
    (ht : treeFrom doubles fuel cs = some (t, ws' ++ '}' :: rest)) :
    membersFrom doubles (fuel + 1) (quoted name ++ ':' :: (ws ++ cs)) =
      some ([(.ofString name, t)], rest) := by
  rw [quoted_append, membersFrom, skipSpace_cons (by decide)]
  simp only [pieces?_quoted, Option.bind_eq_bind, Option.bind_some, treeFrom_append _ h, ht,
    skipSpace_cons (show isSpace ':' = false by decide), skipSpace_append h',
    skipSpace_cons (show isSpace '}' = false by decide)]
  rfl

end Steps

/-! ## Values -/

theorem delimited_append {ws : List Char} (h : ∀ c ∈ ws, isSpace c = true) {cs : List Char}
    (hcs : Delimited cs) : Delimited (ws ++ cs) := by
  cases ws with
  | nil => exact hcs
  | cons w ws =>
      intro c hc
      obtain rfl := Option.some_inj.mp hc
      exact .inl (h w List.mem_cons_self)

theorem delimited_itemsLaidOut (l : Layout) (depth : ℕ) (vs : List Value) (rest : List Char) :
    Delimited (Value.itemsLaidOut l depth vs ++ rest) := by
  cases vs with
  | nil =>
      rw [Value.itemsLaidOut, List.append_assoc]
      refine delimited_append (l.isSpace_gap depth) fun c hc => ?_
      exact .inr (.inr (.inl (Option.some_inj.mp hc).symm))
  | cons v vs =>
      rw [Value.itemsLaidOut]
      exact fun c hc => .inr (.inl (Option.some_inj.mp hc).symm)

theorem delimited_membersLaidOut (l : Layout) (depth : ℕ) (ms : List (String × Value))
    (rest : List Char) : Delimited (Value.membersLaidOut l depth ms ++ rest) := by
  cases ms with
  | nil =>
      rw [Value.membersLaidOut, List.append_assoc]
      refine delimited_append (l.isSpace_gap depth) fun c hc => ?_
      exact .inr (.inr (.inr (Option.some_inj.mp hc).symm))
  | cons m ms =>
      rw [Value.membersLaidOut]
      exact fun c hc => .inr (.inl (Option.some_inj.mp hc).symm)

theorem length_itemsLaidOut_pos (l : Layout) (depth : ℕ) (vs : List Value) :
    0 < (Value.itemsLaidOut l depth vs).length := by
  cases vs <;> simp [Value.itemsLaidOut]

theorem length_membersLaidOut_pos (l : Layout) (depth : ℕ) (ms : List (String × Value)) :
    0 < (Value.membersLaidOut l depth ms).length := by
  cases ms <;> simp [Value.membersLaidOut]

section Reads

/-- With this fuel, what is shorter is read as what it was laid out for. -/
structure Reads (l : Layout) (fuel : ℕ) : Prop where
  value : ∀ (depth : ℕ) {v : Value} (rest : List Char), v.WellFormed → Delimited rest →
    (v.laidOut l depth).length < fuel →
    treeFrom l.doubles fuel (v.laidOut l depth ++ rest) = some (.ofValue v, rest)
  items : ∀ (depth : ℕ) {v : Value} {vs : List Value} (rest : List Char),
    (∀ u ∈ v :: vs, u.WellFormed) →
    (v.laidOut l (depth + 1)).length + (Value.itemsLaidOut l depth vs).length < fuel →
    itemsFrom l.doubles fuel (v.laidOut l (depth + 1) ++ (Value.itemsLaidOut l depth vs ++ rest)) =
      some (Tree.ofItems (v :: vs), rest)
  members : ∀ (depth : ℕ) {name : String} {v : Value} {ms : List (String × Value)}
    (rest : List Char), (∀ m ∈ (name, v) :: ms, m.2.WellFormed) →
    (v.laidOut l (depth + 1)).length + (Value.membersLaidOut l depth ms).length < fuel →
    membersFrom l.doubles fuel (quoted name ++ ':' :: (l.afterColon ++
        (v.laidOut l (depth + 1) ++ (Value.membersLaidOut l depth ms ++ rest)))) =
      some (Tree.ofMembers ((name, v) :: ms), rest)

variable {l : Layout}

theorem Reads.succ_value (hl : l.doubles.Faithful) {fuel : ℕ} (ih : Reads l fuel) (depth : ℕ)
    {v : Value} (rest : List Char) (hv : v.WellFormed) (hrest : Delimited rest)
    (hfuel : (v.laidOut l depth).length < fuel + 1) :
    treeFrom l.doubles (fuel + 1) (v.laidOut l depth ++ rest) = some (.ofValue v, rest) := by
  cases hv with
  | null => rfl
  | bool b => cases b <;> rfl
  | @number n hn =>
      obtain ⟨c, cs, hchars, hc⟩ := Number.exists_chars_eq hl hn
      have hread := number?_number hl hn hrest
      rw [Value.laidOut]
      rw [hchars, List.cons_append] at hread ⊢
      rw [treeFrom_number _ hc, hread]
      rfl
  | string s =>
      rw [Value.laidOut, quoted_append, treeFrom_string, pieces?_quoted, Option.map_some]
      dsimp only
      rw [piecesText?_map_pieceOf]
      rfl
  | @array items h =>
      cases items with
      | nil => rfl
      | cons v vs =>
          have hlength : (v.laidOut l (depth + 1)).length +
              (Value.itemsLaidOut l depth vs).length < fuel := by
            simp only [Value.laidOut, List.length_cons, List.length_append] at hfuel
            omega
          obtain ⟨c, cs, hchars, hspace, hclose⟩ :=
            (h v (List.mem_cons_self ..)).exists_laidOut_eq hl (depth + 1)
          have hitems := ih.items depth rest h hlength
          rw [Value.laidOut, List.cons_append, List.append_assoc, List.append_assoc]
          rw [hchars, List.cons_append] at hitems ⊢
          rw [treeFrom_items (l.isSpace_gap _) hspace hclose, hitems]
          rfl
  | @object members hnames h =>
      cases members with
      | nil => rfl
      | cons m ms =>
          obtain ⟨name, v⟩ := m
          have hlength : (v.laidOut l (depth + 1)).length +
              (Value.membersLaidOut l depth ms).length < fuel := by
            simp only [Value.laidOut, List.length_cons, List.length_append] at hfuel
            omega
          have hmembers := ih.members depth rest h hlength
          simp only [Value.laidOut, List.cons_append, List.append_assoc]
          rw [quoted_append] at hmembers ⊢
          rw [treeFrom_members (l.isSpace_gap _), hmembers]
          rfl

theorem Reads.succ_items {fuel : ℕ} (ih : Reads l fuel) (depth : ℕ) {v : Value}
    {vs : List Value} (rest : List Char) (h : ∀ u ∈ v :: vs, u.WellFormed)
    (hfuel : (v.laidOut l (depth + 1)).length + (Value.itemsLaidOut l depth vs).length <
      fuel + 1) :
    itemsFrom l.doubles (fuel + 1)
        (v.laidOut l (depth + 1) ++ (Value.itemsLaidOut l depth vs ++ rest)) =
      some (Tree.ofItems (v :: vs), rest) := by
  have hpos := length_itemsLaidOut_pos l depth vs
  have hv := ih.value (depth + 1) _ (h v (List.mem_cons_self ..))
    (delimited_itemsLaidOut l depth vs rest) (by omega)
  cases vs with
  | nil =>
      rw [Value.itemsLaidOut, List.append_assoc] at hv ⊢
      exact itemsFrom_of_close (l.isSpace_gap depth) hv
  | cons u us =>
      have hlength : (u.laidOut l (depth + 1)).length +
          (Value.itemsLaidOut l depth us).length < fuel := by
        simp only [Value.itemsLaidOut, List.length_cons, List.length_append] at hfuel
        omega
      have hus := ih.items depth rest (fun w hw => h w (List.mem_cons_of_mem _ hw)) hlength
      rw [Value.itemsLaidOut, List.cons_append, List.append_assoc, List.append_assoc] at hv ⊢
      rw [itemsFrom_of_comma (l.isSpace_gap _) hv, hus]
      rfl

theorem Reads.succ_members {fuel : ℕ} (ih : Reads l fuel) (depth : ℕ) {name : String}
    {v : Value} {ms : List (String × Value)} (rest : List Char)
    (h : ∀ m ∈ (name, v) :: ms, m.2.WellFormed)
    (hfuel : (v.laidOut l (depth + 1)).length + (Value.membersLaidOut l depth ms).length <
      fuel + 1) :
    membersFrom l.doubles (fuel + 1) (quoted name ++ ':' :: (l.afterColon ++
        (v.laidOut l (depth + 1) ++ (Value.membersLaidOut l depth ms ++ rest)))) =
      some (Tree.ofMembers ((name, v) :: ms), rest) := by
  have hpos := length_membersLaidOut_pos l depth ms
  have hv := ih.value (depth + 1) (v := v) _ (h (name, v) (List.mem_cons_self ..))
    (delimited_membersLaidOut l depth ms rest) (by omega)
  cases ms with
  | nil =>
      rw [Value.membersLaidOut, List.append_assoc] at hv ⊢
      exact membersFrom_of_close l.isSpace_afterColon (l.isSpace_gap depth) hv
  | cons m ms =>
      obtain ⟨name', u⟩ := m
      have hlength : (u.laidOut l (depth + 1)).length +
          (Value.membersLaidOut l depth ms).length < fuel := by
        simp only [Value.membersLaidOut, List.length_cons, List.length_append] at hfuel
        omega
      have hms := ih.members depth rest (fun m hm => h m (List.mem_cons_of_mem _ hm)) hlength
      simp only [Value.membersLaidOut, List.cons_append, List.append_assoc] at hv ⊢
      rw [membersFrom_of_comma l.isSpace_afterColon (l.isSpace_gap _) hv, hms]
      rfl

theorem reads (hl : l.doubles.Faithful) (fuel : ℕ) : Reads l fuel := by
  induction fuel with
  | zero => exact ⟨fun _ _ _ _ h => by omega, fun _ _ _ h => by omega, fun _ _ _ h => by omega⟩
  | succ fuel ih => exact ⟨ih.succ_value hl, ih.succ_items, ih.succ_members⟩

end Reads

/-- A value is read back from its text in any layout. -/
theorem parse?_laidOut {l : Layout} (hl : l.doubles.Faithful) {v : Value} (h : v.WellFormed) :
    parse? l.doubles (String.ofList (v.laidOut l 0)) = some (.ofValue v) := by
  have hread := (reads hl ((v.laidOut l 0).length + 1)).value 0 [] h (by simp [Delimited])
    (Nat.lt_succ_self _)
  rw [List.append_nil] at hread
  rw [parse?, String.toList_ofList, parseChars?, hread]
  rfl

section

variable {doubles : DoubleFormat} (hdoubles : doubles.Faithful)

include hdoubles

/-- The compact text of a value is read as that value. -/
theorem parse?_render {v : Value} (h : v.WellFormed) :
    parse? doubles (v.render doubles) = some (.ofValue v) := by
  rw [Value.render, ← Value.laidOut_compact doubles 0 v]
  exact parse?_laidOut (l := .compact doubles) hdoubles h

/-- The indented text of a value is read as that value. -/
theorem parse?_renderIndented {v : Value} (h : v.WellFormed) :
    parse? doubles (v.renderIndented doubles) = some (.ofValue v) := by
  rw [Value.renderIndented, ← Value.laidOut_indented doubles 0 v]
  exact parse?_laidOut (l := .indented doubles) hdoubles h

end

end FacetedSearch.Json
