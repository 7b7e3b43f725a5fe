import FacetedSearch.Proofs.Text.Numeral
import FacetedSearch.Text.Blank
import FacetedSearch.Text.Split
import Mathlib.Data.List.DropRight

/-!
# Trimmed texts and the parts of a list

Trimming takes the blanks around a text and no others, and is said here by what it leaves. A text
is cut into the only parts without the separator that it joins. A numeral is a run of digits,
with a plus sign or without.
-/

namespace FacetedSearch.Text

/-! ## Outer blanks -/

/-- Nothing but blanks. -/
def IsBlankText (s : String) : Prop := ∀ c ∈ s.toList, isBlank c = true

/-- The text neither begins nor ends with a blank. -/
def NoOuterBlank (s : String) : Prop :=
  (∀ c ∈ s.toList.head?, isBlank c = false) ∧ ∀ c ∈ s.toList.getLast?, isBlank c = false

/-- `t` is `s` without the blanks around it. -/
def IsTrimmed (s t : String) : Prop :=
  NoOuterBlank t ∧ ∃ before after, IsBlankText before ∧ IsBlankText after ∧ s = before ++ t ++ after

theorem trimChars_eq_rdropWhile (cs : List Char) :
    trimChars cs = (cs.dropWhile isBlank).rdropWhile isBlank := rfl

theorem head?_dropWhile_isBlank (cs : List Char) :
    ∀ c ∈ (cs.dropWhile isBlank).head?, isBlank c = false := by
  intro c hc
  have hhead := List.head?_dropWhile_not isBlank cs
  rw [hc] at hhead
  exact hhead

theorem noOuterBlank_trim (s : String) : NoOuterBlank (trim s) := by
  unfold NoOuterBlank trim
  rw [String.toList_ofList, trimChars_eq_rdropWhile]
  generalize hcs : s.toList.dropWhile isBlank = cs
  constructor
  · -- what is left on the right side begins as before, if anything is left
    intro c hc
    obtain ⟨rest, hrest⟩ := List.rdropWhile_prefix isBlank cs
    have hhead : c ∈ cs.head? := by
      rw [← hrest, List.head?_append_of_ne_nil _ (by rintro h; rw [h] at hc; cases hc)]
      exact hc
    exact head?_dropWhile_isBlank s.toList c (hcs ▸ hhead)
  · intro c hc
    have hne : cs.rdropWhile isBlank ≠ [] := by
      rintro h
      rw [h] at hc
      cases hc
    rw [List.getLast?_eq_some_getLast hne, Option.mem_some_iff] at hc
    have hlast := List.rdropWhile_last_not isBlank cs hne
    rw [hc] at hlast
    exact Bool.eq_false_iff.mpr hlast

theorem isTrimmed_trim (s : String) : IsTrimmed s (trim s) := by
  refine ⟨noOuterBlank_trim s, String.ofList (s.toList.takeWhile isBlank),
    String.ofList ((s.toList.dropWhile isBlank).rtakeWhile isBlank), ?_, ?_, ?_⟩
  · intro c hc
    rw [String.toList_ofList] at hc
    exact List.mem_takeWhile_imp hc
  · intro c hc
    rw [String.toList_ofList] at hc
    exact List.mem_rtakeWhile_imp hc
  · rw [← String.toList_inj]
    simp only [trim, String.toList_append, String.toList_ofList, trimChars_eq_rdropWhile]
    rw [List.append_assoc, List.rdropWhile_append_rtakeWhile, List.takeWhile_append_dropWhile]

theorem dropWhile_append_of_head? {p : Char → Bool} {cs : List Char}
    (h : ∀ c ∈ cs.head?, p c = false) {before : List Char} (hbefore : ∀ c ∈ before, p c = true) :
    (before ++ cs).dropWhile p = cs := by
  rw [List.dropWhile_append_of_pos hbefore]
  cases cs with
  | nil => rfl
  | cons c cs => rw [List.dropWhile_cons_of_neg (by rw [h c rfl]; decide)]

/-- There is one way to take the blanks around a text away. -/
theorem isTrimmed_iff {s t : String} : IsTrimmed s t ↔ trim s = t := by
  constructor
  · rintro ⟨⟨hhead, hlast⟩, before, after, hbefore, hafter, rfl⟩
    rw [← String.toList_inj]
    simp only [trim, String.toList_ofList, String.toList_append, trimChars, trimLeft]
    unfold IsBlankText at hbefore hafter
    generalize before.toList = bs at hbefore
    generalize t.toList = ts at hhead hlast
    generalize after.toList = as at hafter
    cases ts with
    | nil =>
        have hblank : (bs ++ [] ++ as).dropWhile isBlank = [] := by
          rw [List.append_nil, List.dropWhile_eq_nil_iff]
          intro c hc
          exact (List.mem_append.mp hc).elim (hbefore c) (hafter c)
        rw [hblank]
        rfl
    | cons c ts =>
        rw [List.append_assoc, dropWhile_append_of_head? (by simpa using hhead) hbefore,
          List.reverse_append, dropWhile_append_of_head? (by rw [List.head?_reverse]; exact hlast)
            (by simpa using hafter),
          List.reverse_reverse]
  · rintro rfl
    exact isTrimmed_trim s

theorem trim_of_isBlankText {s : String} (h : IsBlankText s) : trim s = "" := by
  refine isTrimmed_iff.mp ⟨⟨by simp, by simp⟩, s, "", h, by simp [IsBlankText], by simp⟩

theorem isBlankText_iff {s : String} : IsBlankText s ↔ trim s = "" := by
  refine ⟨trim_of_isBlankText, fun h => ?_⟩
  obtain ⟨-, before, after, hbefore, hafter, hs⟩ := isTrimmed_iff.mpr h
  intro c hc
  rw [hs] at hc
  simp only [String.toList_append, String.append_empty, List.mem_append] at hc
  exact hc.elim (hbefore c) (hafter c)

instance (s : String) : Decidable (IsBlankText s) :=
  decidable_of_iff (s.toList.all isBlank = true) List.all_eq_true

instance (s : String) : Decidable (NoOuterBlank s) :=
  decidable_of_iff ((s.toList.head?.all fun c => !isBlank c) = true ∧
      (s.toList.getLast?.all fun c => !isBlank c) = true)
    (by simp [NoOuterBlank, Option.all_eq_true])

/-! ## Parts -/

/-- The parts of a text between commas. -/
def IsSplit (s : String) (parts : List String) : Prop :=
  parts ≠ [] ∧ (∀ part ∈ parts, ',' ∉ part.toList) ∧ s = ",".intercalate parts

theorem splitChars_eq_splitOn (sep : Char) (cs : List Char) : splitChars sep cs = cs.splitOn sep := by
  induction cs with
  | nil => rfl
  | cons c cs ih =>
      rw [splitChars, ih, List.splitOn, List.splitOn, List.splitOnP_cons_eq_if_modifyHead]
      simp only [beq_iff_eq]
      split_ifs
      · rfl
      · cases hparts : List.splitOnP (fun x => x == sep) cs with
        | nil => exact absurd hparts (List.splitOnP_ne_nil _ _)
        | cons part parts => rfl

theorem split_of_isSplit {s : String} {parts : List String} (h : IsSplit s parts) :
    split ',' s = parts := by
  obtain ⟨hne, hparts, rfl⟩ := h
  have hchars : ∀ cs ∈ parts.map String.toList, ',' ∉ cs := by
    simpa [List.forall_mem_map] using hparts
  have hcomma : ",".toList = [','] := rfl
  rw [split, splitChars_eq_splitOn, String.toList_intercalate, hcomma,
    List.splitOn_intercalate ',' hchars (by simpa using hne), List.map_map]
  simp [Function.comp_def]

theorem not_mem_of_mem_splitChars {sep : Char} {cs part : List Char}
    (h : part ∈ splitChars sep cs) : sep ∉ part := by
  induction cs generalizing part with
  | nil =>
      obtain rfl := List.mem_singleton.mp h
      exact List.not_mem_nil
  | cons c cs ih =>
      rw [splitChars] at h
      split_ifs at h with hc
      · rcases List.mem_cons.mp h with rfl | h
        · exact List.not_mem_nil
        · exact ih h
      · split at h
        next =>
          obtain rfl := List.mem_singleton.mp h
          simpa [eq_comm] using hc
        next first rest heq =>
          rcases List.mem_cons.mp h with rfl | h
          · rw [List.mem_cons, not_or]
            exact ⟨Ne.symm hc, ih (heq ▸ List.mem_cons_self)⟩
          · exact ih (heq ▸ List.mem_cons_of_mem _ h)

theorem isSplit_split (s : String) : IsSplit s (split ',' s) := by
  have hcomma : ",".toList = [','] := rfl
  refine ⟨?_, ?_, ?_⟩
  · rw [split, Ne, List.map_eq_nil_iff, splitChars_eq_splitOn]
    exact List.splitOnP_ne_nil _ _
  · intro part hpart
    obtain ⟨cs, hcs, rfl⟩ := List.mem_map.mp hpart
    rw [String.toList_ofList]
    exact not_mem_of_mem_splitChars hcs
  · rw [← String.toList_inj, String.toList_intercalate, split, List.map_map, hcomma]
    have hid : String.toList ∘ String.ofList = id := by
      funext cs
      exact String.toList_ofList
    rw [hid, List.map_id, splitChars_eq_splitOn, List.intercalate_splitOn]

theorem isSplit_iff {s : String} {parts : List String} : IsSplit s parts ↔ split ',' s = parts :=
  ⟨split_of_isSplit, fun h => h ▸ isSplit_split s⟩

/-! ## Numerals -/

/-- A run of digits, with a plus sign or without, for a number below the limit. -/
def IsNumeral (limit : ℕ) (s : String) (n : ℕ) : Prop :=
  ∃ ds, (s.toList = ds ∨ s.toList = '+' :: ds) ∧ ds ≠ [] ∧ (∀ c ∈ ds, c.isDigit = true) ∧
    Nat.ofDigitChars 10 ds 0 = n ∧ n < limit

theorem numeralValue?_eq_some_iff {cs : List Char} {n : ℕ} :
    numeralValue? cs = some n ↔
      cs ≠ [] ∧ (∀ c ∈ cs, c.isDigit = true) ∧ Nat.ofDigitChars 10 cs 0 = n := by
  unfold numeralValue?
  rw [← digitsValue_eq]
  simp only [Option.ite_none_left_eq_some, Bool.or_eq_true, List.isEmpty_iff, List.any_eq_true,
    Bool.not_eq_true', not_or, not_exists, not_and, Bool.not_eq_false, Option.some_inj, and_assoc,
    ne_eq]

theorem natural?_eq_some_iff {limit : ℕ} {s : String} {n : ℕ} :
    natural? limit s = some n ↔ IsNumeral limit s n := by
  have hplus : '+'.isDigit = false := by decide
  have hfilter (cs : List Char) : (numeralValue? cs).filter (· < limit) = some n ↔
      cs ≠ [] ∧ (∀ c ∈ cs, c.isDigit = true) ∧ Nat.ofDigitChars 10 cs 0 = n ∧ n < limit := by
    rw [Option.filter_eq_some_iff, numeralValue?_eq_some_iff, decide_eq_true_eq]
    tauto
  unfold natural? IsNumeral
  split
  next cs heq =>
    rw [hfilter, heq]
    constructor
    · intro h
      exact ⟨cs, .inr rfl, h⟩
    · rintro ⟨ds, hds | hds, h⟩
      · -- a sign is no digit
        have hsign := h.2.1 '+' (hds ▸ List.mem_cons_self)
        rw [hplus] at hsign
        cases hsign
      · rwa [(List.cons.inj hds).2]
  next hnone =>
    rw [hfilter]
    constructor
    · intro h
      exact ⟨s.toList, .inl rfl, h⟩
    · rintro ⟨ds, hds | hds, h⟩
      · rwa [hds]
      · exact absurd hds (hnone ds)

end FacetedSearch.Text
