import FacetedSearch.Json.Parser
import FacetedSearch.Json.Writer
import FacetedSearch.Proofs.Decimal.ReadBack

/-!
# Numbers in texts

A number is written as digits, at times with a fraction and an exponent, and read up to the first
character that cannot belong to it. So a literal that is read from a text of its own is read in
front of whatever may follow a value. Whole numbers of 64 bits are read back, and finite doubles
are if the format of doubles is faithful.
-/

namespace FacetedSearch.Json

/-- Whether a text ends or goes on after a value. -/
def Delimited (rest : List Char) : Prop :=
  ∀ c ∈ rest.head?, isSpace c = true ∨ c = ',' ∨ c = ']' ∨ c = '\x7d'

theorem isSpace_eq_true_iff {c : Char} :
    isSpace c = true ↔ c = ' ' ∨ c = '\t' ∨ c = '\n' ∨ c = '\r' := by
  simp [isSpace, or_assoc]

/-- What stands after a value belongs to no number. -/
theorem Delimited.head? {rest : List Char} (h : Delimited rest) :
    ∀ c ∈ rest.head?, c.isDigit = false ∧ c ≠ '.' ∧ ¬ (c = 'e' ∨ c = 'E') := by
  intro c hc
  rcases h c hc with hspace | rfl | rfl | rfl
  · rcases isSpace_eq_true_iff.mp hspace with rfl | rfl | rfl | rfl <;> decide
  all_goals decide

/-! ## The parts of a literal -/

theorem literal?_eq_some_iff {cs rest : List Char} {n : Literal} :
    literal? cs = some (n, rest) ↔ n.negative = (splitMinus cs).1 ∧
      ∃ afterWhole, wholePart? (splitMinus cs).2 = some (n.whole, afterWhole) ∧
        ∃ afterFraction, fractionPart? afterWhole = some (n.fraction, afterFraction) ∧
          exponentPart? afterFraction = some (n.exponent, rest) := by
  obtain ⟨negative, whole, fraction, exponent⟩ := n
  unfold literal?
  simp only [Option.bind_eq_bind, Option.bind_eq_some_iff, Option.pure_def, Option.some_inj,
    Prod.exists, Prod.mk.injEq, Literal.mk.injEq]
  constructor
  · rintro ⟨w, afterWhole, hw, f, afterFraction, hf, e, r, he, ⟨rfl, rfl, rfl, rfl⟩, rfl⟩
    exact ⟨rfl, afterWhole, hw, afterFraction, hf, he⟩
  · rintro ⟨rfl, afterWhole, hw, afterFraction, hf, he⟩
    exact ⟨_, _, hw, _, _, hf, _, _, he, ⟨rfl, rfl, rfl, rfl⟩, rfl⟩

section Append

/-! Each part ends where the text goes on with something else. -/

variable {cs rest : List Char}

theorem spanDigits_append_right {ds after : List Char} (h : Decimal.spanDigits cs = (ds, after))
    (hrest : ∀ c ∈ rest.head?, c.isDigit = false) :
    Decimal.spanDigits (cs ++ rest) = (ds, after ++ rest) := by
  obtain ⟨rfl, rfl⟩ := Prod.mk.inj h
  have hafter : ∀ c ∈ (cs.dropWhile Char.isDigit ++ rest).head?, c.isDigit = false := by
    intro c hc
    cases hdrop : cs.dropWhile Char.isDigit with
    | nil =>
        rw [hdrop] at hc
        exact hrest c hc
    | cons d ds =>
        have hnot := List.head?_dropWhile_not Char.isDigit cs
        rw [hdrop] at hc hnot
        obtain rfl : d = c := Option.some_inj.mp hc
        exact hnot
  rw [← Decimal.spanDigits_append (fun c hc => List.all_eq_true.mp List.all_takeWhile c hc) hafter,
    ← List.append_assoc, List.takeWhile_append_dropWhile]

theorem wholePart?_append_right {whole after : List Char} (h : wholePart? cs = some (whole, after))
    (hrest : ∀ c ∈ rest.head?, c.isDigit = false) :
    wholePart? (cs ++ rest) = some (whole, after ++ rest) := by
  unfold wholePart? at h
  split at h
  next =>
    cases h
    rfl
  next hzero =>
    obtain ⟨ds, after', hspan⟩ : ∃ ds after', Decimal.spanDigits cs = (ds, after') := ⟨_, _, rfl⟩
    rw [hspan] at h
    dsimp only at h
    split_ifs at h with hempty
    obtain ⟨rfl, rfl⟩ := Prod.mk.inj (Option.some.inj h)
    cases cs with
    | nil =>
        cases hspan
        exact absurd rfl hempty
    | cons c cs =>
        have hlonger := spanDigits_append_right hspan hrest
        rw [List.cons_append] at hlonger ⊢
        unfold wholePart?
        split
        next heq =>
          obtain rfl := (List.cons.inj heq).1
          exact absurd rfl (hzero cs)
        next =>
          rw [hlonger]
          exact if_neg hempty

theorem fractionPart?_append_right {fraction : Option (List Char)} {after : List Char}
    (h : fractionPart? cs = some (fraction, after))
    (hrest : ∀ c ∈ rest.head?, c.isDigit = false ∧ c ≠ '.') :
    fractionPart? (cs ++ rest) = some (fraction, after ++ rest) := by
  unfold fractionPart? at h
  split at h
  next cs =>
    obtain ⟨ds, after', hspan⟩ : ∃ ds after', Decimal.spanDigits cs = (ds, after') := ⟨_, _, rfl⟩
    rw [hspan] at h
    dsimp only at h
    split_ifs at h with hempty
    obtain ⟨rfl, rfl⟩ := Prod.mk.inj (Option.some.inj h)
    simp only [List.cons_append, fractionPart?,
      spanDigits_append_right hspan fun c hc => (hrest c hc).1]
    exact if_neg hempty
  next hpoint =>
    obtain ⟨rfl, rfl⟩ := Prod.mk.inj (Option.some.inj h)
    unfold fractionPart?
    split
    next heq =>
      cases cs with
      | nil => exact absurd rfl (hrest '.' (by rw [show rest = _ from heq]; rfl)).2
      | cons c cs =>
          obtain rfl := (List.cons.inj heq).1
          exact absurd rfl (hpoint cs)
    next => rfl

theorem splitSign_append (hcs : cs ≠ []) :
    Decimal.splitSign (cs ++ rest) =
      ((Decimal.splitSign cs).1, (Decimal.splitSign cs).2 ++ rest) := by
  cases cs with
  | nil => exact absurd rfl hcs
  | cons c cs =>
      unfold Decimal.splitSign
      rw [List.cons_append]
      split
      next heq =>
        obtain ⟨rfl, rfl⟩ := List.cons.inj heq
        rfl
      next heq =>
        obtain ⟨rfl, rfl⟩ := List.cons.inj heq
        rfl
      next hminus hplus =>
        split
        next heq =>
          obtain ⟨rfl, rfl⟩ := List.cons.inj heq
          exact absurd rfl (hminus _)
        next heq =>
          obtain ⟨rfl, rfl⟩ := List.cons.inj heq
          exact absurd rfl (hplus _)
        next => rfl

theorem exponentPart?_append_right {exponent : Option ℤ} {after : List Char}
    (h : exponentPart? cs = some (exponent, after)) (hrest : Delimited rest) :
    exponentPart? (cs ++ rest) = some (exponent, after ++ rest) := by
  cases cs with
  | nil =>
      cases h
      cases rest with
      | nil => rfl
      | cons c cs => exact if_neg (hrest.head? c rfl).2.2
  | cons c cs =>
      rw [exponentPart?] at h
      split_ifs at h with hmark
      · obtain ⟨ds, after', hspan⟩ :
            ∃ ds after', Decimal.spanDigits (Decimal.splitSign cs).2 = (ds, after') := ⟨_, _, rfl⟩
        simp only [hspan] at h
        have hempty : ¬ ds.isEmpty = true := fun hempty => by simp [hempty] at h
        rw [if_neg hempty] at h
        obtain ⟨rfl, rfl⟩ := Prod.mk.inj (Option.some.inj h)
        have hcs : cs ≠ [] := by
          rintro rfl
          cases hspan
          exact hempty rfl
        simp only [List.cons_append, exponentPart?, if_pos hmark, splitSign_append hcs,
          spanDigits_append_right hspan fun c hc => (hrest.head? c hc).1]
        exact if_neg hempty
      · obtain ⟨rfl, rfl⟩ := Prod.mk.inj (Option.some.inj h)
        exact if_neg hmark

theorem splitMinus_append (hcs : cs ≠ []) :
    splitMinus (cs ++ rest) = ((splitMinus cs).1, (splitMinus cs).2 ++ rest) := by
  cases cs with
  | nil => exact absurd rfl hcs
  | cons c cs =>
      unfold splitMinus
      rw [List.cons_append]
      split
      next heq =>
        obtain ⟨rfl, rfl⟩ := List.cons.inj heq
        rfl
      next hminus =>
        split
        next heq =>
          obtain ⟨rfl, rfl⟩ := List.cons.inj heq
          exact absurd rfl (hminus _)
        next => rfl

/-- A literal is read in front of whatever may follow a value. -/
theorem literal?_append_right {n : Literal} (h : literal? cs = some (n, []))
    (hrest : Delimited rest) : literal? (cs ++ rest) = some (n, rest) := by
  obtain ⟨hsign, afterWhole, hwhole, afterFraction, hfraction, hexponent⟩ :=
    literal?_eq_some_iff.mp h
  have hcs : cs ≠ [] := by
    rintro rfl
    cases hwhole
  have hmark := exponentPart?_append_right hexponent hrest
  have hpoint := fractionPart?_append_right hfraction
    fun c hc => ⟨(hrest.head? c hc).1, (hrest.head? c hc).2.1⟩
  have hdigits := wholePart?_append_right hwhole fun c hc => (hrest.head? c hc).1
  refine literal?_eq_some_iff.mpr ⟨?_, _, ?_, _, hpoint, hmark⟩
  · rw [splitMinus_append hcs, hsign]
  · rw [splitMinus_append hcs, hdigits]

end Append

/-- The first character of a literal. -/
theorem exists_cons_of_literal? {cs rest : List Char} {n : Literal}
    (h : literal? cs = some (n, rest)) :
    ∃ c ds, cs = c :: ds ∧ (c = '-' ∨ c.isDigit = true) := by
  obtain ⟨-, afterWhole, hwhole, -⟩ := literal?_eq_some_iff.mp h
  cases cs with
  | nil => cases hwhole
  | cons c ds =>
      refine ⟨c, ds, rfl, or_iff_not_imp_left.mpr fun hminus => ?_⟩
      have hsplit : splitMinus (c :: ds) = (false, c :: ds) := by
        unfold splitMinus
        split
        next heq => exact absurd (List.cons.inj heq).1 hminus
        next => rfl
      rw [hsplit] at hwhole
      unfold wholePart? at hwhole
      split at hwhole
      next heq =>
        obtain rfl := (List.cons.inj heq).1
        rfl
      next =>
        by_contra hdigit
        have hspan : Decimal.spanDigits (c :: ds) = ([], c :: ds) := by
          rw [Decimal.spanDigits, List.takeWhile_cons_of_neg hdigit,
            List.dropWhile_cons_of_neg hdigit]
        rw [hspan] at hwhole
        cases hwhole

/-! ## Numbers -/

/-- The numbers that a text can carry: whole ones of 64 bits and finite doubles. -/
def Number.WellFormed : Number → Prop
  | .whole n => -(Text.wordLimit / 2 : ℕ) ≤ n ∧ n < Text.wordLimit
  | .double x => x.isFinite = true

instance : DecidablePred Number.WellFormed
  | .whole n =>
    inferInstanceAs (Decidable (-(Text.wordLimit / 2 : ℕ) ≤ n ∧ n < Text.wordLimit))
  | .double x => inferInstanceAs (Decidable (x.isFinite = true))

/-- Whether what is written for a finite double is read as that double. -/
def DoubleFormat.Faithful (f : DoubleFormat) : Prop :=
  ∀ x : Float, x.isFinite = true → Json.number? f (f.chars x) = some (some (.double x), [])

/-- A number is read in front of whatever may follow a value. -/
theorem number?_append_right {doubles : DoubleFormat} {cs rest : List Char} {n : Option Number}
    (h : number? doubles cs = some (n, [])) (hrest : Delimited rest) :
    number? doubles (cs ++ rest) = some (n, rest) := by
  obtain ⟨⟨l, after⟩, hliteral, hnumber⟩ := Option.map_eq_some_iff.mp h
  obtain ⟨rfl, rfl⟩ := Prod.mk.inj hnumber
  rw [number?, literal?_append_right hliteral hrest, Option.map_some]

/-! ## What is written -/

/-- The parts of a number as it is written, without its sign. -/
structure Numeral where
  whole : List Char
  fraction : Option (List Char)
  exponent : Option ℤ
  whole_spec : whole = ['0'] ∨ Decimal.IsDigits whole
  fraction_spec : ∀ ds ∈ fraction, ds ≠ [] ∧ ∀ c ∈ ds, c.isDigit = true

namespace Numeral

def fractionText : Option (List Char) → List Char
  | none => []
  | some ds => '.' :: ds

def exponentText : Option ℤ → List Char
  | none => []
  | some e => 'e' :: (if e < 0 then '-' else '+') :: Text.digits e.natAbs

def chars (n : Numeral) : List Char :=
  n.whole ++ (fractionText n.fraction ++ exponentText n.exponent)

def literal (n : Numeral) (negative : Bool) : Literal where
  negative := negative
  whole := n.whole
  fraction := n.fraction
  exponent := n.exponent

/-- The number with these digits before and after the point. -/
def withFraction (whole ds : List Char) (exponent : Option ℤ)
    (hwhole : whole = ['0'] ∨ Decimal.IsDigits whole) (hne : ds ≠ [])
    (hds : ∀ c ∈ ds, c.isDigit = true) : Numeral where
  whole := whole
  fraction := some ds
  exponent := exponent
  whole_spec := hwhole
  fraction_spec := by
    intro cs hcs
    obtain rfl := Option.mem_some.mp hcs
    exact ⟨hne, hds⟩

/-- The digits of a whole number. -/
def ofNat (n : ℕ) : Numeral where
  whole := Text.digits n
  fraction := none
  exponent := none
  whole_spec := by
    by_cases hn : n = 0
    · exact .inl (by rw [hn, Text.digits_zero])
    · exact .inr ⟨Text.digits_ne_nil n, fun _ => Text.isDigit_of_mem_digits,
        Text.head?_digits_ne_zero hn⟩
  fraction_spec := by simp

/-- The first character of a number. -/
theorem exists_chars_eq (n : Numeral) : ∃ c cs, n.chars = c :: cs ∧ c.isDigit = true := by
  obtain ⟨whole, fraction, exponent, hwhole, -⟩ := n
  rcases hwhole with rfl | hdigits
  · exact ⟨'0', _, rfl, by decide⟩
  · cases whole with
    | nil => exact absurd rfl hdigits.ne_nil
    | cons c cs => exact ⟨c, _, rfl, hdigits.isDigit c (List.mem_cons_self ..)⟩

end Numeral

theorem spanDigits_digits {ds : List Char} (h : ∀ c ∈ ds, c.isDigit = true) :
    Decimal.spanDigits ds = (ds, []) := by
  have hspan : Decimal.spanDigits (ds ++ []) = (ds, []) := Decimal.spanDigits_append h (by simp)
  rwa [List.append_nil] at hspan

theorem wholePart?_digits {ds : List Char} (h : ds = ['0'] ∨ Decimal.IsDigits ds) :
    wholePart? ds = some (ds, []) := by
  rcases h with rfl | hdigits
  · rfl
  · unfold wholePart?
    split
    next => exact absurd rfl hdigits.leading
    next =>
      rw [spanDigits_digits hdigits.isDigit]
      exact if_neg (by simpa using hdigits.ne_nil)

theorem fractionPart?_fractionText {fraction : Option (List Char)}
    (h : ∀ ds ∈ fraction, ds ≠ [] ∧ ∀ c ∈ ds, c.isDigit = true) :
    fractionPart? (Numeral.fractionText fraction) = some (fraction, []) := by
  cases fraction with
  | none => rfl
  | some ds =>
      obtain ⟨hne, hdigit⟩ := h ds rfl
      simp only [Numeral.fractionText, fractionPart?, spanDigits_digits hdigit]
      exact if_neg (by simpa using hne)

theorem splitSign_cons (e : ℤ) (cs : List Char) :
    Decimal.splitSign ((if e < 0 then '-' else '+') :: cs) = (decide (e < 0), cs) := by
  by_cases he : e < 0
  · rw [if_pos he, decide_eq_true he]
    rfl
  · rw [if_neg he, decide_eq_false he]
    rfl

theorem exponentPart?_exponentText (exponent : Option ℤ) :
    exponentPart? (Numeral.exponentText exponent) = some (exponent, []) := by
  cases exponent with
  | none => rfl
  | some e =>
      have hspan := spanDigits_digits fun _ => Text.isDigit_of_mem_digits (n := e.natAbs)
      have hempty : (Text.digits e.natAbs).isEmpty = false :=
        List.isEmpty_eq_false_iff.mpr (Text.digits_ne_nil _)
      have hvalue : (if decide (e < 0) = true then -(e.natAbs : ℤ) else e.natAbs) = e := by
        simp only [decide_eq_true_eq]
        split <;> omega
      simp only [exponentPart?, Numeral.exponentText, true_or, if_true, splitSign_cons, hspan,
        hempty, Bool.false_eq_true, if_false, Text.digitsValue_digits, hvalue]

theorem head?_exponentText (exponent : Option ℤ) :
    ∀ c ∈ (Numeral.exponentText exponent).head?, c.isDigit = false ∧ c ≠ '.' := by
  cases exponent with
  | none => simp [Numeral.exponentText]
  | some e =>
      intro c hc
      obtain rfl : 'e' = c := Option.some_inj.mp hc
      decide

theorem head?_fractionText_append (fraction : Option (List Char)) {rest : List Char}
    (h : ∀ c ∈ rest.head?, c.isDigit = false) :
    ∀ c ∈ (Numeral.fractionText fraction ++ rest).head?, c.isDigit = false := by
  cases fraction with
  | none => exact h
  | some ds =>
      intro c hc
      obtain rfl : '.' = c := Option.some_inj.mp hc
      decide

theorem splitMinus_signText_append (n : Numeral) (negative : Bool) :
    splitMinus (Decimal.signText negative ++ n.chars) = (negative, n.chars) := by
  cases negative with
  | true => rfl
  | false =>
      obtain ⟨c, cs, hchars, hc⟩ := n.exists_chars_eq
      rw [hchars]
      change splitMinus (c :: cs) = _
      unfold splitMinus
      split
      next heq =>
        -- a digit is no sign
        obtain rfl := (List.cons.inj heq).1
        exact absurd hc (by decide)
      next => rfl

/-- A number is read as its parts. -/
theorem literal?_chars (n : Numeral) (negative : Bool) :
    literal? (Decimal.signText negative ++ n.chars) = some (n.literal negative, []) := by
  have hexponent := head?_exponentText n.exponent
  have hpoint := fractionPart?_append_right (fractionPart?_fractionText n.fraction_spec) hexponent
  have hwhole := wholePart?_append_right (wholePart?_digits n.whole_spec)
    (head?_fractionText_append n.fraction fun c hc => (hexponent c hc).1)
  rw [literal?_eq_some_iff, splitMinus_signText_append]
  exact ⟨rfl, _, hwhole, _, hpoint, exponentPart?_exponentText n.exponent⟩

theorem chars_whole (doubles : DoubleFormat) (n : ℤ) :
    (Number.whole n).chars doubles =
      Decimal.signText (decide (n < 0)) ++ (Numeral.ofNat n.natAbs).chars := by
  unfold Number.chars Numeral.chars Numeral.ofNat Decimal.signText
  by_cases hn : n < 0 <;> simp [hn, Numeral.fractionText, Numeral.exponentText]

theorem whole?_literal {n : ℤ} (h : (Number.whole n).WellFormed) :
    ((Numeral.ofNat n.natAbs).literal (decide (n < 0))).whole? = some n := by
  obtain ⟨hlow, hhigh⟩ := h
  have hsize : Text.digitsValue 0 (Text.digits n.natAbs) = n.natAbs := Text.digitsValue_digits _
  simp only [Literal.whole?, Numeral.literal, Numeral.ofNat, Literal.isPointed, Option.isSome_none,
    Bool.or_self, Bool.false_eq_true, if_false, hsize, decide_eq_true_eq]
  by_cases hn : n < 0
  · have hpos : 0 < n.natAbs := by omega
    have hle : n.natAbs ≤ Text.wordLimit / 2 := by omega
    have habs : -(n.natAbs : ℤ) = n := by omega
    rw [if_pos hn, if_pos ⟨hpos, hle⟩, habs]
  · have hlt : n.natAbs < Text.wordLimit := by omega
    have habs : (n.natAbs : ℤ) = n := by omega
    rw [if_neg hn, if_pos hlt, habs]

section

variable {doubles : DoubleFormat} (hdoubles : doubles.Faithful)

include hdoubles

theorem number?_chars {n : Number} (hn : n.WellFormed) :
    number? doubles (n.chars doubles) = some (some n, []) := by
  cases n with
  | whole n =>
      rw [chars_whole, number?, literal?_chars, Option.map_some, DoubleFormat.number?,
        whole?_literal hn]
  | double x =>
      rw [show (Number.double x).chars doubles = doubles.chars x from if_pos hn]
      exact hdoubles x hn

/-- A number that is written is read back, up to where the text goes on. -/
theorem number?_number {n : Number} (hn : n.WellFormed) {rest : List Char} (h : Delimited rest) :
    number? doubles (n.chars doubles ++ rest) = some (some n, rest) :=
  number?_append_right (number?_chars hdoubles hn) h

/-- The first character of a number that is written. -/
theorem Number.exists_chars_eq {n : Number} (hn : n.WellFormed) :
    ∃ c cs, n.chars doubles = c :: cs ∧ (c = '-' ∨ c.isDigit = true) := by
  obtain ⟨_, hliteral, -⟩ := Option.map_eq_some_iff.mp (number?_chars hdoubles hn)
  exact exists_cons_of_literal? hliteral

end

end FacetedSearch.Json
