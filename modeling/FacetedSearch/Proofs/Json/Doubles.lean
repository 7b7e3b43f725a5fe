import FacetedSearch.Proofs.Json.Number

/-!
# The shortest digits are read back

In the format in which the shortest digits of a double are written and the nearest double is read,
each finite double is read back.
-/

namespace FacetedSearch.Json

/-- Whether a text is written for the value of a decimal, in a form that makes it a double. -/
def Spells (cs : List Char) (d : Decimal) : Prop :=
  ∃ n : Numeral, n.chars = cs ∧ (n.literal false).isPointed = true ∧
    (n.literal false).decimal.value = d.value

theorem isDigit_of_mem_zeros {z : ℕ} {c : Char} (h : c ∈ List.replicate z '0') :
    c.isDigit = true := by
  rw [List.eq_of_mem_replicate h]
  decide

theorem spells_below_point {ds : List Char} (h : Decimal.IsDigits ds) (z : ℕ) :
    Spells ('0' :: '.' :: (List.replicate z '0' ++ ds))
      ⟨Text.digitsValue 0 ds, -(z + ds.length : ℕ)⟩ := by
  have hfraction : ∀ c ∈ List.replicate z '0' ++ ds, c.isDigit = true :=
    List.forall_mem_append.mpr ⟨fun _ => isDigit_of_mem_zeros, h.isDigit⟩
  refine ⟨.withFraction ['0'] _ none (.inl rfl) (List.append_ne_nil_of_right_ne_nil _ h.ne_nil)
    hfraction, ?_, rfl, ?_⟩
  · simp [Numeral.chars, Numeral.withFraction, Numeral.fractionText, Numeral.exponentText]
  · have hdigits : Text.digitsValue 0 (['0'] ++ (List.replicate z '0' ++ ds)) =
        Text.digitsValue 0 ds := by
      rw [← List.append_assoc, Text.digitsValue_append, show ['0'] = List.replicate 1 '0' from rfl,
        List.replicate_append_replicate, Text.digitsValue_replicate_zero, Nat.mul_zero,
        Nat.mul_zero, Nat.zero_add]
    simp only [Literal.decimal, Numeral.literal, Numeral.withFraction, Option.getD_some,
      Option.getD_none, hdigits, List.length_append, List.length_replicate, zero_sub]

theorem spells_whole {ds : List Char} (h : Decimal.IsDigits ds) (z : ℕ) :
    Spells (ds ++ List.replicate z '0' ++ ['.', '0']) ⟨Text.digitsValue 0 ds, z⟩ := by
  have hwhole : Decimal.IsDigits (ds ++ List.replicate z '0') := by
    refine ⟨List.append_ne_nil_of_left_ne_nil h.ne_nil _,
      List.forall_mem_append.mpr ⟨h.isDigit, fun _ => isDigit_of_mem_zeros⟩, ?_⟩
    rw [List.head?_append_of_ne_nil _ h.ne_nil]
    exact h.leading
  refine ⟨.withFraction _ ['0'] none (.inr hwhole) (List.cons_ne_nil _ _)
    (List.forall_mem_singleton.mpr (by decide)), ?_, rfl, ?_⟩
  · simp [Numeral.chars, Numeral.withFraction, Numeral.fractionText, Numeral.exponentText]
  · have hdigits : Text.digitsValue 0 (ds ++ List.replicate z '0' ++ ['0']) =
        10 ^ (z + 1) * Text.digitsValue 0 ds := by
      rw [List.append_assoc, show ['0'] = List.replicate 1 '0' from rfl,
        List.replicate_append_replicate, Text.digitsValue_append, Text.digitsValue_replicate_zero,
        List.length_replicate, Nat.mul_zero, Nat.add_zero]
    simp only [Literal.decimal, Numeral.literal, Numeral.withFraction, Option.getD_some,
      Option.getD_none, hdigits, Decimal.value]
    rw [zero_sub, List.length_singleton, Nat.cast_one, zpow_neg_one, zpow_natCast]
    push_cast
    field_simp
    ring

theorem spells_inside {ds : List Char} (h : Decimal.IsDigits ds) {p : ℕ} (hpos : 0 < p)
    (hlt : p < ds.length) :
    Spells (ds.take p ++ '.' :: ds.drop p)
      ⟨Text.digitsValue 0 ds, -(ds.length - p : ℕ)⟩ := by
  have hwhole : Decimal.IsDigits (ds.take p) := by
    refine ⟨?_, fun c hc => h.isDigit c (List.mem_of_mem_take hc), ?_⟩
    · rw [Ne, List.take_eq_nil_iff]
      exact fun hnil => hnil.elim hpos.ne' h.ne_nil
    · rw [List.head?_take, if_neg hpos.ne']
      exact h.leading
  have hfraction : ds.drop p ≠ [] := by
    rw [Ne, List.drop_eq_nil_iff, Nat.not_le]
    exact hlt
  refine ⟨.withFraction _ _ none (.inr hwhole) hfraction
    fun c hc => h.isDigit c (List.mem_of_mem_drop hc), ?_, rfl, ?_⟩
  · simp [Numeral.chars, Numeral.withFraction, Numeral.fractionText, Numeral.exponentText]
  · simp only [Literal.decimal, Numeral.literal, Numeral.withFraction, Option.getD_some,
      Option.getD_none, List.take_append_drop, List.length_drop, zero_sub]

theorem spells_exponent {ds : List Char} (h : Decimal.IsDigits ds) (e : ℤ) :
    Spells (Decimal.exponentText ds e) ⟨Text.digitsValue 0 ds, e + 1 - ds.length⟩ := by
  cases ds with
  | nil => exact absurd rfl h.ne_nil
  | cons c cs =>
      obtain ⟨hc, hcs⟩ := List.forall_mem_cons.mp h.isDigit
      have hwhole : Decimal.IsDigits [c] :=
        ⟨List.cons_ne_nil _ _, List.forall_mem_singleton.mpr hc, h.leading⟩
      cases cs with
      | nil =>
          refine ⟨⟨[c], none, some e, .inr hwhole, by simp⟩, rfl, rfl, ?_⟩
          simp [Literal.decimal, Numeral.literal]
      | cons d ds =>
          refine ⟨.withFraction [c] (d :: ds) (some e) (.inr hwhole) (List.cons_ne_nil _ _) hcs,
            rfl, rfl, ?_⟩
          have hexponent : e - ((d :: ds).length : ℤ) = e + 1 - (c :: d :: ds).length := by
            simp only [List.length_cons]
            omega
          simp only [Literal.decimal, Numeral.literal, Numeral.withFraction, Option.getD_some,
            List.singleton_append, hexponent]

theorem spells_positionalText {ds : List Char} (h : Decimal.IsDigits ds) (unit : ℤ) :
    Spells (Decimal.positionalText true ds (unit + ds.length)) ⟨Text.digitsValue 0 ds, unit⟩ := by
  unfold Decimal.positionalText
  by_cases hbelow : unit + ds.length ≤ 0
  · have hunit : unit = -((-(unit + ds.length)).toNat + ds.length : ℕ) := by omega
    rw [if_pos hbelow]
    nth_rewrite 2 [hunit]
    exact spells_below_point h _
  · rw [if_neg hbelow]
    by_cases hwhole : ds.length ≤ (unit + ds.length).toNat
    · have hunit : unit = ((unit + ds.length).toNat - ds.length : ℕ) := by omega
      rw [if_pos hwhole, if_pos rfl]
      nth_rewrite 2 [hunit]
      exact spells_whole h _
    · have hunit : unit = -(ds.length - (unit + ds.length).toNat : ℕ) := by omega
      rw [if_neg hwhole]
      nth_rewrite 3 [hunit]
      exact spells_inside h (by omega) (by omega)

/-- The text of a decimal in a document, as it stands between a sign and what follows. -/
theorem spells_document {d : Decimal} (h : d.digits ≠ 0) :
    Spells (Decimal.Layout.document.digits d) d := by
  obtain ⟨ds, unit, hsignificant, hdigits, hvalue⟩ := Decimal.significant_spec h
  suffices Spells (Decimal.Layout.document.digits d) ⟨Text.digitsValue 0 ds, unit⟩ by
    obtain ⟨n, hchars, hdouble, hn⟩ := this
    exact ⟨n, hchars, hdouble, hn.trans hvalue⟩
  unfold Decimal.Layout.digits
  rw [hsignificant]
  dsimp only
  split
  · rw [show unit + ds.length - 1 + 1 = unit + ds.length by omega]
    exact spells_positionalText hdigits unit
  · have hunit : unit = unit + ds.length - 1 + 1 - ds.length := by omega
    nth_rewrite 2 [hunit]
    exact spells_exponent hdigits _

theorem spells_zero : Spells ['0', '.', '0'] ⟨0, 0⟩ := by
  refine ⟨.withFraction ['0'] ['0'] none (.inl rfl) (List.cons_ne_nil _ _)
    (List.forall_mem_singleton.mpr (by decide)), rfl, rfl, ?_⟩
  have hdigits : Text.digitsValue 0 ['0', '0'] = 0 := by decide
  simp [Literal.decimal, Numeral.literal, Numeral.withFraction, Decimal.value, hdigits]

/-- The text of a finite double is its sign and a number whose nearest double it is. -/
theorem exists_numeral_double {x : Float} (h : x.isFinite = true) :
    ∃ negative, ∃ n : Numeral, Decimal.Layout.document.chars x =
        Decimal.signText negative ++ n.chars ∧
      (n.literal negative).isPointed = true ∧
      (n.literal negative).decimal.nearest = Double.withSign negative x := by
  obtain ⟨negative, num, k, hvalue, hnearest, hunits⟩ := Double.value_of_isFinite h
  suffices ∃ d : Decimal, d.nearest = Double.withSign negative x ∧
      ∃ cs, Decimal.Layout.document.chars x = Decimal.signText negative ++ cs ∧ Spells cs d by
    obtain ⟨d, hd, cs, hcs, n, rfl, hpointed, hn⟩ := this
    exact ⟨negative, n, hcs, hpointed, (Decimal.nearest_congr hn).trans hd⟩
  unfold Decimal.Layout.chars
  rw [hvalue]
  by_cases hnum : num = 0
  · refine ⟨⟨0, 0⟩, ?_, ['0', '.', '0'], by simp [hnum]; rfl, spells_zero⟩
    refine (Decimal.isNearest_nearest ⟨0, 0⟩).unique ?_
    rw [hnum] at hnearest
    exact hnearest.congr (Nat.two_pow_pos k) Nat.one_pos (by simp)
  · refine ⟨_, Decimal.nearest_shortest .even hnearest, _, by simp only [if_neg hnum]; rfl, ?_⟩
    exact spells_document (Decimal.digits_shortest_ne_zero .even hnum hnearest hunits)

theorem DoubleFormat.faithful_shortest : DoubleFormat.shortest.Faithful := by
  intro x hfinite
  obtain ⟨negative, n, hchars, hpointed, hnearest⟩ := exists_numeral_double hfinite
  have hwhole : (n.literal negative).whole? = none := if_pos hpointed
  have hread : DoubleFormat.shortest.read? (n.literal negative) = some x := by
    change (if (n.literal negative).decimal.nearest.isFinite = true then _ else _) = _
    rw [hnearest, if_pos (by rw [Double.isFinite_withSign, hfinite])]
    exact congrArg some (Double.withSign_withSign negative x)
  change Json.number? .shortest (Decimal.Layout.document.chars x) = _
  rw [hchars, Json.number?, literal?_chars, Option.map_some, DoubleFormat.number?, hwhole]
  dsimp only
  rw [hread, Option.map_some]

end FacetedSearch.Json
