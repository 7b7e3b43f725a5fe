import FacetedSearch.Decimal.Reader
import FacetedSearch.Decimal.Shortest
import FacetedSearch.Proofs.Double.Value
import FacetedSearch.Proofs.Text.Numeral

/-!
# Shortest decimals

The decimal that is written for a double is read as that double: each candidate is taken only
where it is, and so is the exact value that stands in for them. Its significant digits begin and
end without zeros and keep its value.
-/

namespace FacetedSearch.Decimal

open Double

theorem nearest_of_ofDigitCount? {tie : Tie} {x : Float} {num den : ℕ} {e : ℤ} {n : ℕ}
    {d : Decimal} (h : ofDigitCount? tie x num den e n = some d) : d.nearest = x := by
  unfold ofDigitCount? at h
  extract_lets unit scaledNum scaledDen below lower upper at h
  suffices (d = lower ∧ lower.nearest = x) ∨ (d = upper ∧ upper.nearest = x) by
    rcases this with ⟨rfl, hd⟩ | ⟨rfl, hd⟩ <;> exact hd
  split at h
  next hlower hupper =>
    -- both neighbours stand for `x`, so it does not matter which one the tie takes
    have hboth : d = lower ∨ d = upper := by
      split at h
      · exact .inl (Option.some_inj.mp h).symm
      · exact .inr (Option.some_inj.mp h).symm
      · exact .inr (Option.some_inj.mp h).symm
      · have hd := (Option.some_inj.mp h).symm
        split at hd
        exacts [.inl hd, .inr hd]
    exact hboth.imp (⟨·, of_decide_eq_true hlower⟩) (⟨·, of_decide_eq_true hupper⟩)
  next hlower _ => exact .inl ⟨(Option.some_inj.mp h).symm, of_decide_eq_true hlower⟩
  next _ hupper => exact .inr ⟨(Option.some_inj.mp h).symm, of_decide_eq_true hupper⟩
  next => cases h

/-- The decimal that is written for a double is read as that double. -/
theorem nearest_shortest (tie : Tie) {x : Float} {num k : ℕ} (h : IsNearest x num (2 ^ k)) :
    (shortest tie x num (2 ^ k)).nearest = x := by
  unfold shortest
  extract_lets e
  cases hfind : (List.range' 1 17).findSome? (ofDigitCount? tie x num (2 ^ k) e) with
  | none => exact nearest_exact h
  | some d =>
      obtain ⟨n, -, hn⟩ := List.exists_of_findSome?_eq_some hfind
      exact nearest_of_ofDigitCount? hn

/-- A decimal without digits is read as zero. -/
theorem units_nearest_of_digits_eq_zero {d : Decimal} (h : d.digits = 0) : units d.nearest = 0 := by
  have hzero := d.isNearest_nearest.units
  rw [h, Nat.zero_mul, Nat.zero_mul, roundUnits_natCast, nearest_zero_left, Nat.zero_min] at hzero
  exact hzero

theorem digits_shortest_ne_zero (tie : Tie) {x : Float} {num k : ℕ} (hnum : num ≠ 0)
    (h : IsNearest x num (2 ^ k)) (hunits : units x * (2 ^ k : ℕ) = (num * unitsPerOne : ℕ)) :
    (shortest tie x num (2 ^ k)).digits ≠ 0 := by
  intro hdigits
  have hzero := units_nearest_of_digits_eq_zero hdigits
  rw [nearest_shortest tie h] at hzero
  rw [hzero, Int.zero_mul, eq_comm, Int.natCast_eq_zero] at hunits
  exact (Nat.mul_ne_zero hnum unitsPerOne_pos.ne') hunits

/-! ## Significant digits -/

theorem dropFinalZeros_spec (cs : List Char) (e : ℤ) :
    ∃ ds n, dropFinalZeros cs e = (ds, e + (n : ℕ)) ∧ cs = List.replicate n '0' ++ ds := by
  induction cs generalizing e with
  | nil => exact ⟨[], 0, by simp [dropFinalZeros], rfl⟩
  | cons c cs ih =>
      by_cases hc : c = '0'
      · obtain ⟨ds, n, hdrop, rfl⟩ := ih (e + 1)
        refine ⟨ds, n + 1, ?_, by rw [hc]; rfl⟩
        rw [hc, dropFinalZeros, hdrop]
        congr 1
        omega
      · refine ⟨c :: cs, 0, ?_, rfl⟩
        rw [dropFinalZeros]
        · simp
        · simpa using hc

/-! ## Runs of digits -/

theorem spanDigits_append {ds rest : List Char} (hds : ∀ c ∈ ds, c.isDigit = true)
    (hrest : ∀ c ∈ rest.head?, c.isDigit = false) :
    spanDigits (ds ++ rest) = (ds, rest) := by
  unfold spanDigits
  rw [List.takeWhile_append_of_pos hds, List.dropWhile_append_of_pos hds]
  cases rest with
  | nil => simp
  | cons c cs =>
      have hc : ¬ c.isDigit = true := by rw [hrest c rfl]; decide
      rw [List.takeWhile_cons_of_neg hc, List.dropWhile_cons_of_neg hc, List.append_nil]

/-- A run of digits that does not begin with zero, as it is written for a number. -/
structure IsDigits (ds : List Char) : Prop where
  ne_nil : ds ≠ []
  isDigit : ∀ c ∈ ds, c.isDigit = true
  leading : ds.head? ≠ some '0'

/-- The significant digits of a decimal that is not zero stand for its value. -/
theorem significant_spec {d : Decimal} (h : d.digits ≠ 0) :
    ∃ ds unit, d.significant = (ds, unit) ∧ IsDigits ds ∧
      (Decimal.mk (Text.digitsValue 0 ds) unit).value = d.value := by
  obtain ⟨cs, n, hdrop, hcs⟩ := dropFinalZeros_spec (Text.digits d.digits).reverse d.exponent
  have hdigits : Text.digits d.digits = cs.reverse ++ List.replicate n '0' := by
    rw [← List.reverse_reverse (Text.digits d.digits), hcs, List.reverse_append,
      List.reverse_replicate]
  have hvalue : d.digits = 10 ^ n * Text.digitsValue 0 cs.reverse := by
    rw [← Text.digitsValue_digits d.digits, hdigits, Text.digitsValue_append,
      Text.digitsValue_replicate_zero, Nat.mul_zero, Nat.add_zero, List.length_replicate]
  have hne : cs.reverse ≠ [] := by
    intro hnil
    rw [hnil] at hvalue
    exact h hvalue
  refine ⟨cs.reverse, d.exponent + n, by rw [significant, hdrop], ⟨hne, ?_, ?_⟩, ?_⟩
  · intro c hc
    exact Text.isDigit_of_mem_digits (by rw [hdigits]; exact List.mem_append_left _ hc)
  · have hhead := Text.head?_digits_ne_zero h
    rwa [hdigits, List.head?_append_of_ne_nil _ hne] at hhead
  · unfold value
    rw [hvalue, zpow_add₀ (by decide : (10 : ℚ) ≠ 0), zpow_natCast]
    push_cast
    ring

end FacetedSearch.Decimal
