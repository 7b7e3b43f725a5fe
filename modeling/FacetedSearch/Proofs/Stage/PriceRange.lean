import FacetedSearch.Proofs.Compile.PriceFacet
import FacetedSearch.Proofs.Decimal.Precision

/-!
# What the conditions on prices say

A range of prices becomes at most two clauses, each a facet, a mark of comparison and a numeral.
Read as conditions the clauses have the very decimals that the bounds of the range stand for, so
they hold for the prices that the range admits, be it compared as decimals or as doubles.
-/

namespace FacetedSearch

open Decimal Double

/-! ## Clauses as conditions -/

/-- How a price is compared with a number. -/
inductive Comparison where
  | atLeast
  | above
  | atMost
  | below
deriving Repr, DecidableEq

namespace Comparison

def mark : Comparison → String
  | .atLeast => ">="
  | .above => ">"
  | .atMost => "<="
  | .below => "<"

def Holds (price number : ℚ) : Comparison → Prop
  | .atLeast => number ≤ price
  | .above => number < price
  | .atMost => price ≤ number
  | .below => price < number

/-- Reads the mark at the beginning of a text, and gives back what follows it. -/
def ofChars? : List Char → Option (Comparison × List Char)
  | '>' :: '=' :: cs => some (.atLeast, cs)
  | '>' :: cs => some (.above, cs)
  | '<' :: '=' :: cs => some (.atMost, cs)
  | '<' :: cs => some (.below, cs)
  | _ => none

theorem ofChars?_mark (c : Comparison) {cs : List Char} (h : cs.head? ≠ some '=') :
    ofChars? (c.mark.toList ++ cs) = some (c, cs) := by
  cases c with
  | atLeast => rfl
  | atMost => rfl
  | above =>
      change ofChars? ('>' :: cs) = _
      unfold ofChars?
      split <;> simp_all
  | below =>
      change ofChars? ('<' :: cs) = _
      unfold ofChars?
      split <;> simp_all

end Comparison

/-- A condition on a price. -/
structure Condition where
  comparison : Comparison
  number : ℚ
deriving Repr, DecidableEq

namespace Condition

def Holds (c : Condition) (price : ℚ) : Prop := c.comparison.Holds price c.number

/-- Reads a clause on a facet: the name of the facet, a mark, and a numeral. -/
def ofClause? (facet clause : String) : Option Condition :=
  if facet.toList.isPrefixOf clause.toList then
    (Comparison.ofChars? (clause.toList.drop facet.toList.length)).bind fun (comparison, cs) =>
      (numberOf? cs).map fun number => { comparison, number }
  else none

end Condition

/-- A clause on a facet holds for a price if it is read as a condition that does. -/
def ClauseHolds (facet clause : String) (price : ℚ) : Prop :=
  ∃ c, Condition.ofClause? facet clause = some c ∧ c.Holds price

theorem head?_ne_of_numberOf? {cs : List Char} {q : ℚ} (h : numberOf? cs = some q) :
    cs.head? ≠ some '=' := by
  cases cs with
  | nil => simp
  | cons c cs =>
      rw [List.head?_cons, Ne, Option.some_inj]
      rintro rfl
      cases h

theorem Condition.ofClause?_fixed {x : Float} (h : x.isFinite = true) (facet : String)
    (comparison : Comparison) (places : ℕ) :
    ofClause? facet (facet ++ comparison.mark ++ Decimal.fixed places x) =
      some { comparison, number := (printedUnits places x : ℚ) / 10 ^ places } := by
  have hnumber := numberOf?_fixedChars h places
  unfold ofClause? Decimal.fixed
  simp only [String.toList_append, String.toList_ofList, List.append_assoc]
  rw [if_pos (by simp), List.drop_left,
    Comparison.ofChars?_mark comparison (head?_ne_of_numberOf? hnumber), Option.bind_some, hnumber]
  rfl

/-! ## Ranges -/

/-- A number of thousandths. -/
def thousandths (n : ℤ) : ℚ := n / 10 ^ 3

/-- A double that stands for a decimal with three digits after the point and less than `10 ^ 12`
in size: it is closest to the decimal. -/
structure IsThousandths (x : Float) (n : ℤ) : Prop where
  isClosest : IsClosest x (thousandths n)
  abs_lt : |thousandths n| < 10 ^ 12

theorem IsThousandths.natAbs_lt {x : Float} {n : ℤ} (h : IsThousandths x n) :
    n.natAbs < 2 ^ 51 := by
  have habs := h.abs_lt
  rw [thousandths, abs_div, abs_of_pos (by positivity : (0 : ℚ) < 10 ^ 3),
    div_lt_iff₀ (by positivity)] at habs
  have hint : |n| < 10 ^ 12 * 10 ^ 3 := by exact_mod_cast habs
  rw [Int.abs_eq_natAbs] at hint
  omega

namespace RangeFilter

/-- Whether a price lies between the bounds of a range. -/
def Admits {α : Type} [LE α] [LT α] (r : RangeFilter) (lower upper : Option α) (price : α) :
    Prop :=
  (∀ b ∈ lower, if r.lowerInclusive then b ≤ price else b < price) ∧
    (∀ b ∈ upper, if r.upperInclusive then price ≤ b else price < b)

def lowerComparison (r : RangeFilter) : Comparison :=
  if r.lowerInclusive then .atLeast else .above

def upperComparison (r : RangeFilter) : Comparison :=
  if r.upperInclusive then .atMost else .below

/-- The conditions that a range with the given bounds puts on a price, the one on the lower bound
first. -/
def bounding (r : RangeFilter) (lower upper : Option ℚ) : List Condition :=
  (lower.map (Condition.mk r.lowerComparison)).toList ++
    (upper.map (Condition.mk r.upperComparison)).toList

theorem forall_bounding_iff (r : RangeFilter) (lower upper : Option ℚ) (price : ℚ) :
    (∀ c ∈ r.bounding lower upper, c.Holds price) ↔ r.Admits lower upper price := by
  have hlower (b : ℚ) : (Condition.mk r.lowerComparison b).Holds price ↔
      if r.lowerInclusive then b ≤ price else b < price := by
    unfold lowerComparison Condition.Holds
    cases r.lowerInclusive <;> exact Iff.rfl
  have hupper (b : ℚ) : (Condition.mk r.upperComparison b).Holds price ↔
      if r.upperInclusive then price ≤ b else price < b := by
    unfold upperComparison Condition.Holds
    cases r.upperInclusive <;> exact Iff.rfl
  simp only [bounding, Admits, List.forall_mem_append, Option.toList_map, List.forall_mem_map,
    Option.mem_toList, Option.mem_def, hlower, hupper]

end RangeFilter

/-! ## Bounds as decimals and as doubles -/

theorem thousandths_lt_iff {m n : ℤ} : thousandths m < thousandths n ↔ m < n := by
  rw [thousandths, thousandths, div_lt_div_iff_of_pos_right (by positivity), Int.cast_lt]

theorem thousandths_le_iff {m n : ℤ} : thousandths m ≤ thousandths n ↔ m ≤ n := by
  rw [← not_lt, thousandths_lt_iff, not_lt]

section

variable {x y : Float} {m n : ℤ}

/-- A bound and a price compare as doubles as they do as decimals. -/
theorem IsThousandths.lt_iff (hx : IsThousandths x m) (hy : IsClosest y (thousandths n)) :
    (x < y ↔ thousandths m < thousandths n) ∧ (y < x ↔ thousandths n < thousandths m) := by
  obtain ⟨hlt, hgt⟩ := hx.isClosest.toRat_lt_iff hy hx.natAbs_lt (by decide)
  have hnum := isNaN_of_isFinite hx.isClosest.isFinite
  have hnum' := isNaN_of_isFinite hy.isFinite
  rw [thousandths_lt_iff, thousandths_lt_iff, ← hlt, ← hgt, toRat_lt_toRat_iff,
    toRat_lt_toRat_iff, Double.lt_iff, Double.lt_iff]
  simp only [hnum, hnum', true_and, and_self]

theorem IsThousandths.le_iff (hx : IsThousandths x m) (hy : IsClosest y (thousandths n)) :
    (x ≤ y ↔ thousandths m ≤ thousandths n) ∧ (y ≤ x ↔ thousandths n ≤ thousandths m) := by
  obtain ⟨hlt, hgt⟩ := hx.lt_iff hy
  have hnum := isNaN_of_isFinite hx.isClosest.isFinite
  have hnum' := isNaN_of_isFinite hy.isFinite
  rw [← not_lt, ← not_lt, ← hlt, ← hgt, Double.not_lt hnum' hnum, Double.not_lt hnum hnum']
  exact ⟨Iff.rfl, Iff.rfl⟩

end

/-- A range admits the double of a price if its decimals admit the price. -/
theorem RangeFilter.admits_iff {r : RangeFilter} {lower upper : Option ℤ}
    (hlower : Option.Rel IsThousandths r.lower lower)
    (hupper : Option.Rel IsThousandths r.upper upper) {x : Float} {n : ℤ}
    (hx : IsClosest x (thousandths n)) :
    r.Admits (lower.map thousandths) (upper.map thousandths) (thousandths n) ↔
      r.Admits r.lower r.upper x := by
  obtain ⟨field, from?, to?, fromIncluded, toIncluded⟩ := r
  refine and_congr ?_ ?_
  · cases hlower with
    | none => simp
    | some hb => simp [(hb.lt_iff hx).1, (hb.le_iff hx).1]
  · cases hupper with
    | none => simp
    | some hb => simp [(hb.lt_iff hx).2, (hb.le_iff hx).2]

/-! ## The clauses of a range -/

namespace Stage

/-- The clause on a bound is read as the condition on the decimal that the bound stands for. -/
theorem ofClause?_of_bound {bound : Option Float} {n : Option ℤ}
    (h : Option.Rel IsThousandths bound n) (facet : String) (comparison : Comparison) :
    ((bound.map fun x => facet ++ comparison.mark ++ Decimal.fixed 3 x).toList).map
        (Condition.ofClause? facet) =
      (((n.map thousandths).map (Condition.mk comparison)).toList).map some := by
  cases h with
  | none => rfl
  | some hb =>
      have hprinted := printedUnits_of_isClosest hb.isClosest hb.natAbs_lt.le (by decide)
      have hread := Condition.ofClause?_fixed hb.isClosest.isFinite facet comparison 3
      rw [hprinted] at hread
      exact congrArg (fun c => [c]) hread

theorem ofClause?_priceClauses {r : RangeFilter} {lower upper : Option ℤ}
    (hlower : Option.Rel IsThousandths r.lower lower)
    (hupper : Option.Rel IsThousandths r.upper upper) (facet : String) :
    (priceClauses facet r).map (Condition.ofClause? facet) =
      (r.bounding (lower.map thousandths) (upper.map thousandths)).map some := by
  have hlowerMark : (if r.lowerInclusive then ">=" else ">") = r.lowerComparison.mark := by
    unfold RangeFilter.lowerComparison
    cases r.lowerInclusive <;> rfl
  have hupperMark : (if r.upperInclusive then "<=" else "<") = r.upperComparison.mark := by
    unfold RangeFilter.upperComparison
    cases r.upperInclusive <;> rfl
  rw [priceClauses, hlowerMark, hupperMark, List.map_append, ofClause?_of_bound hlower,
    ofClause?_of_bound hupper, RangeFilter.bounding, List.map_append]

/-- All clauses hold if all conditions do that they are read as. -/
theorem forall_clauseHolds_iff {facet : String} {clauses : List String} {cs : List Condition}
    (h : clauses.map (Condition.ofClause? facet) = cs.map some) (price : ℚ) :
    (∀ clause ∈ clauses, ClauseHolds facet clause price) ↔ ∀ c ∈ cs, c.Holds price := by
  calc (∀ clause ∈ clauses, ClauseHolds facet clause price) ↔
        ∀ o ∈ clauses.map (Condition.ofClause? facet), ∃ c, o = some c ∧ c.Holds price :=
        by simp only [List.forall_mem_map, ClauseHolds]
    _ ↔ ∀ o ∈ cs.map some, ∃ c, o = some c ∧ c.Holds price := by rw [h]
    _ ↔ ∀ c ∈ cs, c.Holds price := by simp

/-- A range of prices that the stage takes has found the facet of the prices, and has become its
clauses on this facet. -/
theorem exists_run_priceRange_eq {config : Config} {l : Lookups} {scope : Option Scope}
    {w : Work} {r : RangeFilter} (hrange : w.filters.get? "price" = some (.range r))
    (htaken : (run config l scope .priceRange w).state.filters.get? "price" = none) :
    ∃ facet, IsPriceFacet l scope facet ∧
      run config l scope .priceRange w = .done
        { params := w.params.appendAll Params.numericFilters (priceClauses facet r),
          filters := w.filters.erase "price" } := by
  have hrun : run config l scope .priceRange w = runPriceRange l scope w := rfl
  rw [hrun] at htaken ⊢
  unfold runPriceRange at htaken ⊢
  rw [hrange] at htaken ⊢
  cases scope with
  | none =>
      change w.filters.get? "price" = none at htaken
      rw [hrange] at htaken
      cases htaken
  | some s =>
      cases hfacet : l.priceFacet s with
      | error fault =>
          simp only [hfacet] at htaken
          change w.filters.get? "price" = none at htaken
          rw [hrange] at htaken
          cases htaken
      | ok facet =>
          refine ⟨facet, isPriceFacet_of_priceFacet? ?_, by simp only [hfacet]⟩
          rw [priceFacet?_some, hfacet]
          rfl

/-- A range of prices that the stage takes becomes one clause for each of its bounds, the lower
one first, and nothing else is changed. The clauses are read as conditions on the facet of the
prices, each with the mark of its bound and the very decimal that the bound stands for. So for any
number of thousandths they hold together exactly if the range admits the price: as it compares
with the decimals, and also as its closest double compares with the bounds. -/
theorem priceRange_means_range {config : Config} {l : Lookups} {scope : Option Scope} {w : Work}
    {r : RangeFilter} {lower upper : Option ℤ}
    (hrange : w.filters.get? "price" = some (.range r))
    (htaken : (run config l scope .priceRange w).state.filters.get? "price" = none)
    (hlower : Option.Rel IsThousandths r.lower lower)
    (hupper : Option.Rel IsThousandths r.upper upper) :
    ∃ facet clauses, IsPriceFacet l scope facet ∧
      run config l scope .priceRange w = .done
        { params := w.params.appendAll Params.numericFilters clauses,
          filters := w.filters.erase "price" } ∧
      (run config l scope .priceRange w).state.params.clauses Params.numericFilters =
        w.params.clauses Params.numericFilters ++ clauses ∧
      clauses.map (Condition.ofClause? facet) =
        (r.bounding (lower.map thousandths) (upper.map thousandths)).map some ∧
      ∀ n : ℤ,
        ((∀ clause ∈ clauses, ClauseHolds facet clause (thousandths n)) ↔
          r.Admits (lower.map thousandths) (upper.map thousandths) (thousandths n)) ∧
        ∀ x, IsClosest x (thousandths n) →
          ((∀ clause ∈ clauses, ClauseHolds facet clause (thousandths n)) ↔
            r.Admits r.lower r.upper x) := by
  obtain ⟨facet, hfacet, hrun⟩ := exists_run_priceRange_eq hrange htaken
  have hread := ofClause?_priceClauses hlower hupper facet
  have hadmits (n : ℤ) :
      (∀ clause ∈ priceClauses facet r, ClauseHolds facet clause (thousandths n)) ↔
        r.Admits (lower.map thousandths) (upper.map thousandths) (thousandths n) :=
    (forall_clauseHolds_iff hread _).trans (r.forall_bounding_iff _ _ _)
  refine ⟨facet, priceClauses facet r, hfacet, hrun, ?_, hread, fun n => ⟨hadmits n, ?_⟩⟩
  · rw [hrun, ← Params.appendClauses_map]
    exact (Params.clauses_appendClauses _ _ _).trans (by rw [Params.ofFamily_map_self])
  · intro x hx
    rw [hadmits n, RangeFilter.admits_iff hlower hupper hx]

/-- Neither bound is a double exactly: one is below zero and excluded, the other included. -/
theorem priceRange_means_range_of_inexact_bounds :
    let l := ({ priceKeys := .ofList [(1, "USD.default")] } : Tables).lookups
    let r : RangeFilter := {
      field := "price", lower := some (-0.1), upper := some 19.99, lowerInclusive := false }
    let w : Work := { params := ∅, filters := .ofList [("price", .range r)] }
    let a := run {} l (some 1) .priceRange w
    w.filters.get? "price" = some (.range r) ∧ a.state.filters.get? "price" = none ∧
      IsThousandths (-0.1) (-100) ∧ IsThousandths 19.99 19990 ∧
      ∃ facet, IsPriceFacet l (some 1) facet ∧
        ∀ n : ℤ, (∀ clause ∈ a.state.params.clauses Params.numericFilters,
          ClauseHolds facet clause (thousandths n)) ↔ -100 < n ∧ n ≤ 19990 := by
  intro l r w a
  have hrange : w.filters.get? "price" = some (.range r) := rfl
  have htaken : a.state.filters.get? "price" = none := rfl
  have htenth : IsClosest 0.1 (1 / 10) := by
    have hclosest := isClosest_nearest (d := ⟨1, -1⟩) (by decide +kernel)
    norm_num [Decimal.value] at hclosest
    exact hclosest
  have hlower : IsThousandths (-0.1) (-100) := by
    refine ⟨?_, by norm_num [thousandths]⟩
    have hvalue : thousandths (-100) = -(1 / 10) := by norm_num [thousandths]
    rw [hvalue]
    exact htenth.neg
  have hupper : IsThousandths 19.99 19990 := by
    have hclosest := isClosest_nearest (d := ⟨1999, -2⟩) (by decide +kernel)
    have hvalue : Decimal.value ⟨1999, -2⟩ = thousandths 19990 := by
      norm_num [Decimal.value, thousandths]
    rw [hvalue] at hclosest
    exact ⟨hclosest, by norm_num [thousandths]⟩
  obtain ⟨facet, clauses, hfacet, -, hclauses, -, hholds⟩ :=
    @priceRange_means_range {} l (some 1) w r (some (-100)) (some 19990) hrange htaken
      (.some hlower) (.some hupper)
  refine ⟨hrange, htaken, hlower, hupper, facet, hfacet, fun n => ?_⟩
  have hclauses' : a.state.params.clauses Params.numericFilters = clauses := hclauses
  rw [hclauses', (hholds n).1]
  simp only [RangeFilter.Admits, Option.map_some, Option.mem_def, Option.some_inj, forall_eq', r,
    Bool.false_eq_true, if_false, if_true, thousandths_lt_iff, thousandths_le_iff]

end Stage

end FacetedSearch
