import FacetedSearch.Text.Numeral

/-!
# Decimals

A decimal is a whole number of units of a power of ten. `leadingExponent` places a positive
ratio between two consecutive powers of ten, in exact arithmetic.
-/

namespace FacetedSearch

/-- The number `digits * 10 ^ exponent`. -/
structure Decimal where
  digits : Nat
  exponent : Int
deriving Repr, DecidableEq

namespace Decimal

/-- The double nearest to the decimal, a half going to the even neighbour. -/
def nearest (d : Decimal) : Float :=
  Float.ofScientific d.digits (decide (d.exponent < 0)) d.exponent.natAbs

/-- The greatest `k` with `10 ^ k ≤ n`, for a positive `n`. -/
def wholeExponent (n : Nat) : Nat :=
  (Text.digits n).length - 1

/-- The exponent `e` with `10 ^ e ≤ num / den < 10 ^ (e + 1)`, for a positive ratio.

Below one it is found from the least `k` with `den / num ≤ 10 ^ k`, taken on the whole number
just above the inverse. -/
def leadingExponent (num den : Nat) : Int :=
  if den ≤ num then
    wholeExponent (num / den)
  else
    -(wholeExponent ((den + num - 1) / num - 1) + 1 : Nat)

example : leadingExponent 999 1000 = -1 ∧ leadingExponent 1 1000 = -3 := by decide

/-- Drops final zeros from a run of digits given from the last to the first. -/
def dropFinalZeros : List Char → Int → List Char × Int
  | '0' :: cs, e => dropFinalZeros cs (e + 1)
  | cs, e => (cs, e)

/-- The digits of a decimal without final zeros, and the exponent that goes with them. -/
def significant (d : Decimal) : List Char × Int :=
  let (cs, e) := dropFinalZeros (Text.digits d.digits).reverse d.exponent
  (cs.reverse, e)

example : significant ⟨1200, -3⟩ = (['1', '2'], -1) := by decide

end Decimal

end FacetedSearch
