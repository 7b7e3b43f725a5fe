import FacetedSearch.Decimal.Basic
import FacetedSearch.Double

/-!
# Shortest decimals

The decimal with the fewest digits whose nearest double is the given one. On each grid of
decimals only the two neighbours of the exact value can qualify, so those two are tried, from
one digit to seventeen. Should none qualify, the exact value itself is taken.
-/

namespace FacetedSearch.Decimal

/-- Which of two equally close decimals is taken. -/
inductive Tie where
  | even
  | up
deriving Repr, DecidableEq

/-- The exact value of `num / den` where `den` is a power of two. -/
def exact (num den : Nat) : Decimal :=
  ⟨num * Nat.pow 5 den.log2, -den.log2⟩

/-- The decimal of `n` digits that stands for `x`, if there is one; `x` is `num / den` and its
leading digit has the exponent `e`. -/
def ofDigitCount? (tie : Tie) (x : Float) (num den : Nat) (e : Int) (n : Nat) : Option Decimal :=
  let unit := e + 1 - n
  let scaledNum := num * Nat.pow 10 (-unit).toNat
  let scaledDen := den * Nat.pow 10 unit.toNat
  let below := scaledNum / scaledDen
  let lower : Decimal := ⟨below, unit⟩
  let upper : Decimal := ⟨below + 1, unit⟩
  match decide (lower.nearest = x), decide (upper.nearest = x) with
  | true, true =>
    match compare (2 * scaledNum) ((2 * below + 1) * scaledDen), tie with
    | .lt, _ => some lower
    | .gt, _ => some upper
    | .eq, .up => some upper
    | .eq, .even => some (if below % 2 = 0 then lower else upper)
  | true, false => some lower
  | false, true => some upper
  | false, false => none

/-- The shortest decimal that reads back as the positive double `x`, whose value is
`num / den`. -/
def shortest (tie : Tie) (x : Float) (num den : Nat) : Decimal :=
  let e := leadingExponent num den
  ((List.range' 1 17).findSome? (ofDigitCount? tie x num den e)).getD (exact num den)

end FacetedSearch.Decimal
