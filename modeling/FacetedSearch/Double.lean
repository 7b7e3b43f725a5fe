import FacetedSearch.Text.Numeral

/-!
# Doubles

The exact value of a double as a signed ratio, and the operations that need it: rounding to
whole numbers and powers of ten. Addition, multiplication, division and comparison are those of
binary64.
-/

namespace FacetedSearch.Double

/-- What a double stands for. -/
inductive Value where
  | notANumber
  | infinite (negative : Bool)
  /-- Plus or minus `num / den`. Zero keeps its sign. -/
  | finite (negative : Bool) (num den : Nat)
deriving Repr, DecidableEq

def isNegative : Float.Model.UnpackedFloat.Sign → Bool
  | .positive => false
  | .negative => true

/-- The exact value of a double. -/
def value (x : Float) : Value :=
  match x.toModel.unpack with
  | .notANumber => .notANumber
  | .infinity s => .infinite (isNegative s)
  | .zero s => .finite (isNegative s) 0 1
  | .finite s m e _ => .finite (isNegative s) (m * Nat.pow 2 e.toNat) (Nat.pow 2 (-e).toNat)

example : value (-0.75) = .finite true 6755399441055744 9007199254740992 := by decide +kernel

def withSign (negative : Bool) (x : Float) : Float :=
  if negative then -x else x

/-- The greatest whole number not above `x`. -/
def floor (x : Float) : Float :=
  match value x with
  | .finite negative num den =>
    if num % den = 0 then x
    else withSign negative (Float.ofNat (if negative then num / den + 1 else num / den))
  | _ => x

/-- The least whole number not below `x`. Between minus one and zero it is negative zero. -/
def ceil (x : Float) : Float :=
  match value x with
  | .finite negative num den =>
    if num % den = 0 then x
    else withSign negative (Float.ofNat (if negative then num / den else num / den + 1))
  | _ => x

/-- The whole number nearest to `num / den`, a half going up. -/
def roundHalfUp (num den : Nat) : Nat :=
  (2 * num + den) / (2 * den)

/-- The nearest natural number that fits a word, a half going up. What is negative or no number
counts as zero. -/
def roundToNat (x : Float) : Nat :=
  match value x with
  | .finite false num den => min (roundHalfUp num den) (Text.wordLimit - 1)
  | .infinite false => Text.wordLimit - 1
  | _ => 0

/-- Multiplies `acc` by `base ^ n` by repeated squaring, from the lowest bit of `n` up. Each
product is rounded. The fuel bounds the number of bits. -/
def powerLoop : Nat → Float → Float → Nat → Float
  | 0, _, acc, _ => acc
  | fuel + 1, base, acc, n =>
    let acc := if n % 2 = 1 then acc * base else acc
    if n / 2 = 0 then acc else powerLoop fuel (base * base) acc (n / 2)

/-- A power of ten in double arithmetic: exact up to `10 ^ 22`, and the inverse of the positive
power for a negative exponent. -/
def powerOfTen (n : Int) : Float :=
  let power := powerLoop (n.natAbs.log2 + 1) 10 1 n.natAbs
  if n < 0 then 1 / power else power

end FacetedSearch.Double
