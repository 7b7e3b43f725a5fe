import FacetedSearch.Double

/-!
# Decimal logarithms

The decimal logarithm of a positive double in double arithmetic. The value is split into a power
of two and a factor near one. The share of the power is taken in two parts, the greater of which
is short enough to be multiplied without rounding; the share of the factor comes from its natural
logarithm, by the series of the inverse hyperbolic tangent in whole numbers.

Each step rounds, so the logarithm of a value a hair below a power of ten may be the exponent of
that power itself. How far below, these definitions say.
-/

namespace FacetedSearch.Double

/-- The binary places of the series. -/
def seriesPlaces : Nat := 96

/-- The binary places that are kept of a natural logarithm. -/
def logPlaces : Nat := 62

/-- Sums `power / odd`, the next power by the next odd number, and so on. Powers are whole
numbers of units of `2 ^ -seriesPlaces`, rounded down. -/
def seriesFrom (power square : Nat) : Nat → Nat → Nat
  | 0, _ => 0
  | terms + 1, odd =>
    power / odd + seriesFrom ((power * square) >>> seriesPlaces) square terms (odd + 2)

/-- The natural logarithm of a ratio as a whole number of units of `2 ^ -logPlaces`, without its
sign. It is twice the inverse hyperbolic tangent of `|num - den| / (num + den)`. From one half to
two that is at most a third, and 32 terms exhaust the places. -/
def naturalLogUnits (num den : Nat) : Nat :=
  let gap := max num den - min num den
  let tangent := (gap <<< seriesPlaces) / (num + den)
  let series := seriesFrom tangent ((tangent * tangent) >>> seriesPlaces) 32 1
  roundHalfUp (2 * series) (Nat.pow 2 (seriesPlaces - logPlaces))

/-- A whole number of units of `2 ^ -places` as a double of 53 bits, a half going up. -/
def ofPlaces (places units : Nat) : Float :=
  let unit := Nat.pow 2 (units.log2 - 52)
  Float.ofNat (roundHalfUp units unit * unit) / Float.ofNat (Nat.pow 2 places)

/-- The natural logarithm of a ratio from one half to two. -/
def naturalLog (num den : Nat) : Float :=
  withSign (decide (num < den)) (ofPlaces logPlaces (naturalLogUnits num den))

/-- The decimal logarithm of a ratio whose denominator is a power of two. The factor lies between
one and two, or between one half and one for a ratio below one, so that both shares have the
same sign. -/
def decimalLog (num den : Nat) : Float :=
  let exponent := (num.log2 : Int) - den.log2
  let (factorDen, exponent) :=
    if num < den then (Nat.pow 2 (num.log2 + 1), exponent + 1)
    else (Nat.pow 2 num.log2, exponent)
  let twos := withSign (exponent < 0) (Float.ofNat exponent.natAbs)
  (twos * 3.694239077158931e-13 + 0.4342944819032518 * naturalLog num factorDen) +
    twos * 0.30102999566361177

/-- The greatest whole number not above `x`, and zero for what is no finite number. -/
def floorToInt (x : Float) : Int :=
  match value x with
  | .finite false num den => (num / den : Nat)
  | .finite true num den => -((num + den - 1) / den : Nat)
  | _ => 0

/-- The floor of the decimal logarithm of a positive double. Other doubles have no logarithm and
get zero. -/
def logFloor (x : Float) : Int :=
  match value x with
  | .finite false num den => if num = 0 then 0 else floorToInt (decimalLog num den)
  | _ => 0

example : logFloor 1000 = 3 ∧ logFloor 0.001 = -3 ∧ logFloor 9.99 = 0 := by decide +kernel

/-- The two values lie five and nine doubles below `10 ^ 3`. -/
example : logFloor 999.9999999999994 = 3 ∧ logFloor 999.999999999999 = 2 := by decide +kernel

end FacetedSearch.Double
