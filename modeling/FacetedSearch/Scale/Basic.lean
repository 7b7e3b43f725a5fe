import FacetedSearch.Outcome

/-!
# Scales with nice steps

Bucket widths and axis steps are 1, 2, 5 or 10 times a power of ten, so that bounds fall on
numbers a shopper reads at a glance. The computation is written once over the operations that
it needs; in doubles it is what shoppers see, in rationals it is what the scale is meant to be.
-/

namespace FacetedSearch

/-- The numbers that a scale is computed with. -/
class ScaleNumber (α : Type) extends Add α, Sub α, Mul α, Div α, LT α, LE α, BEq α where
  ofNat : Nat → α
  isFinite : α → Bool
  floor : α → α
  ceil : α → α
  /-- The nearest natural number, a half going up. -/
  roundToNat : α → Nat
  /-- The floor of the decimal logarithm. -/
  logFloor : α → Int
  powerOfTen : Int → α
  /-- Whether there can be a list of so many intervals. -/
  holdsIntervals : Nat → Bool

namespace Scale

export ScaleNumber
  (ofNat isFinite floor ceil roundToNat logFloor powerOfTen holdsIntervals)

/-- Why a scale cannot be computed. -/
inductive Fault (α : Type) where
  | notPositive (value : α)
  | noBuckets
  | tooFewTicks (ticks : Nat)
  | emptyRange (lower upper : α)
deriving Repr, DecidableEq

/-- The values from `lower` up to, and without, `upper`. -/
structure Interval (α : Type) where
  lower : α
  upper : α
deriving Repr, DecidableEq

/-- The bounds of an axis and the distance of its ticks. -/
structure Axis (α : Type) where
  lower : α
  upper : α
  step : α
deriving Repr, DecidableEq

/-- How a number becomes a nice one: to the next nice number that is not below it, or to a close
one by fixed thresholds. Widths use the first, ticks the second. -/
inductive Rounding where
  | up
  | close
deriving Repr, DecidableEq

/-- How many buckets a histogram has at most, if nothing else is asked for. -/
def defaultBuckets : Nat := 5

variable {α : Type} [ScaleNumber α] [DecidableLT α] [DecidableLE α]

/-- The nice digit for a number between one and ten. -/
def niceDigit (rounding : Rounding) (fraction : α) : Nat :=
  match rounding with
  | .up =>
    if fraction ≤ ofNat 1 then 1
    else if fraction ≤ ofNat 2 then 2
    else if fraction ≤ ofNat 5 then 5
    else 10
  | .close =>
    if fraction < ofNat 3 / ofNat 2 then 1
    else if fraction < ofNat 3 then 2
    else if fraction < ofNat 7 then 5
    else 10

/-- The nice number that belongs to a positive one. -/
def niceNumber (rounding : Rounding) (value : α) : Except (Fault α) α :=
  if !isFinite value || decide (value ≤ ofNat 0) then
    .error (.notPositive value)
  else
    let magnitude : α := powerOfTen (logFloor value)
    .ok (ofNat (niceDigit rounding (value / magnitude)) * magnitude)

/-- The least and the greatest of the finite values. -/
def bounds (values : List α) : Option (α × α) :=
  match values.filter isFinite with
  | [] => none
  | v :: vs =>
    some (vs.foldl (fun (b : α × α) v =>
      (if v < b.1 then v else b.1, if b.2 < v then v else b.2)) (v, v))

/-- The interval number `i` of width `step`. Bounds are counted from `start`, not added up. -/
def interval {α : Type} [ScaleNumber α] (start step : α) (i : Nat) : Interval α where
  lower := start + ofNat i * step
  upper := start + ofNat (i + 1) * step

/-- So many intervals, or a crash if that is more than a list can be long. -/
def collect {α : Type} [ScaleNumber α] (start step : α) (count : Nat) :
    Outcome (Fault α) (List (Interval α)) :=
  if holdsIntervals α count then .ok ((List.range count).map (interval start step)) else .crash

/-- Consecutive intervals of the same nice width, from the multiple of the width below the least
value to the one above the greatest. Without two different values there are none. -/
def intervals (values : List α) (maxBuckets : Nat) : Outcome (Fault α) (List (Interval α)) :=
  if maxBuckets = 0 then .error .noBuckets
  else
    match bounds values with
    | none => .ok []
    | some (least, greatest) =>
      let span := greatest - least
      if span == ofNat 0 then .ok []
      else
        match niceNumber .up (span / ofNat maxBuckets) with
        | .error fault => .error fault
        | .ok step =>
          let start := floor (least / step) * step
          let stop := ceil (greatest / step) * step
          collect start step (roundToNat ((stop - start) / step))

/-- An axis over `lower` and `upper` whose step is close to the nice range divided among the
ticks. -/
def axis (lower upper : α) (maxTicks : Nat) : Except (Fault α) (Axis α) :=
  if maxTicks < 2 then .error (.tooFewTicks maxTicks)
  else if upper ≤ lower then .error (.emptyRange lower upper)
  else do
    let range ← niceNumber .up (upper - lower)
    let step ← niceNumber .close (range / ofNat (maxTicks - 1))
    return {
      lower := floor (lower / step) * step
      upper := ceil (upper / step) * step
      step }

end Scale

end FacetedSearch
