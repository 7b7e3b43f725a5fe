import FacetedSearch.Decimal.Basic
import FacetedSearch.Scale.Basic

/-! Scales in exact rational arithmetic: what the double scales approximate. Nothing bounds their
number here. -/

namespace FacetedSearch

/-- The floor of the decimal logarithm of a positive rational, and zero for all others. -/
def ratLogFloor (q : Rat) : Int :=
  if q ≤ 0 then 0 else Decimal.leadingExponent q.num.toNat q.den

instance : ScaleNumber Rat where
  ofNat := fun n => n
  isFinite := fun _ => true
  floor := fun q => q.floor
  ceil := fun q => q.ceil
  roundToNat := fun q => (q + 1 / 2).floor.toNat
  logFloor := ratLogFloor
  powerOfTen := fun e => mkRat (Nat.pow 10 e.toNat) (Nat.pow 10 (-e).toNat)
  holdsIntervals := fun _ => true

example : (Scale.intervals [(12 : Rat), 18, 20, 95, 100, 130] 5).toOption =
    some [⟨0, 50⟩, ⟨50, 100⟩, ⟨100, 150⟩] := by decide +kernel

end FacetedSearch
