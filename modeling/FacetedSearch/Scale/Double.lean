import FacetedSearch.Double.Logarithm
import FacetedSearch.Scale.Basic

/-! Scales in double arithmetic: what is shown to shoppers. An interval is two doubles. -/

namespace FacetedSearch

instance : ScaleNumber Float where
  ofNat := Float.ofNat
  isFinite := Float.isFinite
  floor := Double.floor
  ceil := Double.ceil
  roundToNat := Double.roundToNat
  logFloor := Double.logFloor
  powerOfTen := Double.powerOfTen
  holdsIntervals := canHold 16

end FacetedSearch
