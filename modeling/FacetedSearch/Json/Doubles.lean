import FacetedSearch.Decimal.Layout
import FacetedSearch.Json.Literal

/-! The format of doubles that writes the shortest digits and reads the nearest double. -/

namespace FacetedSearch.Json

def DoubleFormat.shortest : DoubleFormat where
  chars := Decimal.Layout.document.chars
  read? n :=
    let size := n.decimal.nearest
    if size.isFinite then some (Double.withSign n.negative size) else none

end FacetedSearch.Json
