import FacetedSearch.Text.Numeral

/-! Scopes: the stores or websites that configuration and catalogue data are kept apart for. -/

namespace FacetedSearch

/-- The number of a scope. -/
abbrev Scope := UInt32

/-- Reads the number of a scope. -/
def scope? (s : String) : Option Scope :=
  (Text.natural? Text.scopeLimit s).map UInt32.ofNat

def scopeText (scope : Scope) : String :=
  String.ofList (Text.digits scope.toNat)

end FacetedSearch
