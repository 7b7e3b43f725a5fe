import FacetedSearch.Fault

/-! Changes of a state that may fail. -/

namespace FacetedSearch

/-- What an attempt to change a state leaves behind: the state afterwards, and the fault if it
failed. -/
structure Attempt (σ : Type) where
  state : σ
  fault? : Option Fault := none

namespace Attempt

variable {σ : Type}

def done (state : σ) : Attempt σ := { state }

def failed (state : σ) (fault : Fault) : Attempt σ := { state, fault? := some fault }

end Attempt

end FacetedSearch
