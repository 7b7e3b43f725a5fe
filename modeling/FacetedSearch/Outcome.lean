import FacetedSearch.Text.Numeral

/-!
# How computations end

A list lies in one stretch of memory, and the length of a stretch in bytes is below half a word.
Whoever asks for more ends the program: nobody handles that, as errors are handled. Functions that
may report an error answer with an `Outcome`, and functions that report none with an `Option` that
is `none` for a crash.
-/

namespace FacetedSearch

/-- How a computation ends. -/
inductive Outcome (ε α : Type) where
  | ok (value : α)
  | error (cause : ε)
  /-- The program ends, since there is no memory for a list of that length. -/
  | crash
deriving Repr, DecidableEq

namespace Outcome

variable {ε α : Type}

def toOption : Outcome ε α → Option α
  | .ok a => some a
  | _ => none

/-- The value, or another one in place of an error. -/
def recover (other : α) : Outcome ε α → Option α
  | .ok a => some a
  | .error _ => some other
  | .crash => none

theorem recover_eq_none_iff {other : α} {o : Outcome ε α} :
    o.recover other = none ↔ o = .crash := by
  cases o <;> simp [recover]

end Outcome

/-- Whether there can be a list of `count` entries of so many bytes each. -/
def canHold (bytes count : Nat) : Bool :=
  decide (bytes * count < Text.wordLimit / 2)

theorem canHold_eq_true_iff {bytes count : Nat} :
    canHold bytes count = true ↔ bytes * count < Text.wordLimit / 2 :=
  decide_eq_true_iff

/-- A shorter list can be held if a longer one can. -/
theorem canHold_of_le {bytes count count' : Nat} (h : canHold bytes count' = true)
    (hle : count ≤ count') : canHold bytes count = true :=
  canHold_eq_true_iff.mpr
    (Nat.lt_of_le_of_lt (Nat.mul_le_mul_left bytes hle) (canHold_eq_true_iff.mp h))

end FacetedSearch
