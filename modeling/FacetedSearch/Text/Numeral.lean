/-!
# Decimal numerals

Runs of ASCII digits, their value, and the unsigned numerals that name a scope or a number of
values. A numeral may carry a plus sign and leading zeros; nothing else is skipped.
-/

namespace FacetedSearch.Text

/-- Numbers of the engine and the storefront are below this bound: they fit 64 bits. -/
def wordLimit : Nat := Nat.pow 2 64

/-- Scope numbers are below this bound: they fit 32 bits. -/
def scopeLimit : Nat := Nat.pow 2 32

def digitValue (c : Char) : Nat :=
  c.toNat - '0'.toNat

/-- The value of a run of digits, read after `acc`. -/
def digitsValue (acc : Nat) : List Char → Nat
  | [] => acc
  | c :: cs => digitsValue (10 * acc + digitValue c) cs

/-- The decimal digits of a number, without leading zeros. -/
def digits (n : Nat) : List Char :=
  Nat.toDigits 10 n

/-- A non-empty run of digits. -/
def numeralValue? (cs : List Char) : Option Nat :=
  if cs.isEmpty || cs.any (fun c => !c.isDigit) then none else some (digitsValue 0 cs)

/-- Reads a numeral whose value is below `limit`. -/
def natural? (limit : Nat) (s : String) : Option Nat :=
  let body := match s.toList with
    | '+' :: cs => cs
    | cs => cs
  (numeralValue? body).filter (· < limit)

example : natural? scopeLimit "+04" = some 4 := by decide +kernel

example : natural? scopeLimit "4294967296" = none := by decide +kernel

end FacetedSearch.Text
