import FacetedSearch.Decimal.Basic

/-!
# Reading doubles

A price is written as a decimal with an optional sign and exponent; at least one digit stands
before or after the point. The words for infinity and for no number are read in any case.
-/

namespace FacetedSearch.Decimal

/-- Splits off the sign; `true` is minus. -/
def splitSign : List Char → Bool × List Char
  | '-' :: cs => (true, cs)
  | '+' :: cs => (false, cs)
  | cs => (false, cs)

def spanDigits (cs : List Char) : List Char × List Char :=
  (cs.takeWhile Char.isDigit, cs.dropWhile Char.isDigit)

/-- Reads what follows the digits: nothing, or an exponent mark, a sign and digits. -/
def exponent? : List Char → Option Int
  | [] => some 0
  | c :: cs =>
    if c = 'e' ∨ c = 'E' then
      let (negative, ds) := splitSign cs
      (Text.numeralValue? ds).map fun n => if negative then -(n : Int) else n
    else none

/-- Reads a decimal without a sign. -/
def unsigned? (cs : List Char) : Option Decimal :=
  let (whole, rest) := spanDigits cs
  let (fraction, rest) := match rest with
    | '.' :: rest => spanDigits rest
    | rest => ([], rest)
  if whole.isEmpty && fraction.isEmpty then none
  else
    (exponent? rest).map fun e =>
      ⟨Text.digitsValue 0 (whole ++ fraction), e - fraction.length⟩

/-- The value of the words for what is no finite number. -/
def word? (s : String) : Option Float :=
  if s = "inf" ∨ s = "infinity" then some (1 / 0)
  else if s = "nan" then some (0 / 0)
  else none

def readDouble? (s : String) : Option Float :=
  let (negative, cs) := splitSign s.toList
  let size := match unsigned? cs with
    | some d => some d.nearest
    | none => word? (String.ofList (cs.map Char.toLower))
  size.map fun x => if negative then -x else x

example : (readDouble? "-.5e1" == some (-5)) = true := by decide +kernel

example : readDouble? "1e" = none := by decide +kernel

end FacetedSearch.Decimal
