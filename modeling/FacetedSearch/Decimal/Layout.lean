import FacetedSearch.Decimal.Shortest

/-!
# Written doubles

How the digits of a double are laid out: with the shortest decimal, positionally or with an
exponent, or with a fixed number of places. Each output format is one `Layout`.
-/

namespace FacetedSearch.Decimal

structure Layout where
  /-- The exponents of the leading digit that are written positionally. -/
  positional : Int → Bool
  /-- Whether a whole number keeps `.0`. -/
  wholePoint : Bool
  /-- The choice between two equally close shortest decimals. -/
  tie : Tie

/-- Prices in messages and bucket bounds: never an exponent, and whole numbers without a
point. -/
def Layout.plain : Layout where
  positional := fun _ => true
  wholePoint := false
  tie := .up

/-- Doubles in documents: an exponent below `0.00001` and from `10 ^ 16` on, and a point in every
number that is written without one. -/
def Layout.document : Layout where
  positional := fun e => decide (-5 ≤ e) && decide (e < 16)
  wholePoint := true
  tie := .even

/-- Digits with the decimal point after the first `place` of them. -/
def positionalText (wholePoint : Bool) (ds : List Char) (place : Int) : List Char :=
  if place ≤ 0 then
    '0' :: '.' :: (List.replicate (-place).toNat '0' ++ ds)
  else if ds.length ≤ place.toNat then
    ds ++ List.replicate (place.toNat - ds.length) '0' ++ (if wholePoint then ['.', '0'] else [])
  else
    ds.take place.toNat ++ '.' :: ds.drop place.toNat

/-- One digit before the point, and a signed exponent. -/
def exponentText (ds : List Char) (e : Int) : List Char :=
  let mantissa := match ds with
    | c :: d :: rest => c :: '.' :: d :: rest
    | cs => cs
  mantissa ++ 'e' :: (if e < 0 then '-' else '+') :: Text.digits e.natAbs

/-- A positive decimal in the given layout. -/
def Layout.digits (l : Layout) (d : Decimal) : List Char :=
  let (ds, unit) := d.significant
  let e := unit + ds.length - 1
  if l.positional e then positionalText l.wholePoint ds (e + 1) else exponentText ds e

def signText (negative : Bool) : List Char :=
  if negative then ['-'] else []

/-- The text of a double. -/
def Layout.chars (l : Layout) (x : Float) : List Char :=
  match Double.value x with
  | .notANumber => "NaN".toList
  | .infinite negative => signText negative ++ "inf".toList
  | .finite negative num den =>
    signText negative ++
      if num = 0 then (if l.wholePoint then ['0', '.', '0'] else ['0'])
      else l.digits (shortest l.tie (Double.withSign negative x) num den)

def Layout.text (l : Layout) (x : Float) : String :=
  String.ofList (l.chars x)

example : Layout.plain.text 0.1 = "0.1" ∧ Layout.plain.text (-1e22) = "-10000000000000000000000" := by
  decide +kernel

example : Layout.document.text 1e16 = "1e+16" ∧ Layout.document.text 5 = "5.0" := by
  decide +kernel

/-- The whole number nearest to `num / den`, a half going to the even one. -/
def roundHalfEven (num den : Nat) : Nat :=
  let q := num / den
  match compare (2 * (num % den)) den with
  | .lt => q
  | .gt => q + 1
  | .eq => if q % 2 = 0 then q else q + 1

/-- A count of units of `10 ^ -places`, written with that many places. -/
def placesText (places units : Nat) : List Char :=
  let ds := Text.digits units
  let padded := List.replicate (places + 1 - ds.length) '0' ++ ds
  let whole := padded.take (padded.length - places)
  if places = 0 then whole else whole ++ '.' :: padded.drop (padded.length - places)

/-- The exact value of a double rounded to a fixed number of places. The sign stays, also where
all digits are zero. -/
def fixedChars (places : Nat) (x : Float) : List Char :=
  match Double.value x with
  | .notANumber => "NaN".toList
  | .infinite negative => signText negative ++ "inf".toList
  | .finite negative num den =>
    signText negative ++ placesText places (roundHalfEven (num * Nat.pow 10 places) den)

def fixed (places : Nat) (x : Float) : String :=
  String.ofList (fixedChars places x)

example : fixed 2 0.125 = "0.12" ∧ fixed 3 (-0.0001) = "-0.000" := by decide +kernel

end FacetedSearch.Decimal
