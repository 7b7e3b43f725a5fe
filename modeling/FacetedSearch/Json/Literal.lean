import FacetedSearch.Decimal.Reader
import FacetedSearch.Json.Value

/-!
# JSON literals

Numbers and strings of a JSON text. A run of digits without point and exponent that fits 64 bits
is a whole number; every other number, and negative zero, is a double. Which double that is, and
how a double is written, is a matter of the `DoubleFormat` in use. In a string, two escaped
surrogates make one character and a surrogate alone makes none.
-/

namespace FacetedSearch.Json

/-- The parts of a number as it is written. -/
structure Literal where
  negative : Bool
  whole : List Char
  /-- The digits after the point, if there is one. -/
  fraction : Option (List Char)
  exponent : Option Int
deriving Repr, DecidableEq

/-- How doubles stand in texts. -/
structure DoubleFormat where
  /-- What is written for a finite double. -/
  chars : Float → List Char
  /-- The double that a number is read as, unless it is beyond the doubles. -/
  read? : Literal → Option Float

/-- The digits before the point: a single zero, or a run that does not begin with zero. -/
def wholePart? : List Char → Option (List Char × List Char)
  | '0' :: cs => some (['0'], cs)
  | cs =>
    let (ds, rest) := Decimal.spanDigits cs
    if ds.isEmpty then none else some (ds, rest)

/-- The digits after a point, if there is one. -/
def fractionPart? : List Char → Option (Option (List Char) × List Char)
  | '.' :: cs =>
    let (ds, rest) := Decimal.spanDigits cs
    if ds.isEmpty then none else some (some ds, rest)
  | cs => some (none, cs)

/-- The exponent after its mark, if there is one. -/
def exponentPart? : List Char → Option (Option Int × List Char)
  | [] => some (none, [])
  | c :: cs =>
    if c = 'e' ∨ c = 'E' then
      let (negative, cs) := Decimal.splitSign cs
      let (ds, rest) := Decimal.spanDigits cs
      if ds.isEmpty then none
      else
        let n : Int := Text.digitsValue 0 ds
        some (some (if negative then -n else n), rest)
    else some (none, c :: cs)

/-- Splits off a minus sign. -/
def splitMinus : List Char → Bool × List Char
  | '-' :: cs => (true, cs)
  | cs => (false, cs)

/-- Splits off a number. -/
def literal? (cs : List Char) : Option (Literal × List Char) := do
  let (negative, cs) := splitMinus cs
  let (whole, cs) ← wholePart? cs
  let (fraction, cs) ← fractionPart? cs
  let (exponent, cs) ← exponentPart? cs
  return ({ negative, whole, fraction, exponent }, cs)

namespace Literal

/-- Whether the number has a point or an exponent. -/
def isPointed (n : Literal) : Bool := n.fraction.isSome || n.exponent.isSome

/-- The whole number that is written, if it fits. -/
def whole? (n : Literal) : Option Int :=
  let size := Text.digitsValue 0 n.whole
  if n.isPointed then none
  else if n.negative then
    if 0 < size ∧ size ≤ Text.wordLimit / 2 then some (-size) else none
  else if size < Text.wordLimit then some size
  else none

/-- The size of the number, as a decimal with all of its digits. -/
def decimal (n : Literal) : Decimal :=
  let ds := n.fraction.getD []
  ⟨Text.digitsValue 0 (n.whole ++ ds), n.exponent.getD 0 - ds.length⟩

end Literal

/-- The number that is written, unless it is beyond the doubles. -/
def DoubleFormat.number? (f : DoubleFormat) (n : Literal) : Option Number :=
  match n.whole? with
  | some k => some (.whole k)
  | none => (f.read? n).map .double

/-- Reads a number; `none` inside is a number beyond the doubles. -/
def number? (doubles : DoubleFormat) (cs : List Char) : Option (Option Number × List Char) :=
  (literal? cs).map fun r => (doubles.number? r.1, r.2)

/-- A part of a string: a character, one behind a backslash, or an escaped 16-bit unit. -/
inductive Piece where
  | char (c : Char)
  | escaped (c : Char)
  | unit (n : Nat)
deriving Repr, DecidableEq

def hexDigit? (c : Char) : Option Nat :=
  if '0' ≤ c ∧ c ≤ '9' then some (c.toNat - '0'.toNat)
  else if 'a' ≤ c ∧ c ≤ 'f' then some (c.toNat - 'a'.toNat + 10)
  else if 'A' ≤ c ∧ c ≤ 'F' then some (c.toNat - 'A'.toNat + 10)
  else none

/-- The character behind a backslash and one letter. -/
def unescape? : Char → Option Char
  | '"' => some '"'
  | '\\' => some '\\'
  | '/' => some '/'
  | 'b' => some '\x08'
  | 'f' => some '\x0c'
  | 'n' => some '\n'
  | 'r' => some '\r'
  | 't' => some '\t'
  | _ => none

def unit? (a b c d : Char) : Option Nat := do
  return ((← hexDigit? a) * 16 + (← hexDigit? b)) * 256 + ((← hexDigit? c) * 16 + (← hexDigit? d))

/-- The pieces up to the closing quote, and what follows it. Control characters must be
escaped. -/
def pieces? : List Char → Option (List Piece × List Char)
  | [] => none
  | '"' :: rest => some ([], rest)
  | '\\' :: 'u' :: a :: b :: c :: d :: rest => do
    let n ← unit? a b c d
    let (ps, rest) ← pieces? rest
    return (.unit n :: ps, rest)
  | '\\' :: e :: rest => do
    let c ← unescape? e
    let (ps, rest) ← pieces? rest
    return (.escaped c :: ps, rest)
  | c :: rest =>
    if c = '\\' ∨ c.toNat < 0x20 then none
    else do
      let (ps, rest) ← pieces? rest
      return (.char c :: ps, rest)

def isHighSurrogate (n : Nat) : Bool := decide (0xD800 ≤ n) && decide (n < 0xDC00)

def isLowSurrogate (n : Nat) : Bool := decide (0xDC00 ≤ n) && decide (n < 0xE000)

/-- Joins surrogate pairs; fails where a surrogate stands alone. -/
def joinPieces? : List Piece → Option (List Char)
  | [] => some []
  | .char c :: ps => (joinPieces? ps).map (c :: ·)
  | .escaped c :: ps => (joinPieces? ps).map (c :: ·)
  | .unit hi :: .unit lo :: ps =>
    if isHighSurrogate hi then
      if isLowSurrogate lo then
        (joinPieces? ps).map (Char.ofNat (0x10000 + (hi - 0xD800) * 0x400 + (lo - 0xDC00)) :: ·)
      else none
    else if isLowSurrogate hi then none
    else (joinPieces? (.unit lo :: ps)).map (Char.ofNat hi :: ·)
  | .unit n :: ps =>
    if isHighSurrogate n || isLowSurrogate n then none
    else (joinPieces? ps).map (Char.ofNat n :: ·)

def Piece.isPlain : Piece → Bool
  | .char _ => true
  | _ => false

/-- The text of the pieces of a string, unless a surrogate stands alone. -/
def piecesText? (ps : List Piece) : Option String :=
  (joinPieces? ps).map String.ofList

/-- The name of a member from the pieces of its string. -/
def Name.ofPieces (ps : List Piece) : Name where
  text? := piecesText? ps
  isPlain := ps.all Piece.isPlain

end FacetedSearch.Json
