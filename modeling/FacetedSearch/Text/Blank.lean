/-!
# Blanks

The characters with the Unicode property White_Space (25 code points, unchanged since
Unicode 6.3), and trimming by them. Outer blanks never belong to a price or to a setting.
-/

namespace FacetedSearch.Text

/-- Closed ranges of code points, ascending and apart. -/
def blankRanges : List (Nat × Nat) :=
  [(0x09, 0x0D), (0x20, 0x20), (0x85, 0x85), (0xA0, 0xA0), (0x1680, 0x1680), (0x2000, 0x200A),
   (0x2028, 0x2029), (0x202F, 0x202F), (0x205F, 0x205F), (0x3000, 0x3000)]

def isBlank (c : Char) : Bool :=
  blankRanges.any fun r => decide (r.1 ≤ c.toNat) && decide (c.toNat ≤ r.2)

example : (blankRanges.map fun r => r.2 + 1 - r.1).sum = 25 := by decide

def trimLeft (cs : List Char) : List Char :=
  cs.dropWhile isBlank

/-- The characters from the first to the last that is no blank. -/
def trimChars (cs : List Char) : List Char :=
  (trimLeft (trimLeft cs).reverse).reverse

/-- A text without its outer blanks. -/
def trim (s : String) : String :=
  String.ofList (trimChars s.toList)

example : trim "\t 12.5\u3000" = "12.5" := by decide +kernel

end FacetedSearch.Text
