/-!
# Parts of a text

Cutting a text at a separator, testing how it starts, and dropping leading marks. All work on
the characters, so that they can be evaluated in proofs.
-/

namespace FacetedSearch.Text

/-- The parts between separators; a text without one is its own single part. -/
def splitChars (sep : Char) : List Char → List (List Char)
  | [] => [[]]
  | c :: cs =>
    if c = sep then [] :: splitChars sep cs
    else
      match splitChars sep cs with
      | [] => [[c]]
      | part :: parts => (c :: part) :: parts

def split (sep : Char) (s : String) : List String :=
  (splitChars sep s.toList).map String.ofList

example : split ',' "a,,b" = ["a", "", "b"] := by decide +kernel

/-- Whether `s` begins with `stem`. -/
def startsWith (stem s : String) : Bool :=
  stem.toList.isPrefixOf s.toList

/-- The text without the marks `c` it begins with. -/
def dropLeading (c : Char) (s : String) : String :=
  String.ofList (s.toList.dropWhile (· == c))

example : dropLeading '.' "..USD.default" = "USD.default" := by decide +kernel

end FacetedSearch.Text
