import FacetedSearch.Json.Literal

/-!
# Reading JSON texts

The grammar of RFC 8259, with nothing added: no comments, no trailing commas, no byte order
mark. Each step of the recursion takes at least one character, so the length of the text is fuel
enough.
-/

namespace FacetedSearch.Json

def isSpace (c : Char) : Bool :=
  c == ' ' || c == '\t' || c == '\n' || c == '\r'

def skipSpace (cs : List Char) : List Char :=
  cs.dropWhile isSpace

mutual

/-- Reads one value and gives back what follows it. -/
def treeFrom (doubles : DoubleFormat) : Nat → List Char → Option (Tree × List Char)
  | 0, _ => none
  | fuel + 1, cs =>
    match skipSpace cs with
    | 'n' :: 'u' :: 'l' :: 'l' :: rest => some (.null, rest)
    | 't' :: 'r' :: 'u' :: 'e' :: rest => some (.bool true, rest)
    | 'f' :: 'a' :: 'l' :: 's' :: 'e' :: rest => some (.bool false, rest)
    | '"' :: rest => (pieces? rest).map fun r => (.string (piecesText? r.1), r.2)
    | '[' :: rest =>
      match skipSpace rest with
      | ']' :: rest => some (.array [], rest)
      | rest => (itemsFrom doubles fuel rest).map fun r => (.array r.1, r.2)
    | '{' :: rest =>
      match skipSpace rest with
      | '}' :: rest => some (.object [], rest)
      | rest => (membersFrom doubles fuel rest).map fun r => (.object r.1, r.2)
    | rest => (number? doubles rest).map fun r => (.number r.1, r.2)

/-- Reads the items of an array that is not empty, and its closing bracket. -/
def itemsFrom (doubles : DoubleFormat) : Nat → List Char → Option (List Tree × List Char)
  | 0, _ => none
  | fuel + 1, cs => do
    let (t, rest) ← treeFrom doubles fuel cs
    match skipSpace rest with
    | ',' :: rest =>
      let (ts, rest) ← itemsFrom doubles fuel rest
      return (t :: ts, rest)
    | ']' :: rest => return ([t], rest)
    | _ => none

/-- Reads the members of an object that is not empty, and its closing brace. -/
def membersFrom (doubles : DoubleFormat) : Nat → List Char → Option (List (Name × Tree) × List Char)
  | 0, _ => none
  | fuel + 1, cs =>
    match skipSpace cs with
    | '"' :: rest => do
      let (name, rest) ← pieces? rest
      match skipSpace rest with
      | ':' :: rest =>
        let (t, rest) ← treeFrom doubles fuel rest
        match skipSpace rest with
        | ',' :: rest =>
          let (ms, rest) ← membersFrom doubles fuel rest
          return ((.ofPieces name, t) :: ms, rest)
        | '}' :: rest => return ([(.ofPieces name, t)], rest)
        | _ => none
      | _ => none
    | _ => none

end

/-- Reads a text that is one value, with blanks around it at most. -/
def parseChars? (doubles : DoubleFormat) (cs : List Char) : Option Tree := do
  let (t, rest) ← treeFrom doubles (cs.length + 1) cs
  if (skipSpace rest).isEmpty then return t else none

def parse? (doubles : DoubleFormat) (s : String) : Option Tree :=
  parseChars? doubles s.toList

end FacetedSearch.Json
