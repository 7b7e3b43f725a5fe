import FacetedSearch.Json.Doubles

/-!
# Writing JSON texts

The compact form has no blanks. The indented form puts each item and member on a line of its
own, two blanks deeper than the bracket that opens it. Quotes, backslashes and control characters
are escaped and nothing else is; a double that is no finite number is written `null`.
-/

namespace FacetedSearch.Json

def hexDigit (n : Nat) : Char :=
  Nat.digitChar n

/-- A character inside a string. -/
def escape (c : Char) : List Char :=
  match c with
  | '"' => ['\\', '"']
  | '\\' => ['\\', '\\']
  | '\x08' => ['\\', 'b']
  | '\x0c' => ['\\', 'f']
  | '\n' => ['\\', 'n']
  | '\r' => ['\\', 'r']
  | '\t' => ['\\', 't']
  | c =>
    if c.toNat < 0x20 then ['\\', 'u', '0', '0', hexDigit (c.toNat / 16), hexDigit (c.toNat % 16)]
    else [c]

def quoted (s : String) : List Char :=
  '"' :: (s.toList.flatMap escape ++ ['"'])

def Number.chars (doubles : DoubleFormat) : Number → List Char
  | .whole n => if n < 0 then '-' :: Text.digits n.natAbs else Text.digits n.natAbs
  | .double x => if x.isFinite then doubles.chars x else "null".toList

/-- The text of a number, as it stands in a document. -/
def Number.text (n : Number) (doubles : DoubleFormat) : String :=
  String.ofList (n.chars doubles)

namespace Value

mutual

/-- The compact text of a value. -/
def chars (doubles : DoubleFormat) : Value → List Char
  | .null => "null".toList
  | .bool true => "true".toList
  | .bool false => "false".toList
  | .number n => n.chars doubles
  | .string s => quoted s
  | .array [] => ['[', ']']
  | .array (v :: vs) => '[' :: (v.chars doubles ++ itemsChars doubles vs)
  | .object [] => ['{', '}']
  | .object ((name, v) :: ms) =>
    '{' :: (quoted name ++ ':' :: (v.chars doubles ++ membersChars doubles ms))

/-- What follows the first item, down to the closing bracket. -/
def itemsChars (doubles : DoubleFormat) : List Value → List Char
  | [] => [']']
  | v :: vs => ',' :: (v.chars doubles ++ itemsChars doubles vs)

/-- What follows the first member, down to the closing brace. -/
def membersChars (doubles : DoubleFormat) : List (String × Value) → List Char
  | [] => ['}']
  | (name, v) :: ms =>
    ',' :: (quoted name ++ ':' :: (v.chars doubles ++ membersChars doubles ms))

end

def render (v : Value) (doubles : DoubleFormat) : String :=
  String.ofList (v.chars doubles)

def newLine (depth : Nat) : List Char :=
  '\n' :: List.replicate (2 * depth) ' '

mutual

/-- The indented text of a value that stands `depth` levels deep. -/
def indentedChars (doubles : DoubleFormat) (depth : Nat) : Value → List Char
  | .array (v :: vs) =>
    '[' :: (newLine (depth + 1) ++ v.indentedChars doubles (depth + 1) ++
      indentedItems doubles depth vs)
  | .object ((name, v) :: ms) =>
    '{' :: (newLine (depth + 1) ++ quoted name ++ ':' :: ' ' ::
      (v.indentedChars doubles (depth + 1) ++ indentedMembers doubles depth ms))
  | .null => chars doubles .null
  | .bool b => chars doubles (.bool b)
  | .number n => chars doubles (.number n)
  | .string s => chars doubles (.string s)
  | .array [] => chars doubles (.array [])
  | .object [] => chars doubles (.object [])

def indentedItems (doubles : DoubleFormat) (depth : Nat) : List Value → List Char
  | [] => newLine depth ++ [']']
  | v :: vs =>
    ',' :: (newLine (depth + 1) ++ v.indentedChars doubles (depth + 1) ++
      indentedItems doubles depth vs)

def indentedMembers (doubles : DoubleFormat) (depth : Nat) : List (String × Value) → List Char
  | [] => newLine depth ++ ['}']
  | (name, v) :: ms =>
    ',' :: (newLine (depth + 1) ++ quoted name ++ ':' :: ' ' ::
      (v.indentedChars doubles (depth + 1) ++ indentedMembers doubles depth ms))

end

def renderIndented (v : Value) (doubles : DoubleFormat) : String :=
  String.ofList (v.indentedChars doubles 0)

example : render (.object [("a\n", .array [ofNat 1, ofFloat 1]), ("b", .null)]) .shortest =
    "\x7b\"a\\n\":[1,1.0],\"b\":null\x7d" := by decide +kernel

end Value

end FacetedSearch.Json
