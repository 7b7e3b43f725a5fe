import FacetedSearch.OrderedMap

/-!
# JSON values

`Value` is what the program carries and writes. `Tree` is what a text says before anybody uses
it: a number may be out of range, a string may hold an unpaired surrogate, and members may
repeat. Such parts do no harm where they are skipped, so a tree keeps them and `Tree.readable`
says which trees can be used in full.
-/

namespace FacetedSearch.Json

/-- Numbers keep apart whole ones and doubles. -/
inductive Number where
  | whole (n : Int)
  | double (x : Float)
deriving Repr, DecidableEq

inductive Value where
  | null
  | bool (b : Bool)
  | number (n : Number)
  | string (s : String)
  | array (items : List Value)
  /-- Members in order of arrival, each name once. -/
  | object (members : List (String × Value))
deriving Repr

/-- The name of a member as it is written. -/
structure Name where
  /-- Without a text where a surrogate stands alone. -/
  text? : Option String
  /-- Whether it is written without escapes. -/
  isPlain : Bool
deriving Repr, DecidableEq

inductive Tree where
  | null
  | bool (b : Bool)
  /-- Without a number where the literal is beyond the doubles. -/
  | number (n : Option Number)
  /-- Without a text where a surrogate stands alone. -/
  | string (s : Option String)
  | array (items : List Tree)
  | object (members : List (Name × Tree))
deriving Repr

/-- A text opens at most this many arrays and objects one inside another. -/
def nestingLimit : Nat := 127

instance : Inhabited Value := ⟨.null⟩

namespace Value

def ofNat (n : Nat) : Value := .number (.whole n)

def ofFloat (x : Float) : Value := .number (.double x)

def ofStrings (ss : List String) : Value := .array (ss.map .string)

def ofMap {α : Type} (f : α → Value) (m : OrderedMap String α) : Value :=
  .object (m.entries.map fun e => (e.1, f e.2))

def member? (v : Value) (name : String) : Option Value :=
  match v with
  | .object ms => ms.lookup name
  | _ => none

def string? : Value → Option String
  | .string s => some s
  | _ => none

end Value

namespace Tree

mutual

/-- Whether every number and string of the tree has a value and at most `room` arrays and
objects are open at once. -/
def readable (room : Nat) : Tree → Bool
  | .null => true
  | .bool _ => true
  | .number n => n.isSome
  | .string s => s.isSome
  | .array items => decide (0 < room) && readableItems (room - 1) items
  | .object members => decide (0 < room) && readableMembers (room - 1) members

def readableItems (room : Nat) : List Tree → Bool
  | [] => true
  | t :: ts => readable room t && readableItems room ts

def readableMembers (room : Nat) : List (Name × Tree) → Bool
  | [] => true
  | (name, t) :: ms => name.text?.isSome && readable room t && readableMembers room ms

end

mutual

/-- The value that a tree carries: a repeated member keeps its first place and its last
value. -/
def value? : Tree → Option Value
  | .null => some .null
  | .bool b => some (.bool b)
  | .number n => n.map .number
  | .string s => s.map .string
  | .array items => (items? items).map .array
  | .object members => (members? [] members).map .object

def items? : List Tree → Option (List Value)
  | [] => some []
  | t :: ts => do
    let v ← value? t
    let vs ← items? ts
    return v :: vs

def members? (acc : List (String × Value)) :
    List (Name × Tree) → Option (List (String × Value))
  | [] => some acc
  | (name, t) :: ms => do
    let name ← name.text?
    let v ← value? t
    members? (OrderedMap.putEntry name v acc) ms

end

end Tree

end FacetedSearch.Json
