import FacetedSearch.Double
import FacetedSearch.Json.Parser

/-!
# Reading typed data from JSON

A decoder takes how many arrays and objects may still be opened, and a tree. Records are read
from an object by name, members with other names being skipped unread, or from an array in the
order of their fields. Tagged nodes are read in full first, skipped members included, and then
by the variant that their tag names.
-/

namespace FacetedSearch.Json

abbrev Decoder (α : Type) := Nat → Tree → Option α

namespace Decoder

variable {α : Type}

def text : Decoder String
  | _, .string s => s
  | _, _ => none

def bool : Decoder Bool
  | _, .bool b => some b
  | _, _ => none

/-- A whole number from zero up to, and without, `limit`. -/
def natural (limit : Nat) : Decoder Nat
  | _, .number (some (.whole n)) => if 0 ≤ n ∧ n < limit then some n.toNat else none
  | _, _ => none

/-- A number that fits a word. -/
def word : Decoder Nat := natural Text.wordLimit

/-- A number of either kind, as a double. -/
def double : Decoder Float
  | _, .number (some (.double x)) => some x
  | _, .number (some (.whole n)) => some (Double.withSign (n < 0) (Float.ofNat n.natAbs))
  | _, _ => none

/-- Any value, read in full. -/
def value : Decoder Value
  | room, t => if t.readable room then t.value? else none

/-- Something or `null`. -/
def nullable (d : Decoder α) : Decoder (Option α)
  | _, .null => some none
  | room, t => (d room t).map some

def list (d : Decoder α) : Decoder (List α)
  | room + 1, .array items => items.mapM (d room)
  | _, _ => none

/-- The members of an object whose names are all readable. -/
def entries (d : Decoder α) : Decoder (List (String × α))
  | room + 1, .object members =>
    members.mapM fun m => do return ((← m.1.text?), (← d room m.2))
  | _, _ => none

/-- An object as a map. A repeated name keeps its first place and its last value. -/
def map (d : Decoder α) : Decoder (OrderedMap String α)
  | room, t => (entries d room t).map OrderedMap.ofList

end Decoder

/-- Where the fields of a record are found. -/
inductive Fields where
  | named (members : List (String × Tree))
  | positional (names : List String) (items : List Tree)

namespace Fields

/-- The fields of a record with the given names: none of them given twice, and no items beyond
them. -/
def ofTree? (names : List String) : Tree → Option Fields
  | .object members => do
    let members ← members.mapM fun m => do return ((← m.1.text?), m.2)
    if names.all fun name => decide ((members.map Prod.fst).count name ≤ 1) then
      return .named members
    else none
  | .array items =>
    if items.length ≤ names.length then some (.positional names items) else none
  | _ => none

def find? : Fields → String → Option Tree
  | .named members, name => members.lookup name
  | .positional names items, name => items[names.idxOf name]?

def isNamed : Fields → Bool
  | .named _ => true
  | .positional _ _ => false

variable {α : Type}

def required (d : Decoder α) (room : Nat) (f : Fields) (name : String) : Option α :=
  (f.find? name).bind (d room)

def withDefault (d : Decoder α) (default : α) (room : Nat) (f : Fields) (name : String) :
    Option α :=
  match f.find? name with
  | none => some default
  | some t => d room t

end Fields

namespace Decoder

variable {α : Type}

/-- A record whose fields are read with one array or object less to open. -/
def record (names : List String) (build : Nat → Fields → Option α) : Decoder α
  | room + 1, t => (Fields.ofTree? names t).bind (build room)
  | 0, _ => none

end Decoder

/-- The place of a tag among the variants. Inside another tagged node the place itself may stand
for the name. -/
def variant? (inner : Bool) (variants : List String) : Tree → Option Nat
  | .string s => s.bind fun s => variants.findIdx? (· == s)
  | .number (some (.whole n)) =>
    if inner ∧ 0 ≤ n ∧ n.toNat < variants.length then some n.toNat else none
  | _ => none

/-- The variant of a tagged node and what is left without the tag: an object with exactly one
member of the tag's name, or an array that begins with the tag. -/
def tagged? (tag : String) (variants : List String) (inner : Bool) : Tree → Option (Nat × Tree)
  | .object members =>
    match members.filter (fun m => m.1.text? == some tag) with
    | [m] => do
      let i ← variant? inner variants m.2
      return (i, .object (members.filter fun m => m.1.text? != some tag))
    | _ => none
  | .array (t :: ts) => do
    let i ← variant? inner variants t
    return (i, .array ts)
  | _ => none

end FacetedSearch.Json
