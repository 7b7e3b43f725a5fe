import FacetedSearch.Attempt
import FacetedSearch.Json.Value

/-!
# Paging

The page that is shown: its number from one on, its size, and the offset of its first item. Page
numbers, sizes and offsets fit a word; a page that would begin beyond it is refused.
-/

namespace FacetedSearch

/-- The offset is that of the first item of the page. -/
structure Paging where
  pageNumber : Nat
  pageSize : Nat
  offset : Nat
deriving Repr, DecidableEq

namespace Paging

/-- The offset of the first item of a page. -/
def offsetOf (pageNumber pageSize : Nat) : Except Fault Nat :=
  let offset := (pageNumber - 1) * pageSize
  if offset < Text.wordLimit then .ok offset
  else .error (.invalidArgument (.pageOutOfRange pageNumber pageSize))

/-- Goes to a page. There is no page zero; the first page is meant. -/
def setPageNumber (p : Paging) (n : Nat) : Attempt Paging :=
  let pageNumber := max n 1
  match offsetOf pageNumber p.pageSize with
  | .ok offset => .done { p with pageNumber, offset }
  | .error fault => .failed p fault

/-- Changes the size and keeps the page number. -/
def setPageSize (p : Paging) (pageSize : Nat) : Attempt Paging :=
  if pageSize = 0 then .failed p (.invalidArgument .zeroPageSize)
  else
    match offsetOf p.pageNumber pageSize with
    | .ok offset => .done { p with pageSize, offset }
    | .error fault => .failed p fault

/-- Goes to the page that contains an item. -/
def setOffset (p : Paging) (offset : Nat) : Attempt Paging :=
  let pageNumber := offset / p.pageSize + 1
  if pageNumber < Text.wordLimit then p.setPageNumber pageNumber
  else .failed p (.invalidArgument (.offsetOutOfRange offset))

/-- The state that an attempt on a fresh value leaves, or its fault. -/
def settle (a : Attempt Paging) : Except Fault Paging :=
  match a.fault? with
  | none => .ok a.state
  | some fault => .error fault

/-- A page by its number. -/
def ofPage (pageNumber pageSize : Nat) : Except Fault Paging :=
  if pageSize = 0 then .error (.invalidArgument .zeroPageSize)
  else settle ({ pageNumber := 1, pageSize, offset := 0 : Paging }.setPageNumber pageNumber)

/-- The page of a given size that contains an item. -/
def ofOffset (offset pageSize : Nat) : Except Fault Paging := do
  let p ← ofPage 1 pageSize
  settle (p.setOffset offset)

/-- The page as the engine counts, from zero on. -/
def enginePage (p : Paging) : Nat := p.pageNumber - 1

def toValue (p : Paging) : Json.Value :=
  .object [("pageNumber", .ofNat p.pageNumber), ("pageSize", .ofNat p.pageSize),
    ("offset", .ofNat p.offset)]

end Paging

end FacetedSearch
