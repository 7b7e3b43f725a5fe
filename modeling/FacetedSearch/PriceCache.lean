import FacetedSearch.Fault
import FacetedSearch.OrderedMap

/-!
# The highest prices

The highest price of each scope is loaded once and remembered for a while. A price that has been
remembered for as long as entries live is stale and is loaded again; where entries live for zero
seconds, that is every time. A load that fails is not remembered and forgets nothing.
-/

namespace FacetedSearch

/-- A reading of a clock that never goes back, in nanoseconds. -/
abbrev Instant := Nat

/-- The clock as it is read during a look-up: at its beginning, and when the source has answered. -/
structure Moment where
  asked : Instant
  answered : Instant
  asked_le_answered : asked ≤ answered := by decide
deriving Repr, DecidableEq

/-- A remembered price. -/
structure PriceEntry where
  loadedAt : Instant
  price : Float
deriving Repr, DecidableEq

structure PriceCache where
  /-- How long an entry lives, in nanoseconds. -/
  lifetime : Nat
  entries : OrderedMap Scope PriceEntry := ∅
deriving Repr, DecidableEq

/-- The answer to a look-up, the scope that the source was asked for, and the cache
afterwards. -/
structure PriceLookup where
  answer : Except Fault Float
  asked : Option Scope
  cache : PriceCache

/-- Whether an entry may still be used at an instant. -/
def PriceEntry.isFresh (e : PriceEntry) (lifetime : Nat) (now : Instant) : Bool :=
  decide (now - e.loadedAt < lifetime)

namespace PriceCache

/-- A new cache whose entries live for so many seconds. -/
def ofSeconds (seconds : Nat) : PriceCache := { lifetime := seconds * 1000000000 }

/-- A remembered price that may still be used. -/
def fresh? (c : PriceCache) (scope : Scope) (now : Instant) : Option Float :=
  ((c.entries.get? scope).filter fun e => e.isFresh c.lifetime now).map PriceEntry.price

/-- The remembered price of a scope if it is fresh, or else what the source answers. -/
def getOrLoad (c : PriceCache) (scope : Scope) (source : Scope → Except Fault Float)
    (moment : Moment) : PriceLookup :=
  match c.fresh? scope moment.asked with
  | some price => { answer := .ok price, asked := none, cache := c }
  | none =>
    match source scope with
    | .ok price =>
      { answer := .ok price
        asked := some scope
        cache := { c with entries := c.entries.insert scope ⟨moment.answered, price⟩ } }
    | .error fault => { answer := .error fault, asked := some scope, cache := c }

def invalidate (c : PriceCache) (scope : Scope) : PriceCache :=
  { c with entries := c.entries.erase scope }

def clear (c : PriceCache) : PriceCache :=
  { c with entries := ∅ }

def size (c : PriceCache) : Nat := c.entries.size

def isEmpty (c : PriceCache) : Bool := c.entries.isEmpty

end PriceCache

end FacetedSearch
