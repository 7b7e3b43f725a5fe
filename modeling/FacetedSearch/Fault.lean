import FacetedSearch.Decimal.Layout
import FacetedSearch.Scale.Basic
import FacetedSearch.Scope

/-!
# Faults

Why something was not done. Causes found here are data; only `Fault.message` knows their
wording. Causes reported by the engine and the lookups come with a text of their own.
-/

namespace FacetedSearch

/-- Why an argument cannot be worked with. -/
inductive Argument where
  | zeroPageSize
  | pageOutOfRange (page size : Nat)
  | offsetOutOfRange (offset : Nat)
  | scale (fault : Scale.Fault Float)
  | other (detail : String)
deriving DecidableEq

inductive Fault where
  | invalidArgument (cause : Argument)
  | scopeNotFound (name : String)
  | priceKeyUnavailable (scope : Scope)
  | engine (detail : String)
  | io (detail : String)
  | json (detail : String)
  | config (detail : String)
deriving DecidableEq

namespace Fault

def natText (n : Nat) : String :=
  String.ofList (Text.digits n)

end Fault

open Fault in
/-- The wording of a scale's fault. -/
def Scale.Fault.message : Scale.Fault Float → String
  | .notPositive x =>
    "nice number needs a positive finite value, got " ++ Decimal.Layout.plain.text x
  | .noBuckets => "max bucket count must be greater than zero"
  | .tooFewTicks n => "an axis needs at least two ticks, got " ++ natText n
  | .emptyRange a b =>
    "empty axis range [" ++ Decimal.Layout.plain.text a ++ ", " ++
      Decimal.Layout.plain.text b ++ "]"

open Fault in
def Argument.message : Argument → String
  | .zeroPageSize => "page size must be greater than zero"
  | .pageOutOfRange page size =>
    "page " ++ natText page ++ " of size " ++ natText size ++ " is out of range"
  | .offsetOutOfRange offset => "offset " ++ natText offset ++ " is out of range"
  | .scale fault => fault.message
  | .other detail => detail

namespace Fault

/-- The text of a fault as it is logged and shown. -/
def message : Fault → String
  | .invalidArgument cause => "Invalid argument: " ++ cause.message
  | .scopeNotFound name => "Scope not found: " ++ name
  | .priceKeyUnavailable scope => "Price key unavailable for scope " ++ scopeText scope
  | .engine detail => "Engine error: " ++ detail
  | .io detail => "IO error: " ++ detail
  | .json detail => "JSON error: " ++ detail
  | .config detail => "Configuration error: " ++ detail

/-- Whether a search can still be answered, with fewer filters or facets. Only a failed engine
call ends it. -/
def isDegradable : Fault → Bool
  | .engine _ => false
  | _ => true

/-- A fault of a scale is an invalid argument to whoever asked for it. -/
def ofScale (fault : Scale.Fault Float) : Fault :=
  .invalidArgument (.scale fault)

end Fault

end FacetedSearch
