import FacetedSearch.Config.Json
import FacetedSearch.Fault
import FacetedSearch.Json.Writer
import FacetedSearch.Text.Blank
import FacetedSearch.Text.Split

/-!
# Where the configuration comes from

A file holds the configuration as indented JSON. Where no usable file is found the defaults are
taken, all of them. Environment variables go on top, each on one field.
-/

namespace FacetedSearch

/-- A file as it is found. -/
inductive StoredFile where
  | absent
  /-- Bytes that are no UTF-8 text. -/
  | notText
  | text (content : String)
deriving Repr, DecidableEq

/-- Values of environment variables that are set. -/
structure Overrides where
  maxValuesPerFacet : Option String := none
  ruleContext : Option String := none
  facets : Option String := none
deriving Repr, DecidableEq

namespace Overrides

def ofEnvironment (lookup : String → Option String) : Overrides where
  maxValuesPerFacet := lookup "CATALOG_BRIDGE_MAX_VALUES_PER_FACET"
  ruleContext := lookup "CATALOG_BRIDGE_RULE_CONTEXT"
  facets := lookup "CATALOG_BRIDGE_FACETS"

/-- The names in a comma-separated list, without outer blanks. -/
def names (s : String) : List String :=
  ((Text.split ',' s).map Text.trim).filter fun name => !name.isEmpty

/-- Sets each field whose variable has a usable value: a number, a text that is not blank, a
list with at least one name. -/
def apply (o : Overrides) (c : Config) : Config where
  maxValuesPerFacet :=
    (o.maxValuesPerFacet.bind fun s => Text.natural? Text.wordLimit (Text.trim s)).getD
      c.maxValuesPerFacet
  ruleContext :=
    ((o.ruleContext.map Text.trim).filter fun s => !s.isEmpty).getD c.ruleContext
  categoryLevels := c.categoryLevels
  facets :=
    { c.facets with
      common := ((o.facets.map names).filter fun ns => !ns.isEmpty).getD c.facets.common }
  visibility := c.visibility
  priceCacheSeconds := c.priceCacheSeconds

end Overrides

namespace Config

/-- Reads a configuration from a text. It has no doubles, so their format is of no account. -/
def ofText (s : String) : Except Fault Config :=
  match (Json.parse? .shortest s).bind (decode Json.nestingLimit) with
  | some c => .ok c
  | none => .error (.json "not a configuration")

def load : StoredFile → Except Fault Config
  | .absent => .error (.io "no such file")
  | .notText => .error (.io "not a UTF-8 text")
  | .text s => ofText s

/-- Writes a configuration into a directory, which has to exist. -/
def save (c : Config) (directoryExists : Bool) : Except Fault StoredFile :=
  if directoryExists then .ok (.text (c.toValue.renderIndented .shortest))
  else .error (.io "no such directory")

/-- The configuration of a file, or else the defaults, with the overrides on top. -/
def loadOrDefault (file : StoredFile) (o : Overrides) : Config :=
  o.apply (match load file with
    | .ok c => c
    | .error _ => {})

end Config

end FacetedSearch
