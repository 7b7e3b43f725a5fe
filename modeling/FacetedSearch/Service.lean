import FacetedSearch.Aggregation
import FacetedSearch.Compile
import FacetedSearch.PriceCache
import FacetedSearch.Response.Basic

/-!
# The search service

One round trip to the engine for each search, and the price axis of a scope. A service carries the
highest prices that it remembers through both, and gives itself back as it is afterwards.
-/

namespace FacetedSearch

structure Service where
  config : Config
  lookups : Lookups
  /-- Whether there is a source of highest prices. -/
  hasPriceSource : Bool := false
  prices : PriceCache := .ofSeconds config.priceCacheSeconds

/-- A query sent to the engine. -/
structure EngineCall where
  index : String
  params : Params

/-- The calls that a search made, in their order, its answer, and the service afterwards. -/
structure Exchange where
  calls : List EngineCall
  answer : Outcome Fault Response
  service : Service

/-- The answer to a question for an axis, the scopes that the source was asked for, and the
service afterwards. -/
structure AxisLookup where
  answer : Except Fault (Option (Scale.Axis Float))
  asked : List Scope
  service : Service

namespace Service

/-- The query for a page of a request, unless compiling it crashes. -/
def callFor? (s : Service) (r : SearchRequest) (p : Paging) : Option EngineCall :=
  (r.compile? s.config s.lookups p).map fun compiled =>
    { index := r.index, params := compiled.params }

/-- The response to what the engine answered, unless its aggregations crash. -/
def respond? (s : Service) (r : SearchRequest) (p : Paging) (result : EngineResult) :
    Option Response :=
  (Aggregation.build? s.lookups Scale.defaultBuckets r.aggregations result.facets
    (r.resolvedScope s.lookups)).map (.ofPage (.ofEngine result p))

/-- The answer to a request for what the engine gave. -/
def answerTo (s : Service) (r : SearchRequest) (p : Paging) :
    Except Fault EngineResult → Outcome Fault Response
  | .error fault => .error fault
  | .ok result =>
    match s.respond? r p result with
    | some response => .ok response
    | none => .crash

/-- Answers a request. Only paging that is not valid and a failed call of the engine are errors. -/
def search (s : Service) (engine : EngineCall → Except Fault EngineResult)
    (r : SearchRequest) : Exchange :=
  match Paging.ofOffset r.offset r.size with
  | .error fault => { calls := [], answer := .error fault, service := s }
  | .ok p =>
    match s.callFor? r p with
    | none => { calls := [], answer := .crash, service := s }
    | some call => { calls := [call], answer := s.answerTo r p (engine call), service := s }

/-- An axis from zero to the highest price of a scope, if that is a positive number. -/
def priceAxis (s : Service) (source : Scope → Except Fault Float) (moment : Moment)
    (scope : Scope) (maxTicks : Nat) : AxisLookup :=
  if s.hasPriceSource then
    let found := s.prices.getOrLoad scope source moment
    let answer := do
      let highest ← found.answer
      if highest.isNaN || decide (highest ≤ 0) then return none
      else
        match Scale.axis 0 highest maxTicks with
        | .ok axis => return some axis
        | .error fault => .error (.ofScale fault)
    { answer, asked := found.asked.toList, service := { s with prices := found.cache } }
  else
    { answer := .error (.config "no max price source installed"), asked := [], service := s }

end Service

end FacetedSearch
