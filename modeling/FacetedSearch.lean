import FacetedSearch.Config.Source
import FacetedSearch.EngineResult.Json
import FacetedSearch.Lookup.Table
import FacetedSearch.Proofs.Paging
import FacetedSearch.Proofs.Stage
import FacetedSearch.Request.Json
import FacetedSearch.Response.Json
import FacetedSearch.Scale.Double
import FacetedSearch.Scale.Exact
import FacetedSearch.Service
import FacetedSearch.Proofs.Compile
import FacetedSearch.Proofs.Service
import FacetedSearch.Proofs.Compile.Reference
import FacetedSearch.Proofs.Double.Rounding
import FacetedSearch.Proofs.Double.Unpacked
import FacetedSearch.Proofs.Double.Order
import FacetedSearch.Proofs.Double.Arithmetic
import FacetedSearch.Proofs.Double.Unsigned
import FacetedSearch.Proofs.Histogram.Ranges
import FacetedSearch.Proofs.Histogram.Lossless
import FacetedSearch.Proofs.Scale.Intervals
import FacetedSearch.Proofs.Service.Failure
import FacetedSearch.Proofs.Stage.Runs
import FacetedSearch.Proofs.PriceCache
import FacetedSearch.Proofs.Double.Quotient
import FacetedSearch.Proofs.Decimal.Nearest
import FacetedSearch.Proofs.Double.Value
import FacetedSearch.Proofs.Text.Numeral
import FacetedSearch.Proofs.Decimal.ReadBack
import FacetedSearch.Proofs.Filter.Json
import FacetedSearch.Proofs.Json.RoundTrip
import FacetedSearch.Proofs.Params.Runs
import FacetedSearch.Proofs.Lookup.Labels
import FacetedSearch.Proofs.Compile.Facets
import FacetedSearch.Proofs.Lookup.Misses
import FacetedSearch.Proofs.Service.Runs
import FacetedSearch.Proofs.Config.RoundTrip
import FacetedSearch.Proofs.Response
import FacetedSearch.Proofs.Aggregation.Attributes
import FacetedSearch.Proofs.Stage.Frame
import FacetedSearch.Proofs.Histogram.Counting
import FacetedSearch.Proofs.Double.Ratio
import FacetedSearch.Proofs.Histogram.Arrangement
import FacetedSearch.Proofs.Decimal.Fixed
import FacetedSearch.Proofs.Histogram.Bounds
import FacetedSearch.Proofs.Histogram.Keys
import FacetedSearch.Proofs.Double.Error
import FacetedSearch.Proofs.Double.Logarithm
import FacetedSearch.Proofs.Histogram.Contained
import FacetedSearch.Proofs.Scale.Coverage
import FacetedSearch.Proofs.Scale.Axis
import FacetedSearch.Proofs.Paging.Offset
import FacetedSearch.Proofs.Stage.Repeats
import FacetedSearch.Proofs.Stage.Order
import FacetedSearch.Proofs.Aggregation.Categories
import FacetedSearch.Proofs.Aggregation.Requested
import FacetedSearch.Proofs.Compile.PriceFacet
import FacetedSearch.Proofs.Double.Closest
import FacetedSearch.Proofs.Decimal.Precision
import FacetedSearch.Proofs.Stage.PriceRange
import FacetedSearch.Proofs.Config.Overrides
import FacetedSearch.Proofs.Request.Spelling
