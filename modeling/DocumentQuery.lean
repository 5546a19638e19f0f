import DocumentQuery.Bound.Basic
import DocumentQuery.Bound.Binding
import DocumentQuery.Bound.Document
import DocumentQuery.Bound.Limits
import DocumentQuery.CommandLine
import DocumentQuery.Compile.Field
import DocumentQuery.Compile.Inclusion
import DocumentQuery.Compile.Pipeline
import DocumentQuery.Compile.Predicate
import DocumentQuery.Compile.Projection
import DocumentQuery.Compile.Stage
import DocumentQuery.Error.Failure
import DocumentQuery.Error.Query
import DocumentQuery.Expression.Basic
import DocumentQuery.Expression.Build
import DocumentQuery.Expression.Document
import DocumentQuery.Expression.Inspect
import DocumentQuery.Instance.Convert
import DocumentQuery.Instance.Graph
import DocumentQuery.Instance.Materialize
import DocumentQuery.Instance.Plan
import DocumentQuery.Instance.PlanCache
import DocumentQuery.Instance.Value
import DocumentQuery.Json.Decimal
import DocumentQuery.Json.Decode
import DocumentQuery.Json.Number
import DocumentQuery.Json.Raw
import DocumentQuery.Json.Reader
import DocumentQuery.Json.Value
import DocumentQuery.Json.Writer
import DocumentQuery.Main
import DocumentQuery.Plan.Basic
import DocumentQuery.Plan.Disjunction
import DocumentQuery.Plan.Document
import DocumentQuery.Plan.Reduction
import DocumentQuery.Plan.Run
import DocumentQuery.Plan.Window
import DocumentQuery.Proofs.Bound.Instantiation
import DocumentQuery.Proofs.Bound.Limits
import DocumentQuery.Proofs.Compile.Chains
import DocumentQuery.Proofs.Compile.Growth
import DocumentQuery.Proofs.Compile.Inclusions
import DocumentQuery.Proofs.Compile.Merging
import DocumentQuery.Proofs.Compile.Paging
import DocumentQuery.Proofs.Compile.Restrictions
import DocumentQuery.Proofs.Compile.Root
import DocumentQuery.Proofs.Compile.Rows
import DocumentQuery.Proofs.Compile.Sameness
import DocumentQuery.Proofs.Compile.Skipping
import DocumentQuery.Proofs.Compile.Steps
import DocumentQuery.Proofs.Compile.Trees
import DocumentQuery.Proofs.Graph.History
import DocumentQuery.Proofs.Graph.References
import DocumentQuery.Proofs.Graph.Rendering
import DocumentQuery.Proofs.Graph.Showing
import DocumentQuery.Proofs.Instance.Constructors
import DocumentQuery.Proofs.Instance.Fresh
import DocumentQuery.Proofs.Instance.Misfits
import DocumentQuery.Proofs.Instance.PlanCache
import DocumentQuery.Proofs.Instance.Recency
import DocumentQuery.Proofs.Instance.Scalars
import DocumentQuery.Proofs.Instance.Timestamps
import DocumentQuery.Proofs.Json.Finite
import DocumentQuery.Proofs.Json.Text
import DocumentQuery.Proofs.Lists
import DocumentQuery.Proofs.Ordering.Documents
import DocumentQuery.Proofs.Ordering.Extremum
import DocumentQuery.Proofs.Ordering.Ties
import DocumentQuery.Proofs.Ordering.Value
import DocumentQuery.Proofs.Plan.Conformance
import DocumentQuery.Proofs.Plan.Counting
import DocumentQuery.Proofs.Plan.Disjunction
import DocumentQuery.Proofs.Plan.Elements
import DocumentQuery.Proofs.Plan.Emulation
import DocumentQuery.Proofs.Plan.Expansion
import DocumentQuery.Proofs.Plan.Extremum
import DocumentQuery.Proofs.Plan.FrontOfTail
import DocumentQuery.Proofs.Plan.Lookup
import DocumentQuery.Proofs.Plan.Merging
import DocumentQuery.Proofs.Plan.Reduction
import DocumentQuery.Proofs.Plan.Selection
import DocumentQuery.Proofs.Plan.Summation
import DocumentQuery.Proofs.Plan.Window
import DocumentQuery.Proofs.Predicate.Binding
import DocumentQuery.Proofs.Predicate.Filtering
import DocumentQuery.Proofs.Predicate.Identity
import DocumentQuery.Proofs.Predicate.Meaning
import DocumentQuery.Proofs.Predicate.Membership
import DocumentQuery.Proofs.Predicate.NormalForm
import DocumentQuery.Proofs.Predicate.Translation
import DocumentQuery.Proofs.Predicate.Variants
import DocumentQuery.Proofs.Run.Children
import DocumentQuery.Proofs.Run.Counting
import DocumentQuery.Proofs.Run.Coverage
import DocumentQuery.Proofs.Run.Elements
import DocumentQuery.Proofs.Run.Events
import DocumentQuery.Proofs.Run.Execution
import DocumentQuery.Proofs.Run.Faults
import DocumentQuery.Proofs.Run.Identity
import DocumentQuery.Proofs.Run.Interruption
import DocumentQuery.Proofs.Run.Label
import DocumentQuery.Proofs.Run.Loading
import DocumentQuery.Proofs.Run.Making
import DocumentQuery.Proofs.Run.Order
import DocumentQuery.Proofs.Run.Paths
import DocumentQuery.Proofs.Run.Refusals
import DocumentQuery.Proofs.Run.Requests
import DocumentQuery.Proofs.Run.Respects
import DocumentQuery.Proofs.Run.Rows
import DocumentQuery.Proofs.Run.Script
import DocumentQuery.Proofs.Run.Scripted
import DocumentQuery.Proofs.Run.Sending
import DocumentQuery.Proofs.Run.Siblings
import DocumentQuery.Proofs.Run.Traced
import DocumentQuery.Proofs.Run.Twins
import DocumentQuery.Proofs.Schema.Keys
import DocumentQuery.Proofs.Shape.Fields
import DocumentQuery.Proofs.Shape.Fitting
import DocumentQuery.Proofs.Shape.Unrolling
import DocumentQuery.Proofs.Store.Calls
import DocumentQuery.Proofs.Store.Contents
import DocumentQuery.Proofs.Store.Sum
import DocumentQuery.Proofs.Success
import DocumentQuery.Proofs.Table
import DocumentQuery.Proofs.Template.Target
import DocumentQuery.Proofs.Time.Calendar
import DocumentQuery.Proofs.Time.Text
import DocumentQuery.Run.Basic
import DocumentQuery.Run.Engine
import DocumentQuery.Run.Loading
import DocumentQuery.Schema.Document
import DocumentQuery.Schema.Lookup
import DocumentQuery.Schema.Model
import DocumentQuery.Schema.Types
import DocumentQuery.Settings.Basic
import DocumentQuery.Settings.Environment
import DocumentQuery.Settings.Toml
import DocumentQuery.Settings.Toml.Entry
import DocumentQuery.Settings.Toml.Literal
import DocumentQuery.Shape.Basic
import DocumentQuery.Shape.Shaping
import DocumentQuery.Store.Comparison
import DocumentQuery.Store.Connection
import DocumentQuery.Store.Memory
import DocumentQuery.Store.Query
import DocumentQuery.Store.Sum
import DocumentQuery.Table
import DocumentQuery.Template.Basic
import DocumentQuery.Template.Document
import DocumentQuery.Template.Filter
import DocumentQuery.Text.Blank
import DocumentQuery.Text.Hidden
import DocumentQuery.Text.Quoted
import DocumentQuery.Text.Segments
import DocumentQuery.Time.Calendar
import DocumentQuery.Time.Instant
