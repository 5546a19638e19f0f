import DocumentQuery.Compile.Pipeline
import DocumentQuery.Bound.Binding
import DocumentQuery.Plan.Document
import DocumentQuery.Run.Loading
import DocumentQuery.Settings.Basic
import DocumentQuery.Shape.Shaping

/-!
# The query engine

A pipeline is compiled once. A run binds the template, plans it, makes the calls, makes instances of the
documents, loads their navigations, and picks the elements that were asked for.

## Main definitions

* `Engine` — a model with settings
* `Engine.compile` — the template of a pipeline
* `Engine.execute` — a run of a template
* `Engine.explain` — what a run would do
* `Outcome` — what a run returns
-/

namespace DocumentQuery

/-- A model with the settings for queries over it. An engine has no state of its own; the plans that are kept
are given to a run and taken back. -/
structure Engine where
  model : Model
  settings : Settings
deriving Inhabited

/-- What a run returns. -/
inductive Outcome where
  | sequence (values : List Value)
  | single (value : Value)
  /-- The value of a reduction. -/
  | scalar (value : Value)
deriving Inhabited

namespace Outcome

/-- The document of an outcome. -/
def toJson (g : Graph) : Outcome → Json
  | .sequence values => .arr (values.map g.render)
  | .single value => g.render value
  | .scalar value => g.render value

end Outcome

/-- What a run would do. -/
structure Explanation where
  template : Template
  query : BoundQuery
  plan : ExecutionPlan
deriving Inhabited

/-- The exchange form of what a run would do. -/
def Explanation.toJson (e : Explanation) : Json :=
  Json.mkObj [("node", e.template.toJson), ("resolved", e.query.toJson), ("plan", e.plan.toJson)]

/-- The scalar type of the value of a reduction. -/
def Aggregation.resultType (a : Aggregation) : Except Failure ScalarType :=
  match a.kind with
  | .count => .ok .int
  | .any => .ok .bool
  | .average => .ok .float
  | .sum | .min | .max =>
    match a.field.bind (·.declared.scalar?) with
    | some type => .ok type
    | none => .error (.materialization (.noScalarSelector a.kind))

namespace BoundQuery

/-- Whether a query allows for no element. -/
def allowsNone (q : BoundQuery) : Bool :=
  match q.cardinality with
  | .sequence => true
  | .first orDefault => orDefault
  | .single orDefault => orDefault
  | .last orDefault => orDefault

/-- The element a query asks for, if there is one. -/
def element? (q : BoundQuery) (values : List Value) : Option Value :=
  match q.cardinality with
  | .last _ => values.getLast?
  | _ => values.head?

/-- Why there is no element. -/
def missing (q : BoundQuery) : Failure :=
  match q.access with
  | .document id => .notFound (Document.pathOf q.collection id)
  | .collection _ => .emptySequence

/-- Picks the elements a query asks for. -/
def pick (q : BoundQuery) (values : List Value) : Except Failure Outcome :=
  if q.cardinality = .sequence then .ok (.sequence values)
  else
    match q.element? values with
    | some value => .ok (.single value)
    | none => if q.allowsNone then .ok (.single .null) else .error q.missing

/-- Refuses a second element where a single one is asked for. -/
def checkSingle (q : BoundQuery) (documents : List Document) : Except Failure Unit :=
  match q.cardinality with
  | .single _ => if 1 < documents.length then .error .moreThanOneElement else .ok ()
  | _ => .ok ()

end BoundQuery

namespace Engine

/-- The template of a pipeline. -/
def compile (e : Engine) (pipeline : Pipeline) : Except QueryError Template := do
  let template ← pipeline.compile e.model
  if !template.includes.isEmpty && template.projection != .entity then
    throw (.unsupported .includeWithProjection)
  return template

/-- What a run of a template would do on a store: the bound query and its plan. The store is asked for nothing
but whether it knows disjunctions. -/
def explain (e : Engine) (template : Template) (bindings : Bindings) (store : Store) :
    Except Failure Explanation := do
  let query ← (template.bind e.model bindings).mapError Failure.query
  let plan ← query.plan e.settings.limits store.nativeOr
  return ⟨template, query, plan⟩

/-- The value of a reduction. -/
def reductionValue (e : Engine) (q : BoundQuery) (value : Json) : Except Failure Value :=
  match q.aggregation with
  | none => .error (.materialization .noAggregation)
  | some aggregation => do
    let type ← aggregation.resultType
    type.convert e.model value

/-- Makes the value of a document and loads its navigations. Only an entity has navigations to load: a
projection has none, and a query with both is not compiled. -/
def valueOf (e : Engine) (q : BoundQuery) (d : Document) : Run Value := do
  let item ← Run.ofExcept (q.projection.shape e.model q.entityType d)
  let value ← Run.making (q.projection.materialize e.model q.entityType item)
  match value.toObject? with
  | some owner => Loading.loadAll e.model e.settings q.includes owner d
  | none => pure ()
  return value

/-- Makes the values of documents in order. -/
def valuesOf (e : Engine) (q : BoundQuery) : List Document → Run (List Value)
  | [] => pure []
  | d :: ds => do
    let value ← e.valueOf q d
    let values ← valuesOf e q ds
    return value :: values

/-- Makes the outcome of fetched documents. A second document for a single element is noticed before any
instance is made, and which element is picked is decided when all of them are made. -/
def outcomeOf (e : Engine) (q : BoundQuery) (documents : List Document) : Run Outcome := do
  Run.ofExcept (q.checkSingle documents)
  let values ← e.valuesOf q documents
  Run.connected Connected.checkCancelled
  Run.ofExcept (q.pick values)

/-- Runs a bound query. A value of a reduction is the outcome at once; documents are made into instances,
provided that the caller has not cancelled in the meantime. -/
def executeBound (e : Engine) (q : BoundQuery) : Run Outcome := do
  match ← Run.connected (q.fetch e.settings) with
  | .value value => do
    let value ← Run.ofExcept (e.reductionValue q value)
    return .scalar value
  | .documents documents => e.outcomeOf q documents

/-- Runs a template: binds it, and runs the bound query. A template can be run any number of times, with other
values for its parameters each time. -/
def execute (e : Engine) (template : Template) (bindings : Bindings) : Run Outcome := do
  let q ← Run.ofExcept ((template.bind e.model bindings).mapError Failure.query)
  e.executeBound q

/-- The state in which a run starts, with the plans kept from earlier ones. -/
def start (connection : Connection) (plans : PlanCache) : RunState :=
  ⟨connection, ⟨.empty, plans⟩⟩

end Engine

end DocumentQuery
