import DocumentQuery.Plan.Basic
import DocumentQuery.Settings.Basic
import DocumentQuery.Store.Connection

/-!
# Running plans

Running a plan makes its calls in order and keeps what the window keeps. The queries of a disjunction are
branches of the run, which may be started together. Documents that were fetched one by one are filtered,
ordered and cut here, by the same rules as in the store.

## Main definitions

* `Source.fetch` — the documents of a source
* `Selection.ofDocuments` — the selected ones among given documents
* `ExecutionPlan.run` — the documents or the value of a plan
* `BoundQuery.fetch` — the documents or the value of a query
-/

namespace DocumentQuery

/-- What a plan brings. -/
inductive Fetched where
  | documents (documents : List Document)
  | value (value : Json)
deriving Inhabited

/-- The selected ones among given documents, which stay in their order when there is no other. It is what a
selection means for documents in memory, and what the store is expected to do with a collection. -/
def Selection.ofDocuments (s : Selection) (documents : List Document) : List Document :=
  let matching := documents.filter fun d => (Condition.foldAll s.conditions).all (·.accepts d)
  if s.orderBy.isEmpty then s.window.apply matching
  else s.window.apply (Document.sort s.orderBy (matching.filter (·.hasOrderFields s.orderBy)))

/-- Turns a result into a computation that makes no call. -/
def Connected.ofExcept {α : Type} : Except Failure α → Connected α
  | .ok a => pure a
  | .error e => throw e

/-- The documents of a source, before the window. The queries of a disjunction are started together if the
settings say so, and their answers are merged when all of them are there. -/
def Source.documents (parallel : Bool) (orderBy : List StoreOrder) : Source → Connected (List Document)
  | .lookup collectionPath id => do
    let found ← Connected.getDocument collectionPath id
    return found.toList
  | .query q => Connected.runQuery q
  | .disjunction queries => do
    let answers ← Connected.runQueries parallel queries
    return Document.merge orderBy answers

/-- The documents of a source. -/
def Source.fetch (parallel : Bool) (source : Source) (orderBy : List StoreOrder) (window : Window) :
    Connected (List Document) := do
  let documents ← source.documents parallel orderBy
  return window.apply documents

namespace ExecutionPlan

/-- Fetches the documents of a plan and reduces them, unless the documents are the result. -/
def collect (parallel : Bool) (plan : ExecutionPlan) : Connected Fetched := do
  let documents ← plan.source.fetch parallel plan.orderBy plan.window
  match plan.reduction with
  | .client kind path nullable => do
    let value ← Connected.ofExcept (Reduction.fold kind path nullable documents)
    return .value value
  | _ => return .documents documents

/-- The documents or the value of a plan. -/
def run (parallel : Bool) (plan : ExecutionPlan) : Connected Fetched :=
  match plan.reduction, plan.source with
  | .native reduction, .query q => do
    let answer ← Connected.aggregate q reduction
    let value ← Connected.ofExcept (Reduction.finish reduction plan.window.skip answer)
    return .value value
  | _, _ => plan.collect parallel

end ExecutionPlan

/-- Plans a query for the store at hand and runs the plan. Whether the store knows disjunctions is asked once,
before the first call. -/
def BoundQuery.fetch (settings : Settings) (q : BoundQuery) : Connected Fetched := do
  let nativeOr := (← get).store.nativeOr
  let plan ← Connected.ofExcept (q.plan settings.limits nativeOr)
  plan.run settings.execution.parallelDisjunctions

end DocumentQuery
