import DocumentQuery.Bound.Limits
import DocumentQuery.Plan.Reduction

/-!
# Execution plans

A plan is everything that is decided about a bound query before the first call: that it keeps to the
limits, which calls it makes, which part of the documents it keeps and how it reduces them.

## Main definitions

* `Source` — the calls that bring the documents
* `Source.ofSelection` — the calls for selected documents of a collection
* `ExecutionPlan` — source, window and reduction
* `BoundQuery.plan` — the plan of a query
-/

namespace DocumentQuery

/-- The calls that bring the documents: a lookup by identity, one query, or one query for each conjunction of
a disjunction that the store does not take. -/
inductive Source where
  /-- One document by its identity. -/
  | lookup (collectionPath id : String)
  | query (query : StoreQuery)
  /-- One query for each conjunction; the answers are merged. -/
  | disjunction (queries : List StoreQuery)
deriving Inhabited

namespace Source

/-- The number of calls. -/
def callCount : Source → Nat
  | .lookup _ _ => 1
  | .query _ => 1
  | .disjunction queries => queries.length

/-- Whether the documents come from one query. -/
def isQuery : Source → Bool
  | .query _ => true
  | _ => false

/-- The query for selected documents, with a filter of its own. -/
def queryFor (collectionPath : String) (s : Selection) (filter : Option StoreFilter) : StoreQuery where
  collectionPath := collectionPath
  filter := filter
  orderBy := s.orderBy
  limit := s.window.serverLimit
  limitToLast := s.window.limitToLast

/-- The calls for selected documents of a collection. The size of the conditions is checked for every store,
so that whether a query is accepted does not depend on the store it is run on. -/
def ofSelection (limits : QueryLimits) (nativeOr : Bool) (collectionPath : String) (s : Selection) :
    Except QueryError Source := do
  Condition.checkSize limits.maxDisjunctions s.conditions
  if !Condition.anyHasOr s.conditions || nativeOr then
    return .query (queryFor collectionPath s (Condition.foldAll s.conditions))
  else
    return .disjunction <| (Condition.expandAll s.conditions).map fun clauses =>
      queryFor collectionPath s (Condition.conjunction clauses)

end Source

/-- Everything that is decided about a query before the first call. -/
structure ExecutionPlan where
  source : Source
  /-- The order in which answers are merged. -/
  orderBy : List StoreOrder
  window : Window
  reduction : Reduction
deriving Inhabited

mutual

/-- Refuses conditions of a navigation that expand into too many conjunctions. -/
def Loading.checkSize (limit : Nat) : Loading → Except QueryError Unit
  | ⟨_, _, conditions, _, _, _, children⟩ => do
    Condition.checkSize limit conditions
    Loading.checkSizes limit children

/-- Refuses conditions of navigations that expand into too many conjunctions. -/
def Loading.checkSizes (limit : Nat) : List Loading → Except QueryError Unit
  | [] => .ok ()
  | l :: ls => do
    Loading.checkSize limit l
    Loading.checkSizes limit ls

end

namespace BoundQuery

/-- The documents a query selects, narrowed to the elements it asks for. An element needs one document or two,
and nothing else of the page. -/
def selection (q : BoundQuery) : Selection where
  conditions := q.access.conditions
  orderBy := q.orderBy.map StoreOrder.ofKey
  window := (Window.ofCounts q.skip q.limit q.limitToLast).narrow q.cardinality

/-- The reduction of a query, and the documents it is taken from. -/
def reduction (q : BoundQuery) : Except Failure (Selection × Reduction) :=
  match q.aggregation with
  | none => .ok (q.selection, .documents)
  | some aggregation => aggregation.prepare q.selection

/-- Checks a query against the limits of the store: its conditions and orderings, those of the navigations it
loads, and how many queries they all expand into. -/
def check (limits : QueryLimits) (q : BoundQuery) : Except QueryError Unit := do
  limits.check q
  Loading.checkSizes limits.maxDisjunctions q.includes

/-- The calls of a query for selected documents. -/
def source (limits : QueryLimits) (nativeOr : Bool) (q : BoundQuery) (s : Selection) :
    Except QueryError Source :=
  match q.access with
  | .document id => .ok (.lookup q.collection id)
  | .collection _ => Source.ofSelection limits nativeOr q.collection s

/-- The plan of a query. It is checked, then reduced, then given its calls, in this order, and nothing has
been asked of the store when a fault is found. -/
def plan (limits : QueryLimits) (nativeOr : Bool) (q : BoundQuery) : Except Failure ExecutionPlan := do
  (q.check limits).mapError Failure.query
  let (selection, reduction) ← q.reduction
  let source ← (q.source limits nativeOr selection).mapError Failure.query
  return {
    source := source
    orderBy := selection.orderBy
    window := selection.window
    reduction := if source.isQuery then reduction else reduction.toClient }

end BoundQuery

end DocumentQuery
