import DocumentQuery.Error.Failure
import DocumentQuery.Plan.Disjunction
import DocumentQuery.Store.Memory

/-!
# Reductions

A query may ask for one value instead of documents. Counts, sums and averages are left to the store
when it sees the whole query. The store has no minimum or maximum: they become an ordered query for one
document where nothing else restricts the documents. Everything else is reduced from the documents.

## Main definitions

* `Reduction` — how the documents become the result
* `Selection` — the conditions, the order and the window a reduction may change
* `Aggregation.prepare` — the reduction of an aggregation
* `Reduction.fold` — the value of documents
-/

namespace DocumentQuery

/-- How the documents of a query become its result: they are the result themselves, the store reduces them, or
they are reduced after they were fetched. -/
inductive Reduction where
  | documents
  /-- The store reduces; skipped documents are subtracted from counts. -/
  | native (reduction : StoreReduction)
  /-- The documents are reduced after they are fetched. -/
  | client (kind : AggregateKind) (path : Option String) (nullable : Bool)
deriving DecidableEq, Inhabited

namespace Reduction

/-- The reduction after fetching that takes the place of one by the store. -/
def toClient : Reduction → Reduction
  | .native .count => .client .count none false
  | .native (.sum path) => .client .sum (some path) false
  | .native (.average path) => .client .average (some path) false
  | r => r

end Reduction

/-- The documents a query selects: conditions that all have to hold, an ordering, and the part of the ordered
list that is kept. -/
structure Selection where
  conditions : List Condition
  orderBy : List StoreOrder
  window : Window
deriving Inhabited

namespace Selection

/-- The field of the first inequality. -/
def inequality? (s : Selection) : Option String :=
  ((Condition.comparisonsOf s.conditions).find? (·.operator.isInequality)).map (·.field.path)

/-- The condition that a field is not null. -/
def notNull (field : FieldRef) : Condition :=
  .compare ⟨field, .notEqualTo, .null⟩

/-- The selection of the one document that holds an extremum of a field, if that is how it can be found.
Stored nulls come first in an ascending order and are kept out. -/
def extremum (s : Selection) (field : FieldRef) (direction : Direction) : Selection :=
  let inequality := s.inequality?
  if s.window.isUnbounded && inequality.all (· == field.path) then
    { conditions :=
        if field.persistsNull && inequality.isNone then s.conditions ++ [notNull field]
        else s.conditions
      orderBy := [⟨field.path, direction⟩]
      window := { s.window with limit := some 1 } }
  else s

end Selection

namespace Aggregation

/-- The reduction after fetching. -/
def client (a : Aggregation) : Reduction :=
  .client a.kind (a.field.map (·.path)) a.nullable

/-- A sum or an average, which cannot leave documents out at the start. The store adds up all that it sends,
so it is left to the store only where nothing is skipped and no tail is cut. -/
def summation (a : Aggregation) (s : Selection) (native : StoreReduction) :
    Except Failure (Selection × Reduction) :=
  if 0 < s.window.skip then .error (.query (.unsupported (.skippedAggregate a.kind)))
  else if s.window.limitToLast.isSome then .ok (s, a.client)
  else .ok (s, .native native)

/-- The reduction of an aggregation, and the documents it is taken from. They are not always those of the
query: a test for existence needs one of them, and an extremum may be found by another ordering. -/
def prepare (a : Aggregation) (s : Selection) : Except Failure (Selection × Reduction) :=
  match a.kind, a.field with
  | .count, _ =>
    if s.window.limitToLast.isSome || s.window.lastOnly then .ok (s, a.client)
    else .ok (s, .native .count)
  | .any, _ => .ok ({ s with window := s.window.limitedTo 1 }, a.client)
  | kind, none => .error (.materialization (.noSelector kind))
  | .sum, some field => a.summation s (.sum field.path)
  | .average, some field => a.summation s (.average field.path)
  | .min, some field => .ok (s.extremum field .ascending, a.client)
  | .max, some field => .ok (s.extremum field .descending, a.client)

end Aggregation

namespace Json

/-- The first of the smallest values. -/
def least? : List Json → Option Json
  | [] => none
  | v :: vs => some (vs.foldl (fun best v => if best.order v == .gt then v else best) v)

/-- The last of the greatest values. -/
def greatest? : List Json → Option Json
  | [] => none
  | v :: vs => some (vs.foldl (fun best v => if best.order v == .gt then best else v) v)

end Json

namespace Reduction

/-- The values that documents hold in a field, without nulls. -/
def values (path : Option String) (documents : List Document) : List Json :=
  match path with
  | some path => (documents.filterMap (·.field? path)).filter (!·.isNull)
  | none => []

/-- The numbers that documents hold in a field. -/
def numbers (path : Option String) (documents : List Document) : List Number :=
  (values path documents).filterMap Json.toNumber?

/-- An extremum, if there is one or there may be none. -/
def extremum (nullable : Bool) : Option Json → Except Failure Json
  | some value => .ok value
  | none => if nullable then .ok .null else .error .emptySequence

/-- The value of documents. -/
def fold (kind : AggregateKind) (path : Option String) (nullable : Bool) (documents : List Document) :
    Except Failure Json :=
  match kind with
  | .count => .ok (.count documents.length)
  | .any => .ok (.bool !documents.isEmpty)
  | .sum => .ok (Number.sum (numbers path documents))
  | .average =>
    match Number.average? (numbers path documents) with
    | some value => .ok value
    | none => .error .emptySequence
  | .min => extremum nullable (Json.least? (values path documents))
  | .max => extremum nullable (Json.greatest? (values path documents))

/-- The value of a reduction by the store. A count is less by the skipped documents, a sum of nothing is zero,
and there is no average of nothing. A null is taken for the answer that there are no numbers. -/
def finish (reduction : StoreReduction) (skip : Nat) (value : Json) : Except Failure Json :=
  match reduction with
  | .count => .ok (.count ((value.toCount?.getD 0) - skip))
  | .sum _ => .ok (if value.isNull then .int 0 else value)
  | .average _ => if value.isNull then .error .emptySequence else .ok value

end Reduction

end DocumentQuery
