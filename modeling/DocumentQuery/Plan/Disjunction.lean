import DocumentQuery.Bound.Basic
import DocumentQuery.Error.Query
import DocumentQuery.Plan.Window

/-!
# Disjunctions

A store that knows disjunction takes the conditions as one filter. For a store that does not, the
conditions are expanded into conjunctions, one query is sent for each, and the answers are merged.

## Main definitions

* `Condition.foldAll` — conditions as one filter
* `Condition.expandAll` — conditions as alternative conjunctions
* `Condition.disjunctsAll` — how many conjunctions there are
* `Document.merge` — the union of several answers
-/

namespace DocumentQuery

/-- The filter of a comparison. -/
def Comparison.toFilter (c : Comparison) : StoreFilter :=
  .compare c.field.path c.operator c.value

namespace Condition

mutual

/-- The filter of a condition. -/
def toFilter : Condition → StoreFilter
  | .compare c => c.toFilter
  | .or members => .or (toFilters members)
  | .and members => .and (toFilters members)

/-- The filters of conditions, one by one. -/
def toFilters : List Condition → List StoreFilter
  | [] => []
  | c :: cs => toFilter c :: toFilters cs

end

/-- Filters as one filter, if there are any. -/
def conjunction : List StoreFilter → Option StoreFilter
  | [] => none
  | [f] => some f
  | fs => some (.and fs)

/-- Conditions that all have to hold as one filter. -/
def foldAll (conditions : List Condition) : Option StoreFilter :=
  conjunction (toFilters conditions)

/-- The conjunctions that join one conjunction of each list. -/
def combine (left right : List (List StoreFilter)) : List (List StoreFilter) :=
  left.flatMap fun conjunction => right.map (conjunction ++ ·)

mutual

/-- The conjunctions one of which holds exactly where the condition holds. A disjunction has those of its
members one after the other, and a conjunction all combinations of one conjunction for each member. -/
def expand : Condition → List (List StoreFilter)
  | .compare c => [[c.toFilter]]
  | .or members => expandAny members
  | .and members => expandAll members

/-- The conjunctions of conditions one of which has to hold. -/
def expandAny : List Condition → List (List StoreFilter)
  | [] => []
  | c :: cs => expand c ++ expandAny cs

/-- The conjunctions of conditions that all have to hold. -/
def expandAll : List Condition → List (List StoreFilter)
  | [] => [[]]
  | c :: cs => combine (expand c) (expandAll cs)

end

mutual

/-- How many conjunctions a condition expands into, up to the largest count. It is computed without expanding,
so that conditions that expand into too many are refused in time. -/
def disjuncts : Condition → Nat
  | .compare _ => 1
  | .or members => disjunctsAny members
  | .and members => disjunctsAll members

/-- How many conjunctions there are when one condition has to hold. -/
def disjunctsAny : List Condition → Nat
  | [] => 0
  | c :: cs => saturate (disjuncts c + disjunctsAny cs)

/-- How many conjunctions there are when all conditions have to hold. -/
def disjunctsAll : List Condition → Nat
  | [] => 1
  | c :: cs => saturate (disjuncts c * disjunctsAll cs)

end

/-- Refuses conditions that expand into too many conjunctions. -/
def checkSize (limit : Nat) (conditions : List Condition) : Except QueryError Unit :=
  if limit < disjunctsAll conditions then
    .error (.unsupported (.tooManyDisjuncts (disjunctsAll conditions) limit))
  else .ok ()

end Condition

namespace Document

/-- Leaves out every document whose path was seen before. -/
def distinct (seen : List String) : List Document → List Document
  | [] => []
  | d :: ds =>
    if seen.contains d.path then distinct seen ds else d :: distinct (d.path :: seen) ds

/-- The union of several answers, in the order of the query. A document that is in several answers is kept
once, by its path, and the answers are sorted together afterwards. -/
def merge (orderBy : List StoreOrder) (answers : List (List Document)) : List Document :=
  sort orderBy (distinct [] answers.flatten)

end Document

end DocumentQuery
