import DocumentQuery.Schema.Model
import DocumentQuery.Template.Basic

/-!
# Bound queries

A template becomes a bound query when its parameters are replaced by values. A bound query is what
is checked against the limits of the store and then run.

## Main definitions

* `Comparison`, `Condition` — one comparison with a value, and a tree of them
* `Condition.anyOf`, `Condition.allOf` — joining conditions without nesting like in like
* `Access` — one document by its identity, or the documents that meet all conditions
* `Loading` — a navigation to load, checked against the model
* `BoundQuery` — a query that is ready to run
-/

namespace DocumentQuery

/-- A comparison of a stored field with a value. -/
structure Comparison where
  field : FieldRef
  operator : FilterOp
  value : Json
deriving Inhabited

/-- A tree of comparisons. The groups may have any number of members: a disjunction without members holds of
no document and a conjunction without members of every one. -/
inductive Condition where
  | compare (comparison : Comparison)
  | or (members : List Condition)
  | and (members : List Condition)
deriving Inhabited

namespace Condition

mutual

/-- The comparisons of a condition from left to right. -/
def comparisons : Condition → List Comparison
  | .compare c => [c]
  | .or members => comparisonsOf members
  | .and members => comparisonsOf members

/-- The comparisons of conditions from left to right. -/
def comparisonsOf : List Condition → List Comparison
  | [] => []
  | c :: cs => comparisons c ++ comparisonsOf cs

end

mutual

/-- Whether a condition contains a disjunction at any depth, which not every store can be asked. -/
def hasOr : Condition → Bool
  | .compare _ => false
  | .or _ => true
  | .and members => anyHasOr members

/-- Whether one of the conditions contains a disjunction. -/
def anyHasOr : List Condition → Bool
  | [] => false
  | c :: cs => hasOr c || anyHasOr cs

end

/-- The alternatives of a disjunction; any other condition is its own only alternative. -/
def alternatives : Condition → List Condition
  | .or members => members
  | c => [c]

/-- The conjuncts of a conjunction; any other condition is its own only conjunct. -/
def conjuncts : Condition → List Condition
  | .and members => members
  | c => [c]

/-- The condition that holds where at least one of the conditions holds. Disjunctions among them are taken
apart first, so that none is nested in another, and a single alternative stands for itself. -/
def anyOf (conditions : List Condition) : Condition :=
  match conditions.flatMap alternatives with
  | [c] => c
  | cs => .or cs

/-- The condition that holds where all conditions hold. Conjunctions among them are taken apart first, and a
single condition stands for itself. -/
def allOf (conditions : List Condition) : Condition :=
  match conditions.flatMap conjuncts with
  | [c] => c
  | cs => .and cs

@[simp] theorem comparisonsOf_append (as bs : List Condition) :
    comparisonsOf (as ++ bs) = comparisonsOf as ++ comparisonsOf bs := by
  induction as with
  | nil => simp [comparisonsOf]
  | cons a as ih => simp [comparisonsOf, ih]

end Condition

/-- How a bound query reaches its documents: by one call for the document at an identity, or by queries of the
collection. -/
inductive Access where
  /-- One document, by its identity. -/
  | document (id : String)
  /-- The documents of the collection that meet all conditions. -/
  | collection (conditions : List Condition)
deriving Inhabited

namespace Access

/-- The conditions of an access. -/
def conditions : Access → List Condition
  | .document _ => []
  | .collection conditions => conditions

/-- Whether an access asks for one identity. -/
def isLookup : Access → Bool
  | .document _ => true
  | .collection _ => false

/-- The access by conditions; a single condition that asks for one identity is a lookup. -/
def ofConditions : List Condition → Access
  | [.compare ⟨field, .equalTo, .str id⟩] =>
    if field.isDocumentId then .document id
    else .collection [.compare ⟨field, .equalTo, .str id⟩]
  | conditions => .collection conditions

end Access

/-- A navigation to load, with the conditions, the order and the page of its targets. -/
structure Loading where
  navigation : Navigation
  targetType : String
  conditions : List Condition
  orderBy : List SortKey
  limit : Option Nat
  skip : Option Nat
  /-- The navigations to load on every target. -/
  children : List Loading
deriving Inhabited

/-- A query that is ready to run. All parameters have values, and what a template left open about pages,
navigations and identities is decided. -/
structure BoundQuery where
  collection : String
  entityType : String
  keyProperty : String
  access : Access
  orderBy : List SortKey
  limit : Option Nat
  limitToLast : Option Nat
  skip : Option Nat
  aggregation : Option Aggregation
  cardinality : Cardinality
  projection : Projection
  includes : List Loading
deriving Inhabited

end DocumentQuery
