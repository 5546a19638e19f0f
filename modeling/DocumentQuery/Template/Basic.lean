import DocumentQuery.Template.Filter

/-!
# Query templates

A template is a compiled query. It names the collection, the filters, the ordering and the paging,
what is made of the documents, and which navigations are loaded along. It is made once and bound to
parameters for every run.

A template addresses its documents in one of two ways: by the filters over the collection, or by one
identity. `Template.addFilter` keeps the second way for the case that an identity is the only filter.
-/

namespace DocumentQuery

/-- How a template addresses its documents. -/
inductive Target where
  | collection
  /-- One document, by its identity. -/
  | document (id : Operand)
deriving Inhabited

/-- A reduction of the documents to one value. -/
inductive AggregateKind where
  | count
  | any
  | sum
  | average
  | min
  | max
deriving DecidableEq, Inhabited

/-- The name of a reduction. -/
def AggregateKind.name : AggregateKind → String
  | .count => "Count"
  | .any => "Any"
  | .sum => "Sum"
  | .average => "Average"
  | .min => "Min"
  | .max => "Max"

/-- A reduction with the field it reads. -/
structure Aggregation where
  kind : AggregateKind
  /-- The field, absent when documents are only counted. -/
  field : Option FieldRef
  /-- Whether a minimum or maximum over nothing is null. -/
  nullable : Bool
deriving DecidableEq, Inhabited

/-- How many elements a query returns; `orDefault` allows for none. -/
inductive Cardinality where
  | sequence
  | first (orDefault : Bool)
  | single (orDefault : Bool)
  | last (orDefault : Bool)
deriving DecidableEq, Inhabited

/-- One member of a projected result. -/
structure ProjectedMember where
  /-- The name in the result; without one the source path names the member. -/
  name : Option String
  source : String
  declared : DeclaredType
deriving DecidableEq, Inhabited

/-- The name of a member in the result. -/
def ProjectedMember.resultName (m : ProjectedMember) : String :=
  m.name.getD m.source

/-- What is made of a document. -/
inductive Projection where
  /-- The entity itself. -/
  | entity
  /-- A single value. -/
  | field (member : ProjectedMember)
  | members (typeName : String) (members : List ProjectedMember)
deriving DecidableEq, Inhabited

/-- A navigation to load, with what restricts it and what is loaded below it. The restrictions are in the
order in which they are carried out: filters, an ordering, a skip and a limit. -/
structure Inclusion where
  navigation : String
  filters : List Filter
  orderBy : List SortKey
  limit : Option Operand
  skip : Option Operand
  nested : List Inclusion
deriving Inhabited

namespace Inclusion

/-- A navigation without restrictions. -/
def plain (navigation : String) : Inclusion :=
  ⟨navigation, [], [], none, none, []⟩

/-- Whether a navigation is restricted. -/
def isRestricted (i : Inclusion) : Bool :=
  !i.filters.isEmpty || !i.orderBy.isEmpty || i.limit.isSome || i.skip.isSome

/-- Whether two optional operands are the same. -/
def sameOperand : Option Operand → Option Operand → Bool
  | none, none => true
  | some a, some b => a.same b
  | _, _ => false

/-- Whether two navigations carry the same restrictions. -/
def sameRestrictions (a b : Inclusion) : Bool :=
  Filter.sameAll a.filters b.filters && a.orderBy == b.orderBy && sameOperand a.limit b.limit
    && sameOperand a.skip b.skip

end Inclusion

/-- A compiled query. Everything about the model has been looked up, and everything about the parameters is
still open, so a template can be kept and run again. -/
structure Template where
  collection : String
  entityType : String
  target : Target
  /-- The filters, all of which have to hold. -/
  filters : List Filter
  orderBy : List SortKey
  limit : Option Operand
  limitToLast : Option Operand
  skip : Option Operand
  aggregation : Option Aggregation
  cardinality : Cardinality
  projection : Projection
  includes : List Inclusion
  /-- The key property of the root entity. -/
  keyProperty : String
deriving Inhabited

namespace Template

/-- The template of all documents of a collection. -/
def all (collection entityType keyProperty : String) : Template where
  collection := collection
  entityType := entityType
  target := .collection
  filters := []
  orderBy := []
  limit := none
  limitToLast := none
  skip := none
  aggregation := none
  cardinality := .sequence
  projection := .entity
  includes := []
  keyProperty := keyProperty

/-- Whether the template asks for one identity. -/
def isLookup (t : Template) : Bool :=
  match t.target with
  | .document _ => true
  | .collection => false

/-- Whether one of the filters is a disjunction. -/
def hasDisjunction (t : Template) : Bool :=
  t.filters.any Filter.isOr

/-- The filters with an identity written out as a clause. -/
def explicitFilters (t : Template) : List Filter :=
  match t.target with
  | .document id => t.filters ++ [.clause ⟨FieldRef.documentId t.keyProperty, .equalTo, id⟩]
  | .collection => t.filters

/-- Adds a filter. A first filter that asks for one identity becomes the target; any further filter
turns the target back into a clause. -/
def addFilter (t : Template) (filter : Filter) : Template :=
  let filters := t.explicitFilters
  match filter with
  | .clause c =>
    if c.isKeyEquality && filters.isEmpty then { t with target := .document c.value, filters := filters }
    else { t with target := .collection, filters := filters ++ [.clause c] }
  | other => { t with target := .collection, filters := filters ++ [other] }

end Template

end DocumentQuery
