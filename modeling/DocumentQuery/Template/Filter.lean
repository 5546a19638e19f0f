import DocumentQuery.Json.Writer
import DocumentQuery.Schema.Types

/-!
# Filters

A filter is what remains of a predicate once it is written in the operators of the store: clauses that
compare one stored field with one operand, joined by conjunction and disjunction. Operands are
constants or parameters that are bound when the query runs.

## Main definitions

* `FilterOp` — the comparisons of the store, with their negations and swapped forms
* `FieldRef` — a stored field, or the identity of the document
* `Clause`, `Filter` — one comparison, and a tree of them
* `Filter.clauses` — the comparisons of a tree from left to right
-/

namespace DocumentQuery

/-- A comparison of the store. -/
inductive FilterOp where
  | equalTo
  | notEqualTo
  | lessThan
  | lessThanOrEqualTo
  | greaterThan
  | greaterThanOrEqualTo
  | arrayContains
  | isIn
  | arrayContainsAny
  | notIn
deriving DecidableEq, Inhabited

namespace FilterOp

/-- The name of a comparison. -/
def name : FilterOp → String
  | .equalTo => "EqualTo"
  | .notEqualTo => "NotEqualTo"
  | .lessThan => "LessThan"
  | .lessThanOrEqualTo => "LessThanOrEqualTo"
  | .greaterThan => "GreaterThan"
  | .greaterThanOrEqualTo => "GreaterThanOrEqualTo"
  | .arrayContains => "ArrayContains"
  | .isIn => "In"
  | .arrayContainsAny => "ArrayContainsAny"
  | .notIn => "NotIn"

/-- Whether the store restricts the comparison to one field a query. -/
def isInequality : FilterOp → Bool
  | .notEqualTo | .lessThan | .lessThanOrEqualTo | .greaterThan | .greaterThanOrEqualTo | .notIn => true
  | .equalTo | .arrayContains | .isIn | .arrayContainsAny => false

/-- Whether the operand is a list of candidates. -/
def takesList : FilterOp → Bool
  | .isIn | .arrayContainsAny | .notIn => true
  | _ => false

/-- The comparison that holds when this one does not, if the store has it. There is none for the two that look
into a stored collection. -/
def negated? : FilterOp → Option FilterOp
  | .equalTo => some .notEqualTo
  | .notEqualTo => some .equalTo
  | .lessThan => some .greaterThanOrEqualTo
  | .lessThanOrEqualTo => some .greaterThan
  | .greaterThan => some .lessThanOrEqualTo
  | .greaterThanOrEqualTo => some .lessThan
  | .isIn => some .notIn
  | .notIn => some .isIn
  | .arrayContains | .arrayContainsAny => none

/-- The comparison to use when the operands change sides. -/
def swapped : FilterOp → FilterOp
  | .lessThan => .greaterThan
  | .lessThanOrEqualTo => .greaterThanOrEqualTo
  | .greaterThan => .lessThan
  | .greaterThanOrEqualTo => .lessThanOrEqualTo
  | op => op

@[simp] theorem swapped_swapped (op : FilterOp) : op.swapped.swapped = op := by
  cases op <;> rfl

end FilterOp

/-- The path under which a document's own identity is addressed. -/
def documentIdPath : String := "__name__"

/-- A stored field, addressed by the names on the way to it. It comes with the property it is read through,
for messages, and with what is needed to compare with it: its declared type, whether its nulls are stored, and
its enum. -/
structure FieldRef where
  /-- The stored names, joined by points. -/
  path : String
  /-- The property names as they were written, joined by points. -/
  property : String
  declared : DeclaredType
  persistsNull : Bool
  /-- The enum whose variants the field holds. -/
  enumName : Option String
deriving DecidableEq, Inhabited

namespace FieldRef

/-- The identity of the document, written as a property. -/
def documentId (property : String) : FieldRef :=
  ⟨documentIdPath, property, .scalar .string, false, none⟩

/-- Whether the field is the identity of the document. -/
def isDocumentId (f : FieldRef) : Bool :=
  f.path == documentIdPath

@[simp] theorem isDocumentId_documentId (property : String) :
    (documentId property).isDocumentId = true := by
  simp [isDocumentId, documentId]

end FieldRef

/-- What a field is compared with. -/
inductive Operand where
  | constant (value : Json)
  | parameter (name : String)
deriving Inhabited

/-- The form of an operand in messages. -/
def Operand.inspect : Operand → String
  | .constant value => "Constant(" ++ value.inspect ++ ")"
  | .parameter name => "Parameter(" ++ Text.quoted name ++ ")"

/-- Whether two operands are the same. -/
def Operand.same : Operand → Operand → Bool
  | .constant a, .constant b => a.same b
  | .parameter a, .parameter b => a == b
  | _, _ => false

/-- One comparison of a field. -/
structure Clause where
  field : FieldRef
  operator : FilterOp
  value : Operand
deriving Inhabited

/-- Whether a clause asks for one identity. -/
def Clause.isKeyEquality (c : Clause) : Bool :=
  c.field.isDocumentId && c.operator == .equalTo

/-- Whether two clauses are the same. -/
def Clause.same (a b : Clause) : Bool :=
  a.field == b.field && a.operator == b.operator && a.value.same b.value

/-- A tree of comparisons with operands that may be parameters. A filter has a meaning only together with
values for these. -/
inductive Filter where
  | clause (clause : Clause)
  | or (members : List Filter)
  | and (members : List Filter)
deriving Inhabited

namespace Filter

mutual

/-- The clauses of a filter from left to right. -/
def clauses : Filter → List Clause
  | .clause c => [c]
  | .or members => clausesOf members
  | .and members => clausesOf members

/-- The clauses of filters from left to right. -/
def clausesOf : List Filter → List Clause
  | [] => []
  | f :: fs => clauses f ++ clausesOf fs

end

/-- Whether a filter is a disjunction. -/
def isOr : Filter → Bool
  | .or _ => true
  | _ => false

mutual

/-- Whether two filters are the same. -/
def same : Filter → Filter → Bool
  | .clause a, .clause b => a.same b
  | .or a, .or b => sameAll a b
  | .and a, .and b => sameAll a b
  | _, _ => false

/-- Whether two lists of filters are the same one by one. -/
def sameAll : List Filter → List Filter → Bool
  | [], [] => true
  | a :: as, b :: bs => same a b && sameAll as bs
  | _, _ => false

end

end Filter

/-- The direction of a sort key. -/
inductive Direction where
  | ascending
  | descending
deriving DecidableEq, Inhabited

/-- A field that orders documents. -/
structure SortKey where
  field : FieldRef
  direction : Direction
deriving DecidableEq, Inhabited

end DocumentQuery
