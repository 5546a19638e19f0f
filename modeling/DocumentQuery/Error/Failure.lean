import DocumentQuery.Error.Query

/-!
# Failed runs

A run fails because its query is refused, because a call to the store fails, because the documents do
not have the form the model declares, because the number of elements is not the one asked for, or
because the caller cancels it. Every cause is a constructor that carries what the message shows.

## Main definitions

* `StoreError` — a call the store does not answer
* `InstanceFault` — a document that cannot become an instance
* `Failure` — any of the causes, with `Failure.message` as its wording
-/

namespace DocumentQuery

/-- Why a store rejects a query. -/
inductive Rejection where
  | disjunction
  /-- The last documents of a query without an order. -/
  | unorderedTail
  | other (reason : String)
deriving DecidableEq, Inhabited

/-- The wording of why a store rejects a query. -/
def Rejection.message : Rejection → String
  | disjunction => "OR filters are not supported"
  | unorderedTail => "limit_to_last requires an order"
  | other reason => reason

/-- Why a call to a store fails. -/
inductive StoreError where
  | unavailable (reason : String)
  | rejected (reason : Rejection)
  | invalidPath (path : String)
deriving DecidableEq, Inhabited

/-- The wording of why a call to a store fails. -/
def StoreError.message : StoreError → String
  | unavailable reason => s!"Store unavailable: {reason}"
  | rejected reason => s!"Query rejected by store: {reason.message}"
  | invalidPath path => s!"Invalid document path: {path}"

/-- What a stored value was expected to be. -/
inductive Expectation where
  | object
  | list
  | objectElement
  | bool
  | integer
  | float
  | string
  | timestamp
deriving DecidableEq, Inhabited

/-- The expected form in messages. -/
def Expectation.name : Expectation → String
  | object => "an object"
  | list => "a list"
  | objectElement => "an object element"
  | bool => "bool"
  | integer => "integer"
  | float => "float"
  | string => "string"
  | timestamp => "timestamp"

/-- Why a document cannot become an instance. -/
inductive InstanceFault where
  | mismatch (expected : Expectation) (value : Json)
  | nestedCollection
  /-- A double that is no integer of 64 bits. -/
  | notAnInteger (value : Float)
  /-- A text that is no point in time, and why it is none. -/
  | timestampText (text reason : String)
  | notAVariant (value : Json) (enum : String)
  | notAScalar (declared : DeclaredType)
  | notACollection (declared : DeclaredType)
  | notAnObject (declared : DeclaredType)
  | notAScalarElement
  | noConstructor (typeName : String) (names : List String)
  | noSelector (kind : AggregateKind)
  | noScalarSelector (kind : AggregateKind)
  | noAggregation
  /-- A fault in a member of a type. -/
  | inMember (typeName member : String) (fault : InstanceFault)
deriving Inhabited

/-- The wording of why a document cannot become an instance. -/
def InstanceFault.message : InstanceFault → String
  | mismatch expected value => s!"expected {expected.name}, got {value.text}"
  | nestedCollection => "nested collections are not supported"
  | notAnInteger value => s!"{DecimalLayout.plain.write value} cannot be narrowed to an integer"
  | timestampText text reason => s!"invalid timestamp '{text}': {reason}"
  | notAVariant value enum => s!"{value.text} is not a variant of {enum}"
  | notAScalar declared => s!"{declared.inspect} is not a scalar type"
  | notACollection declared => s!"{declared.inspect} is not a collection type"
  | notAnObject declared => s!"{declared.inspect} is not an object type"
  | notAScalarElement => "scalar list with a non-scalar element type"
  | noConstructor typeName names =>
    s!"no constructor of {typeName} can be satisfied by [" ++ String.intercalate ", " names ++ "]"
  | noSelector kind => s!"{kind.name} without a selector"
  | noScalarSelector kind => s!"{kind.name} needs a scalar selector"
  | noAggregation => "aggregate value without an aggregation"
  | inMember typeName member fault => s!"{typeName}.{member}: {fault.message}"

/-- Why settings or fixtures are not accepted, or settings cannot be saved. -/
inductive ConfigFault where
  | fixtures
  | fixtureCollection (collection : String)
  /-- The text of the settings cannot be read. -/
  | settings
  /-- A count is too large to be saved. -/
  | countTooLarge
deriving DecidableEq, Inhabited

/-- The wording of a fault of settings or fixtures. -/
def ConfigFault.message : ConfigFault → String
  | fixtures => "fixtures must be a JSON object of collections"
  | fixtureCollection collection =>
    s!"fixture collection '{collection}' must map ids to documents"
  | settings => "TOML parse error"
  | countTooLarge => "out-of-range value for u64 type"

/-- Why a run fails. A refusal of the query is one cause of several; the others are about the store, the
documents, the number of elements and the caller. -/
inductive Failure where
  | query (error : QueryError)
  | emptySequence
  | moreThanOneElement
  | notFound (path : String)
  | materialization (fault : InstanceFault)
  | store (error : StoreError)
  | cancelled
  | config (fault : ConfigFault)
  | json
  | io
deriving Inhabited

/-- The wording of why a run fails. -/
def Failure.message : Failure → String
  | query error => error.message
  | emptySequence => "Sequence contains no elements"
  | moreThanOneElement => "Sequence contains more than one element"
  | notFound path => s!"Document '{path}' not found"
  | materialization fault => s!"Materialization error: {fault.message}"
  | store error => s!"Store error: {error.message}"
  | cancelled => "Query execution cancelled"
  | config fault => s!"Configuration error: {fault.message}"
  | json => "JSON error"
  | io => "IO error"

/-- Names the member of a type in which a document does not have the declared form. -/
def Failure.inMember (typeName member : String) : Failure → Failure
  | materialization fault => materialization (.inMember typeName member fault)
  | other => other

end DocumentQuery
