import DocumentQuery.Compile.Stage
import DocumentQuery.Expression.Inspect
import DocumentQuery.Template.Basic

/-!
# Refused queries

A query is refused before any document is read: because it names something the model does not have,
because a parameter is missing or of the wrong kind, or because the store has no way to run it. Every
cause is a constructor that carries what the message shows; `QueryError.message` is the wording.
-/

namespace DocumentQuery

/-- Why the store has no way to run a query. -/
inductive Unsupported where
  /-- The root of a pipeline is a complex type. -/
  | complexRoot (typeName : String)
  | afterTerminal (op : Operator)
  | misplaced (op : Operator) (stage : Stage)
  | thenByWithoutOrderBy
  | skipAfterTakeLast
  | takeAfterTakeLast
  | takeLastWithoutOrderBy
  | lastWithoutOrderBy
  | thenIncludeWithoutInclude
  | predicateAfterPaging
  /-- A count that has to be added to another is not a natural number. -/
  | negativeCount (operator : String) (value : Number)
  /-- A count that has to be added to another is not known yet. -/
  | boundCount (operator : String) (value : Operand)
  | aggregateOverProjection (kind : AggregateKind)
  | nonNumericAggregate (kind : AggregateKind) (property : String) (declared : DeclaredType)
  | nonScalarAggregate (kind : AggregateKind) (property : String) (declared : DeclaredType)
  | orderByCollection (property : String)
  | notBoolean (property : String)
  | predicateShape (e : Expr)
  | twoFields
  | noField (left right : Expr)
  | comparedCollection (property : String)
  | methodCall (method : Method) (args : Nat)
  | containsOnSingle (property : String)
  | containsWithoutField (source item : Expr)
  | anyWithoutField (source : Expr)
  | anyOnSingle (property : String)
  | anyShape (e : Expr) (property : String)
  /-- A member access does not start at the parameter. -/
  | foreignMember (e : Expr) (parameter : String)
  | navigationMember (name typeName : String)
  | unmappedMember (name typeName : String)
  | ignoredMember (name typeName : String)
  /-- A member of a value that has none. -/
  | memberOfValue (name target : String) (declared : DeclaredType)
  | emptyPath
  | negatedClause (op : FilterOp) (property : String)
  | notAnOperand (e : Expr)
  | notAList (value : Json)
  | wholeEntityMember
  | projectionShape (e : Expr)
  | filterAfterPaging (navigation : String)
  | orderByAfterPaging (navigation : String)
  | navigationThenBy (navigation : String)
  | navigationSkip (navigation : String)
  | navigationTake (navigation : String)
  | memberAfterOperator (name : String)
  | navigationMethod (method : Method)
  | navigationShape (e : Expr) (parameter : String)
  | conflictingIncludes (navigation : String)
  | includeWithProjection
  | nullComparison (op : FilterOp) (property : String)
  | limitToLastWithoutOrder
  | inequalityFields (first second : String)
  | inequalityOrder (field first : String)
  | tooManyDisjuncts (count limit : Nat)
  | skippedAggregate (kind : AggregateKind)
deriving Inhabited

/-- The wording of why the store has no way to run a query. -/
def Unsupported.message : Unsupported → String
  | complexRoot t => s!"'{t}' is a complex type and cannot be queried directly"
  | afterTerminal op => s!"operator {op.name} follows a terminal operator"
  | misplaced op stage => s!"{op.name} cannot follow {stage.name}"
  | thenByWithoutOrderBy => "ThenBy requires a preceding OrderBy"
  | skipAfterTakeLast => "Skip cannot follow TakeLast"
  | takeAfterTakeLast => "Take cannot follow TakeLast"
  | takeLastWithoutOrderBy => "TakeLast requires the ordering to be established with OrderBy"
  | lastWithoutOrderBy => "Last requires the ordering to be established with OrderBy"
  | thenIncludeWithoutInclude => "ThenInclude requires a preceding Include"
  | predicateAfterPaging => "a predicate on a terminal operator cannot follow Skip/Take/Select"
  | negativeCount operator n => s!"{operator} count must be a non-negative integer, got {n.text}"
  | boundCount operator value =>
    s!"repeated paging requires constant counts; {operator} got {value.inspect}"
  | aggregateOverProjection kind =>
    s!"{kind.name} over a projection is not supported; pass a selector instead"
  | nonNumericAggregate kind property declared =>
    s!"{kind.name} requires a numeric field, '{property}' is {declared.inspect}"
  | nonScalarAggregate kind property declared =>
    s!"{kind.name} requires a scalar field, '{property}' is {declared.inspect}"
  | orderByCollection property => s!"cannot order by collection field '{property}'"
  | notBoolean property => s!"'{property}' is not a boolean and cannot be used as a predicate"
  | predicateShape e => s!"predicate shape {e.describe} cannot be translated"
  | twoFields => "comparing two document fields is not supported by the store"
  | noField left right =>
    s!"comparison between {left.describe} and {right.describe} does not reference a document field"
  | comparedCollection property =>
    s!"'{property}' is a collection; use Contains/Any to filter on its elements"
  | methodCall method args =>
    s!"method call {method.name} with {args} argument(s) cannot be translated to a filter"
  | containsOnSingle property =>
    s!"Contains on non-collection field '{property}' is not supported by the store"
  | containsWithoutField source item =>
    s!"Contains between {source.describe} and {item.describe} does not reference a document field"
  | anyWithoutField source => s!"Any over {source.describe} does not reference a document field"
  | anyOnSingle property => s!"Any on non-collection field '{property}'"
  | anyShape e property =>
    s!"Any predicate {e.describe} on '{property}' must have the form t => list.Contains(t)"
  | foreignMember e parameter => s!"member access on {e.describe} is not rooted at '{parameter}'"
  | navigationMember name t =>
    s!"'{name}' on type '{t}' is a navigation and cannot be filtered, ordered or projected"
  | unmappedMember name t => s!"'{name}' on type '{t}' is not a mapped property"
  | ignoredMember name t => s!"'{name}' on type '{t}' is not persisted"
  | memberOfValue name target declared =>
    s!"cannot access '{name}' on '{target}' of type {declared.inspect}"
  | emptyPath => "empty member path"
  | negatedClause op property => s!"negated {op.name} on '{property}' has no store equivalent"
  | notAnOperand e => s!"{e.describe} is not a constant or captured variable"
  | notAList value => s!"membership test needs a list of values, got {value.text}"
  | wholeEntityMember => "projecting the whole entity inside a new object is not supported"
  | projectionShape e => s!"cannot project {e.describe}"
  | filterAfterPaging navigation => s!"Where after Skip/Take inside include '{navigation}'"
  | orderByAfterPaging navigation => s!"OrderBy after Skip/Take inside include '{navigation}'"
  | navigationThenBy navigation => s!"ThenBy without OrderBy inside include '{navigation}'"
  | navigationSkip navigation =>
    s!"Skip must come once and before Take inside include '{navigation}'"
  | navigationTake navigation => s!"repeated Take inside include '{navigation}'"
  | memberAfterOperator name => s!"member '{name}' after an operator inside an include"
  | navigationMethod method => s!"{method.name} is not supported inside an include"
  | navigationShape e parameter =>
    s!"include navigation {e.describe} must be a member access on '{parameter}'"
  | conflictingIncludes navigation => s!"conflicting filtered includes for '{navigation}'"
  | includeWithProjection => "Include cannot be combined with a projection of the result"
  | nullComparison op property => s!"operator {op.name} on '{property}' cannot compare against null"
  | limitToLastWithoutOrder => "limit-to-last requires at least one ordering clause"
  | inequalityFields first second =>
    s!"inequality filters on more than one field ('{first}' and '{second}')"
  | inequalityOrder field first =>
    s!"inequality filter on '{field}' requires it to be the first ordering, found '{first}'"
  | tooManyDisjuncts count limit =>
    s!"filter expands into {count} disjunctions, the store accepts at most {limit}"
  | skippedAggregate kind => s!"{kind.name} cannot be combined with Skip"

/-- Why a parameter cannot be bound. -/
inductive ParameterFault where
  | notAList (op : FilterOp) (value : Json)
  | notAVariant (value : Int) (enum : String)
  | notAnId (value : Json)
  | notACount (label : String) (value : Json)
deriving Inhabited

/-- The wording of why a parameter cannot be bound. -/
def ParameterFault.message : ParameterFault → String
  | notAList op value => s!"operator {op.name} needs a list, got {value.text}"
  | notAVariant value enum => s!"{value} is not a value of enum {enum}"
  | notAnId value => s!"document id must be a string, got {value.text}"
  | notACount label value => s!"{label} must be a non-negative integer, got {value.text}"

/-- Why a navigation cannot be loaded. -/
inductive InclusionFault where
  /-- Restrictions on a path that is not a navigation. -/
  | restrictedPath
  /-- A parent of the path is not a navigation of its type. -/
  | unknownParent (typeName : String)
  | throughComplex (property complexType : String)
  | isProperty (property typeName : String)
  | unknownNavigation (typeName navigation : String)
  | targetNotEntity (target : String)
deriving DecidableEq, Inhabited

/-- The wording of why a navigation cannot be loaded. -/
def InclusionFault.message : InclusionFault → String
  | restrictedPath => "filtered include on a path that is not a navigation"
  | unknownParent t => s!"'{t}' has no navigation with this name"
  | throughComplex property complexType =>
    s!"navigations cannot be loaded through complex property '{property}' ({complexType})"
  | isProperty property t => s!"'{property}' is a property of '{t}', not a navigation"
  | unknownNavigation t navigation => s!"'{t}' has no navigation '{navigation}'"
  | targetNotEntity target => s!"target '{target}' is not an entity type"

/-- Why a query is refused. A refusal carries what it is about, such as the name that is unknown or the count
that is too large, and its message is made of this alone. -/
inductive QueryError where
  | unsupported (cause : Unsupported)
  /-- A list of candidates is longer than the store accepts. -/
  | cardinalityExceeded (field : String) (operator : FilterOp) (count limit : Nat)
  /-- A comparison with null on a property that never stores null. -/
  | nullFilter (property : String)
  | missingParameter (name : String)
  | invalidParameter (name : String) (fault : ParameterFault)
  | unknownType (name : String)
  | invalidInclude (path : String) (fault : InclusionFault)
  /-- Counts of rows to skip add up to more than the largest count. No answer is given then, not even one
  that says which operator is to blame. -/
  | overflow
deriving Inhabited

/-- The wording of why a query is refused. -/
def QueryError.message : QueryError → String
  | unsupported cause => s!"Unsupported query: {cause.message}"
  | cardinalityExceeded field operator count limit =>
    s!"Operator {operator.name} on '{field}' accepts at most {limit} values, got {count}"
  | nullFilter property =>
    s!"Cannot filter '{property}' against null: the property does not persist null values"
  | missingParameter name => s!"Missing query parameter: {name}"
  | invalidParameter name fault => s!"Invalid value for parameter '{name}': {fault.message}"
  | unknownType name => s!"Unknown type: {name}"
  | invalidInclude path fault => s!"Invalid include '{path}': {fault.message}"
  | overflow => "attempt to add with overflow"

end DocumentQuery
