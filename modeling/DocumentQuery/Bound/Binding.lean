import DocumentQuery.Bound.Basic
import DocumentQuery.Schema.Lookup
import DocumentQuery.Text.Segments

/-!
# Binding parameters

Binding replaces the parameters of a template by values and checks what could not be checked before:
comparisons with null, lists of candidates, counts, identities, and the navigations to load against
the model. The template stays as it is, so it can be bound again.

A number compared with a field of enum variants stands for the variant it numbers.

## Main definitions

* `Operand.bind` — the value of an operand
* `Filter.bind` — the condition of a filter
* `Template.bind` — the query of a template
-/

namespace DocumentQuery

/-- The values of the parameters of one run, by the names of the parameters. More may be given than are used. -/
abbrev Bindings := Table Json

namespace Operand

/-- The value of an operand. A constant is its own value; a parameter needs a binding, and a run without one
is refused. -/
def bind (bindings : Bindings) : Operand → Except QueryError Json
  | .constant value => .ok value
  | .parameter name =>
    match bindings.lookup name with
    | some value => .ok value
    | none => .error (.missingParameter name)

/-- The name under which the value of an operand is refused. -/
def label (constantLabel : String) : Operand → String
  | .parameter name => name
  | .constant _ => constantLabel

/-- Refuses the value of a compared operand. -/
def refuse {α : Type} (operand : Operand) (fault : ParameterFault) : Except QueryError α :=
  .error (.invalidParameter (operand.label "constant") fault)

/-- The count an operand stands for. Constants and parameters are held to the same: a count is a natural
number of 64 bits, and anything else is refused with the purpose it was to serve. -/
def bindCount (bindings : Bindings) (purpose : String) (operand : Operand) : Except QueryError Nat := do
  let value ← operand.bind bindings
  match value.toCount? with
  | some n => return n
  | none => throw (.invalidParameter (operand.label purpose) (.notACount purpose value))

/-- The count an optional operand stands for. -/
def bindCount? (bindings : Bindings) (purpose : String) :
    Option Operand → Except QueryError (Option Nat)
  | none => .ok none
  | some operand => (operand.bindCount bindings purpose).map some

/-- The identity a value stands for: a text as it is, and an integer by its digits. An identity is a text in
the store, whatever type the key is declared with. -/
def identity (operand : Operand) : Json → Except QueryError String
  | .str id => .ok id
  | .num n => .ok n.text
  | value => operand.refuse (.notAnId value)

/-- The value or the candidates of a comparison with the identity. -/
def identities (operand : Operand) : Json → Except QueryError Json
  | .arr values => do
    let ids ← values.mapM operand.identity
    return .arr (ids.map Json.str)
  | .null => .ok .null
  | value => (operand.identity value).map Json.str

/-- The variant a value stands for; only numbers need a variant. Documents hold the names of variants, and a
predicate may compare with their numbers, as it is written in a language in which enums are numbers. -/
def variant (operand : Operand) (enum : EnumDecl) (enumName : String) (value : Json) :
    Except QueryError Json :=
  match value.toSigned? with
  | none => .ok value
  | some n =>
    match enum.nameOf? n with
    | some name => .ok (.str name)
    | none => operand.refuse (.notAVariant n enumName)

/-- The variant or the candidates of a comparison with a field of variants. -/
def variants (operand : Operand) (enum : EnumDecl) (enumName : String) :
    Json → Except QueryError Json
  | .arr values => (values.mapM (operand.variant enum enumName)).map Json.arr
  | value => operand.variant enum enumName value

/-- A value that is compared with a field; for a field of enum variants, numbers become variants. -/
def toVariants (m : Model) (field : FieldRef) (operand : Operand) (value : Json) :
    Except QueryError Json :=
  match field.enumName with
  | some name => do
    let enum ← m.enumNamed name
    operand.variants enum name value
  | none => .ok value

/-- A value that is compared with a field; for the identity, numbers become texts. -/
def toIdentities (field : FieldRef) (operand : Operand) (value : Json) : Except QueryError Json :=
  if field.isDocumentId then operand.identities value else .ok value

end Operand

namespace Clause

/-- Refuses a comparison with null that the store cannot make: any but an equality or its opposite, and these
only on a field that writes its nulls to documents. The value as a whole is looked at, not the candidates of a
list. -/
def checkNull (c : Clause) (value : Json) : Except QueryError Unit :=
  if !value.isNull then .ok ()
  else if c.operator = .equalTo ∨ c.operator = .notEqualTo then
    if c.field.persistsNull then .ok () else .error (.nullFilter c.field.property)
  else .error (.unsupported (.nullComparison c.operator c.field.property))

/-- Refuses a single value where candidates are needed. -/
def checkList (c : Clause) (value : Json) : Except QueryError Unit :=
  if c.operator.takesList && !value.isArray then c.value.refuse (.notAList c.operator value)
  else .ok ()

/-- The comparison of a clause. -/
def bind (m : Model) (bindings : Bindings) (c : Clause) : Except QueryError Comparison := do
  let value ← c.value.bind bindings
  c.checkNull value
  c.checkList value
  let value ← c.value.toVariants m c.field value
  let value ← c.value.toIdentities c.field value
  return ⟨c.field, c.operator, value⟩

end Clause

namespace Filter

mutual

/-- The condition of a filter. -/
def bind (m : Model) (bindings : Bindings) : Filter → Except QueryError Condition
  | .clause c => do
    let comparison ← c.bind m bindings
    return .compare comparison
  | .or members => do
    let conditions ← bindEach m bindings members
    return Condition.anyOf conditions
  | .and members => do
    let conditions ← bindEach m bindings members
    return Condition.allOf conditions

/-- The conditions of filters, one by one. -/
def bindEach (m : Model) (bindings : Bindings) : List Filter → Except QueryError (List Condition)
  | [] => .ok []
  | f :: fs => do
    let condition ← bind m bindings f
    let rest ← bindEach m bindings fs
    return condition :: rest

end

/-- The conditions of filters that all have to hold. They are joined and then taken apart again, so that no
conjunction is left at the top and groups without members vanish. -/
def bindAll (m : Model) (bindings : Bindings) (filters : List Filter) :
    Except QueryError (List Condition) := do
  let conditions ← bindEach m bindings filters
  return conditions.flatMap Condition.conjuncts

end Filter

/-- Why a name is no navigation of a type. -/
def TypeDecl.navigationFault (type : TypeDecl) (typeName name : String) : InclusionFault :=
  let first := (Text.segments '.' name).headD ""
  match type.property? first with
  | some property =>
    match property.declared with
    | .complex complexType => .throughComplex first complexType
    | _ => .isProperty first typeName
  | none => .unknownNavigation typeName name

/-- The navigation of a name and the type of its targets. -/
def Model.targetOf (m : Model) (typeName name : String) :
    Except QueryError (Navigation × TypeDecl) := do
  let type ← m.typeNamed typeName
  match type.navigation? name with
  | none => throw (.invalidInclude name (type.navigationFault typeName name))
  | some navigation =>
    match m.entityNamed navigation.target with
    | .ok target => return (navigation, target)
    | .error _ => throw (.invalidInclude name (.targetNotEntity navigation.target))

namespace Inclusion

mutual

/-- The loading of a navigation on a type. The navigation is looked up by its name, its restrictions are bound
in terms of the type it leads to, and so is what is loaded below it. -/
def bind (m : Model) (bindings : Bindings) (typeName : String) :
    Inclusion → Except QueryError Loading
  | ⟨name, filters, orderBy, limit, skip, nested⟩ => do
    let (navigation, target) ← m.targetOf typeName name
    let children ← bindAll m bindings target.name nested
    let conditions ← Filter.bindAll m bindings filters
    let limit ← Operand.bindCount? bindings "limit" limit
    let skip ← Operand.bindCount? bindings "skip" skip
    return ⟨navigation, target.name, conditions, orderBy, limit, skip, children⟩

/-- The loadings of navigations on a type. -/
def bindAll (m : Model) (bindings : Bindings) (typeName : String) :
    List Inclusion → Except QueryError (List Loading)
  | [] => .ok []
  | i :: is => do
    let loading ← bind m bindings typeName i
    let rest ← bindAll m bindings typeName is
    return loading :: rest

end

end Inclusion

namespace Template

/-- How a template reaches its documents once it is bound. A target that is an identity is looked up; a
template that reads a collection may still become a lookup, when its filters come down to one comparison of
the identity. -/
def bindAccess (m : Model) (bindings : Bindings) (t : Template) : Except QueryError Access :=
  match t.target with
  | .document id => do
    let value ← id.bind bindings
    return .document (← id.identity value)
  | .collection => do
    let conditions ← Filter.bindAll m bindings t.filters
    return Access.ofConditions conditions

/-- The query of a template for the values of its parameters. The parts are bound in a fixed order, which
decides between several faults: the access first, then the navigations, then the counts. -/
def bind (m : Model) (bindings : Bindings) (t : Template) : Except QueryError BoundQuery := do
  let access ← t.bindAccess m bindings
  let includes ← Inclusion.bindAll m bindings t.entityType t.includes
  let limit ← Operand.bindCount? bindings "limit" t.limit
  let limitToLast ← Operand.bindCount? bindings "limit_to_last" t.limitToLast
  let skip ← Operand.bindCount? bindings "skip" t.skip
  return {
    collection := t.collection
    entityType := t.entityType
    keyProperty := t.keyProperty
    access := access
    orderBy := t.orderBy
    limit := limit
    limitToLast := limitToLast
    skip := skip
    aggregation := t.aggregation
    cardinality := t.cardinality
    projection := t.projection
    includes := includes }

end Template

end DocumentQuery
