import DocumentQuery.Json.Decode
import DocumentQuery.Schema.Document
import DocumentQuery.Template.Basic

/-!
# Templates as documents

The exchange form of templates. A field that holds no enum variants leaves the enum out; every other
member is written, null for an absent value.
-/

namespace DocumentQuery

namespace FilterOp

/-- All comparisons. -/
def all : List FilterOp :=
  [.equalTo, .notEqualTo, .lessThan, .lessThanOrEqualTo, .greaterThan, .greaterThanOrEqualTo,
    .arrayContains, .isIn, .arrayContainsAny, .notIn]

/-- The exchange form of a comparison. -/
def toJson (op : FilterOp) : Json := .str op.name

/-- Reads a comparison. -/
def decode : Decoder FilterOp :=
  Decoder.tag (all.map fun op => (op.name, op))

end FilterOp

namespace FieldRef

/-- The exchange form of a field. -/
def toJson (f : FieldRef) : Json :=
  Json.mkObj <|
    [("path", .str f.path), ("property", .str f.property), ("declared", f.declared.toJson),
      ("persist_null", .bool f.persistsNull)]
    ++ Json.given "enum_hint" Json.str f.enumName

/-- Reads a field. -/
def decode : Decoder FieldRef := fun j => do
  return {
    path := ← Decoder.field "path" Decoder.string j
    property := ← Decoder.field "property" Decoder.string j
    declared := ← Decoder.field "declared" DeclaredType.decode j
    persistsNull := ← Decoder.field "persist_null" Decoder.bool j
    enumName := ← Decoder.optional "enum_hint" Decoder.string j }

end FieldRef

namespace Operand

/-- The exchange form of an operand. -/
def toJson : Operand → Json
  | .constant value => Json.alternative "constant" value
  | .parameter name => Json.alternative "parameter" (.str name)

/-- Reads an operand. -/
def decode : Decoder Operand := fun j => do
  match ← Decoder.choice j with
  | ("constant", carried) => return .constant (← Decoder.content Decoder.any carried)
  | ("parameter", carried) => return .parameter (← Decoder.content Decoder.string carried)
  | _ => none

end Operand

namespace Clause

/-- The exchange form of a clause. -/
def toJson (c : Clause) : Json :=
  Json.mkObj [("field", c.field.toJson), ("operator", c.operator.toJson), ("value", c.value.toJson)]

/-- Reads a clause. -/
def decode : Decoder Clause := fun j => do
  return {
    field := ← Decoder.field "field" FieldRef.decode j
    operator := ← Decoder.field "operator" FilterOp.decode j
    value := ← Decoder.field "value" Operand.decode j }

end Clause

namespace Filter

mutual

/-- The exchange form of a filter. -/
def toJson : Filter → Json
  | .clause c => Json.alternative "where" c.toJson
  | .or members => Json.alternative "or" (Json.mkObj [("members", .arr (toJsonAll members))])
  | .and members => Json.alternative "and" (.arr (toJsonAll members))

/-- The exchange forms of filters. -/
def toJsonAll : List Filter → List Json
  | [] => []
  | f :: fs => toJson f :: toJsonAll fs

end

/-- Reads a filter nested at most `fuel` deep. -/
def decodeWithin : Nat → Decoder Filter
  | 0 => fun _ => none
  | fuel + 1 => fun j => do
    match ← Decoder.choice j with
    | ("where", some content) => return .clause (← Clause.decode content)
    | ("or", some content) =>
      return .or (← Decoder.field "members" (Decoder.list (decodeWithin fuel)) content)
    | ("and", some content) => return .and (← Decoder.list (decodeWithin fuel) content)
    | _ => none

/-- Reads a filter. -/
def decode : Decoder Filter := fun j =>
  decodeWithin j.depth j

end Filter

namespace Direction

/-- The exchange form of a direction. -/
def toJson : Direction → Json
  | .ascending => .str "ascending"
  | .descending => .str "descending"

/-- Reads a direction. -/
def decode : Decoder Direction :=
  Decoder.tag [("ascending", .ascending), ("descending", .descending)]

end Direction

namespace SortKey

/-- The exchange form of a sort key. -/
def toJson (k : SortKey) : Json :=
  Json.mkObj [("field", k.field.toJson), ("direction", k.direction.toJson)]

/-- Reads a sort key. -/
def decode : Decoder SortKey := fun j => do
  return ⟨← Decoder.field "field" FieldRef.decode j, ← Decoder.field "direction" Direction.decode j⟩

end SortKey

namespace Target

/-- The exchange form of a target. -/
def toJson : Target → Json
  | .collection => .str "collection"
  | .document id => Json.alternative "document" id.toJson

/-- Reads a target. -/
def decode : Decoder Target := fun j => do
  match ← Decoder.choice j with
  | ("collection", carried) => (Decoder.nothing carried).map fun _ => .collection
  | ("document", some id) => return .document (← Operand.decode id)
  | _ => none

end Target

namespace AggregateKind

/-- The exchange form of a reduction. -/
def toJson (k : AggregateKind) : Json := .str k.name

/-- Reads a reduction. -/
def decode : Decoder AggregateKind :=
  Decoder.tag ([.count, .any, .sum, .average, .min, .max].map fun k : AggregateKind => (k.name, k))

end AggregateKind

namespace Aggregation

/-- The exchange form of an aggregation. -/
def toJson (a : Aggregation) : Json :=
  Json.mkObj [("kind", a.kind.toJson), ("field", Json.ofOption FieldRef.toJson a.field),
    ("nullable", .bool a.nullable)]

/-- Reads an aggregation. -/
def decode : Decoder Aggregation := fun j => do
  return {
    kind := ← Decoder.field "kind" AggregateKind.decode j
    field := ← Decoder.optional "field" FieldRef.decode j
    nullable := ← Decoder.fieldOr "nullable" false Decoder.bool j }

end Aggregation

namespace Cardinality

/-- The exchange form of whether none is allowed for. -/
def defaultJson (orDefault : Bool) : Json :=
  Json.mkObj [("or_default", .bool orDefault)]

/-- The exchange form of a cardinality. -/
def toJson : Cardinality → Json
  | .sequence => .str "sequence"
  | .first orDefault => Json.alternative "first" (defaultJson orDefault)
  | .single orDefault => Json.alternative "single" (defaultJson orDefault)
  | .last orDefault => Json.alternative "last" (defaultJson orDefault)

/-- Reads a cardinality. -/
def decode : Decoder Cardinality := fun j => do
  match ← Decoder.choice j with
  | ("sequence", carried) => (Decoder.nothing carried).map fun _ => .sequence
  | ("first", some content) => return .first (← Decoder.field "or_default" Decoder.bool content)
  | ("single", some content) => return .single (← Decoder.field "or_default" Decoder.bool content)
  | ("last", some content) => return .last (← Decoder.field "or_default" Decoder.bool content)
  | _ => none

end Cardinality

namespace ProjectedMember

/-- The exchange form of a projected member. -/
def toJson (m : ProjectedMember) : Json :=
  Json.mkObj [("name", Json.ofOption Json.str m.name), ("source", .str m.source),
    ("declared", m.declared.toJson)]

/-- Reads a projected member. -/
def decode : Decoder ProjectedMember := fun j => do
  return {
    name := ← Decoder.optional "name" Decoder.string j
    source := ← Decoder.field "source" Decoder.string j
    declared := ← Decoder.field "declared" DeclaredType.decode j }

end ProjectedMember

namespace Projection

/-- The exchange form of a projection. -/
def toJson : Projection → Json
  | .entity => .str "entity"
  | .field m => Json.alternative "field" m.toJson
  | .members typeName ms =>
    Json.alternative "members"
      (Json.mkObj [("type_name", .str typeName), ("members", Json.ofList ProjectedMember.toJson ms)])

/-- Reads a projection. -/
def decode : Decoder Projection := fun j => do
  match ← Decoder.choice j with
  | ("entity", carried) => (Decoder.nothing carried).map fun _ => .entity
  | ("field", some content) => return .field (← ProjectedMember.decode content)
  | ("members", some content) =>
    return .members (← Decoder.field "type_name" Decoder.string content)
      (← Decoder.field "members" (Decoder.list ProjectedMember.decode) content)
  | _ => none

end Projection

namespace Inclusion

mutual

/-- The exchange form of a navigation to load. -/
def toJson : Inclusion → Json
  | ⟨navigation, filters, orderBy, limit, skip, nested⟩ =>
    Json.mkObj [("navigation", .str navigation), ("filters", .arr (Filter.toJsonAll filters)),
      ("order_by", Json.ofList SortKey.toJson orderBy), ("limit", Json.ofOption Operand.toJson limit),
      ("skip", Json.ofOption Operand.toJson skip), ("nested", .arr (toJsonAll nested))]

/-- The exchange forms of navigations to load. -/
def toJsonAll : List Inclusion → List Json
  | [] => []
  | i :: is => toJson i :: toJsonAll is

end

/-- Reads a navigation to load, nested at most `fuel` deep. -/
def decodeWithin : Nat → Decoder Inclusion
  | 0 => fun _ => none
  | fuel + 1 => fun j => do
    return {
      navigation := ← Decoder.field "navigation" Decoder.string j
      filters := ← Decoder.fieldOr "filters" [] (Decoder.list Filter.decode) j
      orderBy := ← Decoder.fieldOr "order_by" [] (Decoder.list SortKey.decode) j
      limit := ← Decoder.optional "limit" Operand.decode j
      skip := ← Decoder.optional "skip" Operand.decode j
      nested := ← Decoder.fieldOr "nested" [] (Decoder.list (decodeWithin fuel)) j }

/-- Reads a navigation to load. -/
def decode : Decoder Inclusion := fun j =>
  decodeWithin j.depth j

end Inclusion

namespace Template

/-- The exchange form of a template. -/
def toJson (t : Template) : Json :=
  Json.mkObj [("collection", .str t.collection), ("entity_type", .str t.entityType),
    ("target", t.target.toJson), ("filters", .arr (Filter.toJsonAll t.filters)),
    ("order_by", Json.ofList SortKey.toJson t.orderBy),
    ("limit", Json.ofOption Operand.toJson t.limit),
    ("limit_to_last", Json.ofOption Operand.toJson t.limitToLast),
    ("skip", Json.ofOption Operand.toJson t.skip),
    ("aggregation", Json.ofOption Aggregation.toJson t.aggregation),
    ("cardinality", t.cardinality.toJson), ("projection", t.projection.toJson),
    ("includes", .arr (Inclusion.toJsonAll t.includes)), ("key_property", .str t.keyProperty)]

/-- Reads a template. -/
def decode : Decoder Template := fun j => do
  return {
    collection := ← Decoder.field "collection" Decoder.string j
    entityType := ← Decoder.field "entity_type" Decoder.string j
    target := ← Decoder.field "target" Target.decode j
    filters := ← Decoder.field "filters" (Decoder.list Filter.decode) j
    orderBy := ← Decoder.field "order_by" (Decoder.list SortKey.decode) j
    limit := ← Decoder.optional "limit" Operand.decode j
    limitToLast := ← Decoder.optional "limit_to_last" Operand.decode j
    skip := ← Decoder.optional "skip" Operand.decode j
    aggregation := ← Decoder.optional "aggregation" Aggregation.decode j
    cardinality := ← Decoder.field "cardinality" Cardinality.decode j
    projection := ← Decoder.field "projection" Projection.decode j
    includes := ← Decoder.field "includes" (Decoder.list Inclusion.decode) j
    keyProperty := ← Decoder.field "key_property" Decoder.string j }

end Template

end DocumentQuery
