import DocumentQuery.Bound.Limits
import DocumentQuery.Template.Document

/-!
# Bound queries as documents

The exchange form of bound queries and of the limits they are checked against.
-/

namespace DocumentQuery

namespace Comparison

/-- The exchange form of a comparison. -/
def toJson (c : Comparison) : Json :=
  Json.mkObj [("field", c.field.toJson), ("op", c.operator.toJson), ("value", c.value)]

end Comparison

namespace Condition

mutual

/-- The exchange form of a condition. -/
def toJson : Condition → Json
  | .compare c => Json.alternative "field" c.toJson
  | .or members => Json.alternative "or" (.arr (toJsonAll members))
  | .and members => Json.alternative "and" (.arr (toJsonAll members))

/-- The exchange forms of conditions. -/
def toJsonAll : List Condition → List Json
  | [] => []
  | c :: cs => toJson c :: toJsonAll cs

end

end Condition

/-- The exchange form of an access. -/
def Access.toJson : Access → Json
  | .document id => Json.alternative "document" (.str id)
  | .collection conditions =>
    Json.alternative "collection" (Json.mkObj [("filters", .arr (Condition.toJsonAll conditions))])

namespace Loading

mutual

/-- The exchange form of a navigation to load. -/
def toJson : Loading → Json
  | ⟨navigation, targetType, conditions, orderBy, limit, skip, children⟩ =>
    Json.mkObj [("navigation", navigation.toJson), ("target_type", .str targetType),
      ("filters", .arr (Condition.toJsonAll conditions)), ("order_by", Json.ofList SortKey.toJson orderBy),
      ("limit", Json.ofOption Json.count limit), ("skip", Json.ofOption Json.count skip),
      ("children", .arr (toJsonAll children))]

/-- The exchange forms of navigations to load. -/
def toJsonAll : List Loading → List Json
  | [] => []
  | l :: ls => toJson l :: toJsonAll ls

end

end Loading

/-- The exchange form of a bound query. -/
def BoundQuery.toJson (q : BoundQuery) : Json :=
  Json.mkObj [("collection", .str q.collection), ("entity_type", .str q.entityType),
    ("key_property", .str q.keyProperty), ("access", q.access.toJson),
    ("order_by", Json.ofList SortKey.toJson q.orderBy),
    ("limit", Json.ofOption Json.count q.limit),
    ("limit_to_last", Json.ofOption Json.count q.limitToLast),
    ("skip", Json.ofOption Json.count q.skip),
    ("aggregation", Json.ofOption Aggregation.toJson q.aggregation),
    ("cardinality", q.cardinality.toJson), ("projection", q.projection.toJson),
    ("includes", .arr (Loading.toJsonAll q.includes))]

namespace QueryLimits

/-- The exchange form of limits. -/
def toJson (limits : QueryLimits) : Json :=
  Json.mkObj [("max_in_values", Json.count limits.maxIn), ("max_not_in_values", Json.count limits.maxNotIn),
    ("max_disjunctions", Json.count limits.maxDisjunctions)]

/-- Reads limits; a limit that is left out is the standard one. -/
def decode : Decoder QueryLimits := fun j => do
  return {
    maxIn := ← Decoder.fieldOr "max_in_values" standard.maxIn Decoder.count j
    maxNotIn := ← Decoder.fieldOr "max_not_in_values" standard.maxNotIn Decoder.count j
    maxDisjunctions := ← Decoder.fieldOr "max_disjunctions" standard.maxDisjunctions Decoder.count j }

end QueryLimits

end DocumentQuery
