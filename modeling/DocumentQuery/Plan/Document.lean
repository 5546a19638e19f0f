import DocumentQuery.Plan.Basic
import DocumentQuery.Template.Document

/-!
# Plans as documents

The exchange form of execution plans.
-/

namespace DocumentQuery

/-- The exchange form of a source. -/
def Source.toJson : Source → Json
  | .lookup collectionPath id =>
    Json.alternative "lookup" (Json.mkObj [("collection_path", .str collectionPath), ("id", .str id)])
  | .query q => Json.alternative "query" q.toJson
  | .disjunction queries => Json.alternative "disjunction" (Json.ofList StoreQuery.toJson queries)

/-- The exchange form of a window. -/
def Window.toJson (w : Window) : Json :=
  Json.mkObj [("skip", Json.count w.skip), ("limit", Json.ofOption Json.count w.limit),
    ("limit_to_last", Json.ofOption Json.count w.limitToLast), ("last_only", .bool w.lastOnly)]

/-- The exchange form of a reduction. -/
def Reduction.toJson : Reduction → Json
  | .documents => .str "documents"
  | .native reduction => Json.alternative "native" reduction.toJson
  | .client kind path nullable =>
    Json.alternative "client" (Json.mkObj [("kind", kind.toJson), ("path", Json.ofOption Json.str path),
      ("nullable", .bool nullable)])

/-- The exchange form of a plan. -/
def ExecutionPlan.toJson (plan : ExecutionPlan) : Json :=
  Json.mkObj [("source", plan.source.toJson), ("order_by", Json.ofList StoreOrder.toJson plan.orderBy),
    ("window", plan.window.toJson), ("reduction", plan.reduction.toJson)]

end DocumentQuery
