import DocumentQuery.Compile.Field

/-!
# Selectors as projections

A selector returns the row itself, one of its fields, or a new object made of fields. A member without
a name of its own is named after its property when it is a direct member of the row, and after its
stored path otherwise.
-/

namespace DocumentQuery

namespace ProjectedMember

/-- The name a chain of members gives to the value it reads. -/
def impliedName (parameter : String) : Expr → Option String
  | .convert operand => impliedName parameter operand
  | .member target name => if target.isParam parameter then some name else none
  | _ => none

/-- The projected member an expression stands for. -/
def ofExpr (m : Model) (scope : Scope) (name : Option String) (e : Expr) :
    Except QueryError ProjectedMember := do
  if e.isParam scope.parameter then throw (.unsupported .wholeEntityMember)
  let field ← FieldRef.ofExpr m scope e
  return ⟨name.or (impliedName scope.parameter e), field.path, field.declared⟩

end ProjectedMember

/-- The projection a selector stands for: the row itself, one of its fields, or an object with a member for
each argument of a construction. -/
def Projection.ofLambda (m : Model) (typeName : String) (selector : Lambda) :
    Except QueryError Projection := do
  let scope ← selector.scope m typeName
  if selector.body.isParam scope.parameter then return .entity
  match selector.body.unwrap with
  | .member target name =>
    return .field (← ProjectedMember.ofExpr m scope none (.member target name))
  | .construct resultType parts =>
    let parts ← parts.mapM fun (name, e) =>
      ProjectedMember.ofExpr m scope (if name.isEmpty then none else some name) e
    return .members resultType parts
  | other => throw (.unsupported (.projectionShape other))

end DocumentQuery
