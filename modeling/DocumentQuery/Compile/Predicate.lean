import DocumentQuery.Compile.Field

/-!
# Predicates as filters

A predicate becomes a filter by rules on its shape.

* A comparison has a field on one side and an operand on the other; a field on the right turns the
  comparison around.
* `Contains` on a collection field asks for an element, `Contains` on a list of candidates for the
  field's value, and `Any` with such a `Contains` inside for a common element.
* A bare boolean member stands for its comparison with true.
* Conjunction and disjunction keep their shape; conjunctions of conjunctions are flattened.
* Negation is pushed inward to the comparisons.

Every other shape is refused.

## Main definitions

* `Filter.negate` — the filter that holds where another does not
* `Filter.ofExpr` — the filter of an expression, or of its negation
* `Filter.ofLambda` — the conjuncts of a predicate
-/

namespace DocumentQuery

/-- The comparison of a binary operator; the logical operators have none. -/
def BinaryOp.comparison? : BinaryOp → Option FilterOp
  | .equal => some .equalTo
  | .notEqual => some .notEqualTo
  | .lessThan => some .lessThan
  | .lessThanOrEqual => some .lessThanOrEqualTo
  | .greaterThan => some .greaterThan
  | .greaterThanOrEqual => some .greaterThanOrEqualTo
  | .andAlso | .orElse => none

namespace Filter

/-- The members of a conjunction; any other filter is its own only member. -/
def members : Filter → List Filter
  | .and fs => fs
  | f => [f]

mutual

/-- The conjuncts of a filter at any depth. A predicate is added to a template conjunct by conjunct, so that
an equality with the identity is seen although others stand beside it. -/
def conjuncts : Filter → List Filter
  | .and fs => conjunctsOf fs
  | f => [f]

/-- The conjuncts of filters at any depth. -/
def conjunctsOf : List Filter → List Filter
  | [] => []
  | f :: fs => conjuncts f ++ conjunctsOf fs

end

mutual

/-- The filter that holds where a filter does not, if the store can say so. Negation is pushed down to the
clauses, by the laws of De Morgan, and a comparison without an opposite cannot be negated. -/
def negate : Filter → Except QueryError Filter
  | .clause c =>
    match c.operator.negated? with
    | some op => .ok (.clause { c with operator := op })
    | none => .error (.unsupported (.negatedClause c.operator c.field.property))
  | .or fs => do
    let negated ← negateAll fs
    return .and (negated.flatMap members)
  | .and fs => do
    let negated ← negateAll fs
    return .or negated

/-- The negations of filters. -/
def negateAll : List Filter → Except QueryError (List Filter)
  | [] => .ok []
  | f :: fs => do
    let first ← negate f
    let rest ← negateAll fs
    return first :: rest

end

/-- Negates a filter on demand. -/
def negateIf (negated : Bool) (f : Filter) : Except QueryError Filter :=
  if negated then f.negate else .ok f

/-- The filter of a comparison: a field on one side and an operand on the other. If the field stands on the
right the comparison is turned around; two fields or none are refused. -/
def ofComparison (m : Model) (scope : Scope) (op : FilterOp) (left right : Expr) :
    Except QueryError Filter := do
  let (field, op, value) ←
    match left.isField scope.parameter, right.isField scope.parameter with
    | true, false => do
      let field ← FieldRef.ofExpr m scope left
      let value ← Operand.ofExpr right
      pure (field, op, value)
    | false, true => do
      let field ← FieldRef.ofExpr m scope right
      let value ← Operand.ofExpr left
      pure (field, op.swapped, value)
    | true, true => throw (.unsupported .twoFields)
    | false, false => throw (.unsupported (.noField left right))
  if field.declared.isCollection then throw (.unsupported (.comparedCollection field.property))
  return .clause ⟨field, op, value⟩

/-- The filter of a membership test. What contains decides what is meant: a stored collection that has an
item, or a list of candidates that has the value of a field. -/
def ofContains (m : Model) (scope : Scope) (source item : Expr) : Except QueryError Filter := do
  if source.isField scope.parameter then
    let field ← FieldRef.ofExpr m scope source
    if !field.declared.isCollection then throw (.unsupported (.containsOnSingle field.property))
    return .clause ⟨field, .arrayContains, ← Operand.ofExpr item⟩
  else if item.isField scope.parameter then
    let field ← FieldRef.ofExpr m scope item
    return .clause ⟨field, .isIn, ← Operand.ofList source⟩
  else throw (.unsupported (.containsWithoutField source item))

/-- The list of candidates in a predicate of the form `t => list.Contains(t)`. -/
def candidates? (parameter : String) : Expr → Option Expr
  | .call .contains (some list) [item] => if item.isParam parameter then some list else none
  | .call .contains none [list, item] => if item.isParam parameter then some list else none
  | _ => none

/-- The filter of a test for a common element. -/
def ofAny (m : Model) (scope : Scope) (source : Expr) (parameter : String) (body : Expr) :
    Except QueryError Filter := do
  if !source.isField scope.parameter then throw (.unsupported (.anyWithoutField source))
  let field ← FieldRef.ofExpr m scope source
  if !field.declared.isCollection then throw (.unsupported (.anyOnSingle field.property))
  match candidates? parameter body.unwrap with
  | some list => return .clause ⟨field, .arrayContainsAny, ← Operand.ofList list⟩
  | none => throw (.unsupported (.anyShape body.unwrap field.property))

/-- The filter of a call. -/
def ofCall (m : Model) (scope : Scope) (method : Method) (receiver : Option Expr) (args : List Expr) :
    Except QueryError Filter :=
  match method, receiver, args with
  | .equals, some left, [right] => ofComparison m scope .equalTo left right
  | .equals, none, [left, right] => ofComparison m scope .equalTo left right
  | .contains, some source, [item] => ofContains m scope source item
  | .contains, none, [source, item] => ofContains m scope source item
  | .any, some source, [.lambda parameter body] => ofAny m scope source parameter body
  | .any, none, [source, .lambda parameter body] => ofAny m scope source parameter body
  | _, _, _ => .error (.unsupported (.methodCall method args.length))

/-- The filter of a bare boolean member, or of its negation, which is a comparison with true or with false. It
is the one expression whose negation is compiled on its own. -/
def ofFlag (m : Model) (scope : Scope) (negated : Bool) (e : Expr) : Except QueryError Filter := do
  let field ← FieldRef.ofExpr m scope e
  if field.declared = .scalar .bool then return .clause ⟨field, .equalTo, .constant (.bool !negated)⟩
  else throw (.unsupported (.notBoolean field.property))

/-- The filter of a conjunction or disjunction, from the filters of its operands. -/
def join (op : BinaryOp) (l r : Filter) : Filter :=
  if op = .andAlso then .and (l.members ++ r.members) else .or [l, r]

/-- The filter of an expression, or of its negation. The recursion is on the expression: a negation changes
what is asked for of its operand, and the logical operators join the filters of theirs. -/
def ofExpr (m : Model) (scope : Scope) (negated : Bool) : Expr → Except QueryError Filter
  | .convert operand => ofExpr m scope negated operand
  | .not operand => ofExpr m scope (!negated) operand
  | .binary op left right =>
    match op.comparison? with
    | some comparison => do
      let f ← ofComparison m scope comparison left right
      f.negateIf negated
    | none => do
      let l ← ofExpr m scope false left
      let r ← ofExpr m scope false right
      (join op l r).negateIf negated
  | .call method receiver args => do
    let f ← ofCall m scope method receiver args
    f.negateIf negated
  | .member target name => ofFlag m scope negated (.member target name)
  | e => .error (.unsupported (.predicateShape e))

/-- The conjuncts of a predicate over rows of a type. The type is looked up first, so an unknown one is
refused whatever the predicate says. -/
def ofLambda (m : Model) (typeName : String) (predicate : Lambda) : Except QueryError (List Filter) := do
  let scope ← predicate.scope m typeName
  let f ← ofExpr m scope false predicate.body
  return f.conjuncts

end Filter

end DocumentQuery
