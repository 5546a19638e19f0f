import DocumentQuery.Expression.Basic
import DocumentQuery.Json.Writer

/-!
# Expressions in messages

A refused expression is described by its outermost form, conversions aside.
-/

namespace DocumentQuery

/-- The name of a binary operator in messages. -/
def BinaryOp.name : BinaryOp → String
  | .equal => "Equal"
  | .notEqual => "NotEqual"
  | .lessThan => "LessThan"
  | .lessThanOrEqual => "LessThanOrEqual"
  | .greaterThan => "GreaterThan"
  | .greaterThanOrEqual => "GreaterThanOrEqual"
  | .andAlso => "AndAlso"
  | .orElse => "OrElse"

/-- The name of an unknown method in messages. -/
def OtherMethod.name : OtherMethod → String
  | .startsWith => "StartsWith"
  | .endsWith => "EndsWith"
  | .toUpper => "ToUpper"
  | .toLower => "ToLower"
  | .count => "Count"
  | .unknown => "Unknown"

/-- The name of a method in messages. -/
def Method.name : Method → String
  | .contains => "Contains"
  | .any => "Any"
  | .equals => "Equals"
  | .filter => "Where"
  | .orderBy => "OrderBy"
  | .orderByDescending => "OrderByDescending"
  | .thenBy => "ThenBy"
  | .thenByDescending => "ThenByDescending"
  | .skip => "Skip"
  | .take => "Take"
  | .other method => "Other(" ++ method.name ++ ")"

/-- The description of an expression in messages. -/
def Expr.describe : Expr → String
  | .param name => s!"parameter '{name}'"
  | .member _ name => s!"member '{name}'"
  | .constant value => s!"constant {value.text}"
  | .variable name => s!"variable '{name}'"
  | .binary op _ _ => s!"binary {op.name}"
  | .not _ => "negation"
  | .convert operand => operand.describe
  | .call method _ _ => s!"call {method.name}"
  | .lambda _ _ => "lambda"
  | .construct typeName _ => s!"new {typeName}"

/-- The name of an element operator in messages. -/
def Element.name : Element → String
  | .first => "First"
  | .single => "Single"
  | .last => "Last"

/-- The name of a pipeline operator in messages. -/
def Operator.name : Operator → String
  | .filter _ => "Where"
  | .orderBy _ _ => "OrderBy"
  | .thenBy _ _ => "ThenBy"
  | .skip _ => "Skip"
  | .take _ => "Take"
  | .takeLast _ => "TakeLast"
  | .select _ => "Select"
  | .include _ => "Include"
  | .thenInclude _ => "ThenInclude"
  | .count _ => "Count"
  | .any _ => "Any"
  | .sum _ => "Sum"
  | .average _ => "Average"
  | .min _ => "Min"
  | .max _ => "Max"
  | .element which _ _ => which.name

end DocumentQuery
