import DocumentQuery.Expression.Basic
import DocumentQuery.Json.Decode

/-!
# Expressions and pipelines as documents

The exchange form of queries. A static call leaves its receiver out; every other member is written.
-/

namespace DocumentQuery

namespace BinaryOp

/-- The names of the binary operators in documents. -/
def documentNames : List (String × BinaryOp) :=
  [("equal", .equal), ("not_equal", .notEqual), ("less_than", .lessThan),
    ("less_than_or_equal", .lessThanOrEqual), ("greater_than", .greaterThan),
    ("greater_than_or_equal", .greaterThanOrEqual), ("and_also", .andAlso), ("or_else", .orElse)]

/-- The exchange form of a binary operator. -/
def toJson : BinaryOp → Json
  | .equal => .str "equal"
  | .notEqual => .str "not_equal"
  | .lessThan => .str "less_than"
  | .lessThanOrEqual => .str "less_than_or_equal"
  | .greaterThan => .str "greater_than"
  | .greaterThanOrEqual => .str "greater_than_or_equal"
  | .andAlso => .str "and_also"
  | .orElse => .str "or_else"

/-- Reads a binary operator. -/
def decode : Decoder BinaryOp := Decoder.tag documentNames

end BinaryOp

namespace OtherMethod

/-- The exchange form of an unknown method. -/
def toJson : OtherMethod → Json
  | .startsWith => .str "starts_with"
  | .endsWith => .str "ends_with"
  | .toUpper => .str "to_upper"
  | .toLower => .str "to_lower"
  | .count => .str "count"
  | .unknown => .str "unknown"

/-- Reads an unknown method. -/
def decode : Decoder OtherMethod :=
  Decoder.tag [("starts_with", .startsWith), ("ends_with", .endsWith), ("to_upper", .toUpper),
    ("to_lower", .toLower), ("count", .count), ("unknown", .unknown)]

end OtherMethod

namespace Method

/-- The exchange form of a method. -/
def toJson : Method → Json
  | .contains => .str "contains"
  | .any => .str "any"
  | .equals => .str "equals"
  | .filter => .str "where"
  | .orderBy => .str "order_by"
  | .orderByDescending => .str "order_by_descending"
  | .thenBy => .str "then_by"
  | .thenByDescending => .str "then_by_descending"
  | .skip => .str "skip"
  | .take => .str "take"
  | .other method => Json.alternative "other" method.toJson

/-- Reads a method. -/
def decode : Decoder Method := fun j => do
  match ← Decoder.choice j with
  | ("other", carried) => return .other (← Decoder.content OtherMethod.decode carried)
  | (name, carried) =>
    Decoder.nothing carried
    [("contains", .contains), ("any", .any), ("equals", .equals), ("where", .filter),
      ("order_by", .orderBy), ("order_by_descending", .orderByDescending), ("then_by", .thenBy),
      ("then_by_descending", .thenByDescending), ("skip", .skip), ("take", .take)].lookup name

end Method

namespace Expr

mutual

/-- The exchange form of an expression. -/
def toJson : Expr → Json
  | .param name => Json.alternative "param" (.str name)
  | .member target name =>
    Json.alternative "member" (Json.mkObj [("target", toJson target), ("name", .str name)])
  | .constant value => Json.alternative "constant" value
  | .variable name => Json.alternative "variable" (.str name)
  | .binary op left right =>
    Json.alternative "binary"
      (Json.mkObj [("op", op.toJson), ("left", toJson left), ("right", toJson right)])
  | .not operand => Json.alternative "not" (toJson operand)
  | .convert operand => Json.alternative "convert" (toJson operand)
  | .call method none args =>
    Json.alternative "call" (Json.mkObj [("method", method.toJson), ("args", .arr (toJsonList args))])
  | .call method (some receiver) args =>
    Json.alternative "call" (Json.mkObj
      [("method", method.toJson), ("target", toJson receiver), ("args", .arr (toJsonList args))])
  | .lambda parameter body =>
    Json.alternative "lambda" (Json.mkObj [("parameter", .str parameter), ("body", toJson body)])
  | .construct typeName members =>
    Json.alternative "new"
      (Json.mkObj [("type_name", .str typeName), ("members", .arr (toJsonMembers members))])

/-- The exchange forms of expressions. -/
def toJsonList : List Expr → List Json
  | [] => []
  | e :: es => toJson e :: toJsonList es

/-- The exchange forms of named expressions, each a pair. -/
def toJsonMembers : List (String × Expr) → List Json
  | [] => []
  | (name, e) :: es => .arr [.str name, toJson e] :: toJsonMembers es

end

/-- Reads a member name paired with what stands for it. -/
def decodePair (value : Decoder Expr) : Decoder (String × Expr)
  | .arr [.str name, e] => return (name, ← value e)
  | _ => none

/-- Reads an expression nested at most `fuel` deep. -/
def decodeWithin : Nat → Decoder Expr
  | 0 => fun _ => none
  | fuel + 1 => fun j => do
    let inner : Decoder Expr := decodeWithin fuel
    match ← Decoder.choice j with
    | ("param", carried) => return .param (← Decoder.content Decoder.string carried)
    | ("constant", carried) => return .constant (← Decoder.content Decoder.any carried)
    | ("variable", carried) => return .variable (← Decoder.content Decoder.string carried)
    | ("not", some operand) => return .not (← inner operand)
    | ("convert", some operand) => return .convert (← inner operand)
    | ("member", some parts) =>
      return .member (← Decoder.field "target" inner parts)
        (← Decoder.field "name" Decoder.string parts)
    | ("binary", some parts) =>
      return .binary (← Decoder.field "op" BinaryOp.decode parts) (← Decoder.field "left" inner parts)
        (← Decoder.field "right" inner parts)
    | ("call", some parts) =>
      return .call (← Decoder.field "method" Method.decode parts)
        (← Decoder.optional "target" inner parts)
        (← Decoder.fieldOr "args" [] (Decoder.list inner) parts)
    | ("lambda", some parts) =>
      return .lambda (← Decoder.field "parameter" Decoder.string parts)
        (← Decoder.field "body" inner parts)
    | ("new", some parts) =>
      return .construct (← Decoder.field "type_name" Decoder.string parts)
        (← Decoder.field "members" (Decoder.list (decodePair inner)) parts)
    | _ => none

/-- Reads an expression. -/
def decode : Decoder Expr := fun j =>
  decodeWithin j.depth j

end Expr

namespace Lambda

/-- The exchange form of a lambda. -/
def toJson (l : Lambda) : Json :=
  Json.mkObj [("parameter", .str l.parameter), ("body", l.body.toJson)]

/-- Reads a lambda. -/
def decode : Decoder Lambda := fun j => do
  return ⟨← Decoder.field "parameter" Decoder.string j, ← Decoder.field "body" Expr.decode j⟩

end Lambda

namespace Element

/-- The exchange form of an element operator. -/
def toJson : Element → Json
  | .first => .str "first"
  | .single => .str "single"
  | .last => .str "last"

/-- Reads an element operator. -/
def decode : Decoder Element :=
  Decoder.tag [("first", .first), ("single", .single), ("last", .last)]

end Element

namespace Operator

/-- The exchange form of an ordering operator. -/
def orderJson (key : Lambda) (descending : Bool) : Json :=
  Json.mkObj [("key", key.toJson), ("descending", .bool descending)]

/-- The exchange form of an operator. -/
def toJson : Operator → Json
  | .filter predicate => Json.alternative "where" predicate.toJson
  | .orderBy key descending => Json.alternative "order_by" (orderJson key descending)
  | .thenBy key descending => Json.alternative "then_by" (orderJson key descending)
  | .skip amount => Json.alternative "skip" amount.toJson
  | .take amount => Json.alternative "take" amount.toJson
  | .takeLast amount => Json.alternative "take_last" amount.toJson
  | .select selector => Json.alternative "select" selector.toJson
  | .include navigation => Json.alternative "include" navigation.toJson
  | .thenInclude navigation => Json.alternative "then_include" navigation.toJson
  | .count predicate => Json.alternative "count" (Json.ofOption Lambda.toJson predicate)
  | .any predicate => Json.alternative "any" (Json.ofOption Lambda.toJson predicate)
  | .sum selector => Json.alternative "sum" selector.toJson
  | .average selector => Json.alternative "average" selector.toJson
  | .min selector => Json.alternative "min" selector.toJson
  | .max selector => Json.alternative "max" selector.toJson
  | .element which orDefault predicate =>
    Json.alternative "element" (Json.mkObj [("op", which.toJson), ("or_default", .bool orDefault),
      ("predicate", Json.ofOption Lambda.toJson predicate)])

/-- Reads the key of an ordering operator and whether it is descending. -/
def decodeOrder : Decoder (Lambda × Bool) := fun j => do
  return (← Decoder.field "key" Lambda.decode j, ← Decoder.fieldOr "descending" false Decoder.bool j)

/-- Reads an operator. -/
def decode : Decoder Operator := fun j => do
  let (name, carried) ← Decoder.choice j
  let content ← carried
  match name with
  | "where" => return .filter (← Lambda.decode content)
  | "order_by" =>
    let (key, descending) ← decodeOrder content
    return .orderBy key descending
  | "then_by" =>
    let (key, descending) ← decodeOrder content
    return .thenBy key descending
  | "skip" => return .skip (← Expr.decode content)
  | "take" => return .take (← Expr.decode content)
  | "take_last" => return .takeLast (← Expr.decode content)
  | "select" => return .select (← Lambda.decode content)
  | "include" => return .include (← Lambda.decode content)
  | "then_include" => return .thenInclude (← Lambda.decode content)
  | "count" => return .count (← Decoder.nullable Lambda.decode content)
  | "any" => return .any (← Decoder.nullable Lambda.decode content)
  | "sum" => return .sum (← Lambda.decode content)
  | "average" => return .average (← Lambda.decode content)
  | "min" => return .min (← Lambda.decode content)
  | "max" => return .max (← Lambda.decode content)
  | "element" =>
    return .element (← Decoder.field "op" Element.decode content)
      (← Decoder.fieldOr "or_default" false Decoder.bool content)
      (← Decoder.optional "predicate" Lambda.decode content)
  | _ => none

end Operator

namespace Pipeline

/-- The exchange form of a pipeline. -/
def toJson (p : Pipeline) : Json :=
  Json.mkObj [("root", .str p.root), ("ops", Json.ofList Operator.toJson p.operators)]

/-- Reads a pipeline. -/
def decode : Decoder Pipeline := fun j => do
  return ⟨← Decoder.field "root" Decoder.string j,
    ← Decoder.fieldOr "ops" [] (Decoder.list Operator.decode) j⟩

end Pipeline

end DocumentQuery
