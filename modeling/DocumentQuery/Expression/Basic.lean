import DocumentQuery.Json.Value

/-!
# Queries as they are written

A query is a pipeline of operators over the entities of one type (`Pipeline`). Operators take
lambdas, whose bodies are expressions over a row: member accesses, constants, captured variables that
are bound when the query runs, comparisons, logical operators and a few method calls.

Conversions are inserted by generic code and mean nothing here; `Expr.unwrap` strips them.
-/

namespace DocumentQuery

/-- A binary operator. -/
inductive BinaryOp where
  | equal
  | notEqual
  | lessThan
  | lessThanOrEqual
  | greaterThan
  | greaterThanOrEqual
  | andAlso
  | orElse
deriving DecidableEq, Inhabited

/-- A method no rule knows; kept so that it can be named when it is refused. -/
inductive OtherMethod where
  | startsWith
  | endsWith
  | toUpper
  | toLower
  | count
  | unknown
deriving DecidableEq, Inhabited

/-- A method of a call. -/
inductive Method where
  | contains
  | any
  | equals
  | filter
  | orderBy
  | orderByDescending
  | thenBy
  | thenByDescending
  | skip
  | take
  | other (method : OtherMethod)
deriving DecidableEq, Inhabited

/-- An expression over the parameter of a lambda. It is what a query is written in, before any of it is
understood: names are not looked up yet, and most expressions have no translation. -/
inductive Expr where
  /-- The parameter of a lambda. -/
  | param (name : String)
  | member (target : Expr) (name : String)
  | constant (value : Json)
  /-- A captured variable, bound when the query runs. -/
  | variable (name : String)
  | binary (op : BinaryOp) (left right : Expr)
  | not (operand : Expr)
  /-- A boxing or widening conversion. -/
  | convert (operand : Expr)
  /-- A call on a receiver, or a static call without one. -/
  | call (method : Method) (receiver : Option Expr) (args : List Expr)
  | lambda (parameter : String) (body : Expr)
  /-- The construction of a result object. -/
  | construct (typeName : String) (members : List (String × Expr))
deriving Inhabited

/-- A function of one row. -/
structure Lambda where
  parameter : String
  body : Expr
deriving Inhabited

/-- Strips conversions. -/
def Expr.unwrap : Expr → Expr
  | .convert operand => operand.unwrap
  | e => e

/-- Whether an expression is the parameter itself, conversions aside. -/
def Expr.isParam (parameter : String) : Expr → Bool
  | .convert operand => operand.isParam parameter
  | .param name => name == parameter
  | _ => false

/-- Which element of a sequence a query asks for. -/
inductive Element where
  | first
  | single
  | last
deriving DecidableEq, Inhabited

/-- One operator of a pipeline. An element operator may come with a predicate, which restricts the rows before
the element is picked. -/
inductive Operator where
  | filter (predicate : Lambda)
  | orderBy (key : Lambda) (descending : Bool)
  | thenBy (key : Lambda) (descending : Bool)
  | skip (count : Expr)
  | take (count : Expr)
  | takeLast (count : Expr)
  | select (selector : Lambda)
  | include (navigation : Lambda)
  /-- Continues the most recent chain of includes. -/
  | thenInclude (navigation : Lambda)
  | count (predicate : Option Lambda)
  | any (predicate : Option Lambda)
  | sum (selector : Lambda)
  | average (selector : Lambda)
  | min (selector : Lambda)
  | max (selector : Lambda)
  | element (element : Element) (orDefault : Bool) (predicate : Option Lambda)
deriving Inhabited

/-- A query over the entities of one type: the name of the type, and the operators in the order in which they
are written. -/
structure Pipeline where
  root : String
  operators : List Operator
deriving Inhabited

end DocumentQuery
