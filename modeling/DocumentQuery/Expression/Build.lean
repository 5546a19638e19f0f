import DocumentQuery.Expression.Basic

/-!
# Building expressions and pipelines

Shorthands for expressions and pipelines that are written by hand.
-/

namespace DocumentQuery

namespace Expr

/-- A member of an expression. -/
def select (target : Expr) (name : String) : Expr :=
  .member target name

/-- Equality in its static form, with both sides boxed. -/
def boxedEquals (left right : Expr) : Expr :=
  .call .equals none [.convert left, .convert right]

/-- A comparison with a constant. -/
def equalTo (left : Expr) (value : Json) : Expr :=
  .binary .equal left (.constant value)

/-- A call on a receiver. -/
def invoke (receiver : Expr) (method : Method) (args : List Expr) : Expr :=
  .call method (some receiver) args

/-- A call on a receiver with a lambda as its argument. -/
def apply (receiver : Expr) (method : Method) (argument : Lambda) : Expr :=
  receiver.invoke method [.lambda argument.parameter argument.body]

end Expr

namespace Pipeline

/-- The pipeline without operators. -/
def ofRoot (root : String) : Pipeline :=
  ⟨root, []⟩

/-- Appends an operator. -/
def push (p : Pipeline) (op : Operator) : Pipeline :=
  { p with operators := p.operators ++ [op] }

/-- Skips a constant number of rows. -/
def skipCount (p : Pipeline) (n : Nat) : Pipeline :=
  p.push (.skip (.constant (.count n)))

/-- Keeps a constant number of rows. -/
def takeCount (p : Pipeline) (n : Nat) : Pipeline :=
  p.push (.take (.constant (.count n)))

/-- Asks for one element, without a predicate of its own. -/
def pick (p : Pipeline) (element : Element) (orDefault : Bool) : Pipeline :=
  p.push (.element element orDefault none)

end Pipeline

end DocumentQuery
