import DocumentQuery.Bound.Limits
import DocumentQuery.Instance.Materialize
import DocumentQuery.Plan.Run
import DocumentQuery.Shape.Shaping

/-!
# Runs

A run makes calls and builds a graph. It does both on one state, so that what it has asked for and what
it has built is known also when it fails.

## Main definitions

* `RunState` — the connection and the workspace of a run
* `Run` — a computation on both
* `Run.connected`, `Run.making` — the computations on one of them
-/

namespace DocumentQuery

/-- What a run works on: the connection it makes its calls on, and the workspace in which it builds a graph. -/
structure RunState where
  connection : Connection
  workspace : Workspace
deriving Inhabited

instance : Awaiting RunState where
  waiting s := Awaiting.waiting s.connection
  giveUp s := { s with connection := Awaiting.giveUp s.connection }

/-- A computation that makes calls and builds a graph. What it has done stays when it fails. -/
abbrev Run (α : Type) := ExceptT Failure (StateM RunState) α

namespace Run

/-- A computation on the connection. -/
def connected {α : Type} (computation : Connected α) : Run α :=
  ExceptT.mk fun s =>
    let (result, connection) := computation.run s.connection
    (result, { s with connection := connection })

/-- A computation on the workspace. -/
def making {α : Type} (computation : Making α) : Run α :=
  ExceptT.mk fun s =>
    let (result, workspace) := computation.run s.workspace
    (result, { s with workspace := workspace })

/-- A result that leaves the state as it is. -/
def ofExcept {α : Type} : Except Failure α → Run α
  | .ok a => pure a
  | .error e => throw e

/-- Whether the store knows disjunction. -/
def nativeOr : Run Bool :=
  return (← get).connection.store.nativeOr

/-- Changes the graph. -/
def changeGraph (change : Graph → Graph) : Run Unit :=
  modify fun s =>
    { s with workspace := { s.workspace with graph := change s.workspace.graph } }

/-- The graph built so far. -/
def graph : Run Graph :=
  return (← get).workspace.graph

/-- Makes the instance of a document of an entity type, or takes the one that stands for its identity. The
document is shaped in either case, so one that does not have the declared form is refused. -/
def instanceOf (m : Model) (typeName : String) (d : Document) : Run InstanceId := do
  let item ← ofExcept (d.shapeEntity m typeName)
  making (ShapedItem.materialize m typeName item)

end Run

end DocumentQuery
