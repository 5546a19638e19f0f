import DocumentQuery.Instance.Convert
import DocumentQuery.Instance.Graph
import DocumentQuery.Instance.PlanCache
import DocumentQuery.Shape.Basic

/-!
# Making instances

Shaped values become values of a graph: scalars are converted, objects become instances, and collections
take the kind that is declared for them. An entity whose identity is in the graph already is not made
again; the instance that stands for it is taken as it is.

Every shaped value gives a computation. The members of an object are computed in the order in which the
plan for the object assigns them, and only those.

## Main definitions

* `Workspace` — the graph and the plans a run works on
* `assemble` — an object of computed members
* `ShapedValue.materialize`, `ShapedItem.materialize` — a value and an object
-/

namespace DocumentQuery

/-- The graph that is built and the plans that are kept. The plans outlive a run, the graph does not. -/
structure Workspace where
  graph : Graph
  plans : PlanCache
deriving Inhabited

/-- A computation on a workspace. What it has done stays when it fails. -/
abbrev Making (α : Type) := ExceptT Failure (StateM Workspace) α

namespace Making

/-- A result that leaves the workspace as it is. -/
def ofExcept {α : Type} : Except Failure α → Making α
  | .ok a => pure a
  | .error e => throw e

/-- Names the member of a type in which a computation fails. -/
def inMember {α : Type} (typeName member : String) (computation : Making α) : Making α :=
  tryCatch computation fun e => throw (e.inMember typeName member)

/-- The plan for members of a type. -/
def planFor (m : Model) (typeName : String) (names : List String) : Making InstancePlan := do
  let w ← get
  let (plan, plans) := w.plans.planFor m typeName names
  set { w with plans := plans }
  ofExcept plan

/-- Adds an instance to the graph; if it has an identity that another instance stands for, that one is
the result. -/
def addInstance (i : Instance) : Making InstanceId := do
  let w ← get
  let (id, graph) := w.graph.add i
  match i.key with
  | none =>
    set { w with graph := graph }
    return id
  | some key =>
    match w.graph.find? i.typeName key with
    | some existing => return existing
    | none =>
      set { w with graph := (graph.register i.typeName key id).2 }
      return id

end Making

/-- The identity of an object, if its type has a key and the object has a value for it. An object of a
projection may have the name of an entity type, and then it has the identity that its member of the key's name
says. -/
def ShapedItem.identity? (m : Model) (typeName : String) (item : ShapedItem) : Option String := do
  let type ← m.type? typeName
  let key ← item.lookup (← type.key?)
  match key.raw with
  | .str s => some s
  | .num n => some n.text
  | _ => none

/-- The type of an object. -/
def DeclaredType.objectType : DeclaredType → Except Failure String
  | .complex name => .ok name
  | .entity name => .ok name
  | other => .error (.materialization (.notAnObject other))

/-- The fields that a plan assigns, each computed from its member. -/
def assignFields (typeName : String) (members : Table (Making Value)) (fields : Table Value) :
    List String → Making (Table Value)
  | [] => pure fields
  | name :: names =>
    match members.lookup name with
    | some member => do
      let value ← Making.inMember typeName name member
      assignFields typeName members (fields.insert name value) names
    | none => assignFields typeName members fields names

/-- Makes an object of computed members, unless an instance stands for its identity already. The identity is
looked up before the members are computed and once more afterwards, since an object inside may have it. -/
def assemble (m : Model) (typeName : String) (key : Option String) (members : Table (Making Value)) :
    Making InstanceId := do
  match key.bind ((← get).graph.find? typeName) with
  | some existing => return existing
  | none => do
    let plan ← Making.planFor m typeName members.names
    let fields ← assignFields typeName members [] plan.assigned
    Making.addInstance ⟨typeName, key, plan.constructor?, fields, []⟩

/-- Makes the objects of a list. -/
def assembleAll (m : Model) (typeName : String) :
    List (ShapedItem × Table (Making Value)) → Making (List Value)
  | [] => pure []
  | (item, members) :: rest => do
    let id ← assemble m typeName (item.identity? m typeName) members
    let values ← assembleAll m typeName rest
    return .object id :: values

/-- Converts the scalars of a list. -/
def convertAll (m : Model) (items : List Json) : DeclaredType → Except Failure Value
  | .collection kind (.scalar type) => do
    let values ← items.mapM (type.convert m)
    return Value.collect kind values
  | .collection _ _ => .error (.materialization .notAScalarElement)
  | declared => .error (.materialization (.notACollection declared))

/-- Makes a list of objects. -/
def collectObjects (m : Model) (items : List (ShapedItem × Table (Making Value))) :
    DeclaredType → Making Value
  | .collection kind element => do
    let typeName ← Making.ofExcept element.objectType
    let values ← assembleAll m typeName items
    return Value.collect kind values
  | declared => throw (.materialization (.notACollection declared))

mutual

/-- Makes a value of a shaped value. What it is has been decided when it was shaped, so what is left is to
convert scalars, to make objects and to collect. -/
def ShapedValue.materialize (m : Model) : ShapedValue → Making Value
  | ⟨declared, raw, content⟩ => ShapedContent.materialize m declared raw content

/-- Makes a value of a content, given its declared type and the stored value. -/
def ShapedContent.materialize (m : Model) (declared : DeclaredType) (raw : Json) :
    ShapedContent → Making Value
  | .scalar =>
    match declared with
    | .scalar type => Making.ofExcept (type.convert m raw)
    | other => throw (.materialization (.notAScalar other))
  | .absent _ => return .null
  | .object _ item => do
    let typeName ← Making.ofExcept declared.objectType
    let id ← assemble m typeName (ShapedItem.identity? m typeName item)
      (ShapedItem.members m item)
    return .object id
  | .scalars items => Making.ofExcept (convertAll m items declared)
  | .objects items => collectObjects m (ShapedItem.withMembers m items) declared

/-- The computations of the members of an object. -/
def ShapedItem.members (m : Model) : List (String × ShapedValue) → List (String × Making Value)
  | [] => []
  | (name, value) :: rest => (name, ShapedValue.materialize m value) :: ShapedItem.members m rest

/-- Objects with the computations of their members. -/
def ShapedItem.withMembers (m : Model) :
    List (List (String × ShapedValue)) → List (ShapedItem × Table (Making Value))
  | [] => []
  | item :: rest => (item, ShapedItem.members m item) :: ShapedItem.withMembers m rest

end

/-- Makes an object of a shaped item. -/
def ShapedItem.materialize (m : Model) (typeName : String) (item : ShapedItem) : Making InstanceId :=
  assemble m typeName (item.identity? m typeName) (ShapedItem.members m item)

/-- Makes the result of a query from a shaped item: the object itself, one of its members, or the object under
the name of what is constructed. -/
def Projection.materialize (m : Model) (typeName : String) (item : ShapedItem) :
    Projection → Making Value
  | .entity => do
    let id ← ShapedItem.materialize m typeName item
    return .object id
  | .field member =>
    match item.lookup member.resultName with
    | some value => value.materialize m
    | none => return .null
  | .members resultType _ => do
    let id ← ShapedItem.materialize m resultType item
    return .object id

end DocumentQuery
