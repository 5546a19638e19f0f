import DocumentQuery.Proofs.Store.Calls
import DocumentQuery.Run.Engine

/-!
# What a run asks for

The documents that a run meets are a matter of the query and of the contents of the store alone, however
the instances of the run are shared. `Execution.Reaches` says which documents an entity type is read
from, and what is loaded on them; `Execution.Meets` says which objects instances are made of. Both are
stated without a graph, so that they can be used to say what the graph of a run consists of.

Both relations are about all that could be met: an answer counts for every record that a navigation is loaded
for, whether or not another branch has loaded it on the same instance before. So a run never meets anything
else, and may meet less.

## Main definitions

* `Loading.answer` — the documents of the targets of a navigation
* `Execution` — a bound query with everything that its runs depend on
* `Execution.Reaches` — the documents of entities, with the loadings that are requested on them
* `Execution.Meets` — the objects instances are made of
-/

namespace DocumentQuery

/-- The document at a path, answered from the contents of a store. -/
def Store.atPath (s : Store) (path : String) : Except StoreError (Option Document) :=
  match Document.splitPath path with
  | some (collection, id) => .ok (s.find? collection id)
  | none => .error (.invalidPath path)

/-- A document is looked up at a path as the contents of the store say, on every connection that still
answers. -/
theorem Connected.getByPath_answers {s : Store} (path : String) :
    Answers s (getByPath path) ((s.atPath path).mapError Failure.store) :=
  call_answers fun t hc _ => ⟨by
    cases hsplit : Document.splitPath path <;> simp [Store.getByPath, Store.atPath, Store.find?, hc, hsplit],
    rfl, rfl⟩

namespace Loading

/-- The documents of targets in a nested collection, answered from the contents of a store. The selection is
planned for the collection first, and may take several queries whose answers are put together. -/
def answerChildren (limits : QueryLimits) (s : Store) (l : Loading) (collection : String) :
    Except Failure (List Document) := do
  let source ← (Source.ofSelection limits s.nativeOr collection l.childSelection).mapError Failure.query
  ((source.answer s l.childSelection.orderBy).map l.childSelection.window.apply).mapError Failure.store

/-- The documents at paths that are not missing, answered from the contents of a store. A path that names no
document is skipped, and one that is no path ends the answer with a failure. -/
def answerPaths (s : Store) : List String → Except Failure (List Document)
  | [] => .ok []
  | path :: paths => do
    let found ← (s.atPath path).mapError Failure.store
    let documents ← answerPaths s paths
    return found.toList ++ documents

/-- The documents of the targets of a loading, answered from the contents of a store. -/
def answer (limits : QueryLimits) (s : Store) (l : Loading) (owner : Document) :
    Except Failure (List Document) :=
  match l.navigation.storage with
  | .childCollection subcollection =>
    l.answerChildren limits s (Document.pathOf owner.path subcollection)
  | .reference field => (answerPaths s (references field owner)).map l.selection.ofDocuments

/-- What is loaded below the targets does not matter for the answer, which is a matter of the navigation and
of its own restrictions. -/
theorem answer_congr {l l' : Loading} (hnavigation : l.navigation = l'.navigation)
    (hselection : l.selection = l'.selection) (limits : QueryLimits) (s : Store) (owner : Document) :
    l.answer limits s owner = l'.answer limits s owner := by
  have hchild : l.childSelection = l'.childSelection := by
    rw [childSelection, childSelection, hnavigation, hselection]
  simp only [answer, answerChildren, hnavigation, hselection, hchild]

end Loading

/-- A bound query with everything that its runs depend on: the engine, the contents of the store, and
which plans may be kept from earlier runs. -/
structure Execution where
  /-- The model and the settings, whose limits decide how queries are split. -/
  engine : Engine
  /-- The query with the navigations to load. -/
  query : BoundQuery
  /-- The store, of which only the contents matter and whether it takes disjunctions. -/
  store : Store
  /-- Whether a plan may be kept under a key. -/
  plans : String → InstancePlan → Prop

/-- The objects inside a value, each with its type. A value of another form than its declared type has none,
and neither has a list of scalars. -/
def ShapedValue.objects : ShapedValue → List (String × ShapedItem)
  | ⟨declared, _, .object _ item⟩ =>
    match declared.objectType with
    | .ok typeName => [(typeName, item)]
    | .error _ => []
  | ⟨.collection _ element, _, .objects items⟩ =>
    match element.objectType with
    | .ok typeName => items.map (typeName, ·)
    | .error _ => []
  | _ => []

/-- The objects that the result for an item is made of, each with its type. -/
def Projection.objects (typeName : String) (item : ShapedItem) :
    Projection → List (String × ShapedItem)
  | .entity => [(typeName, item)]
  | .field member =>
    match item.lookup member.resultName with
    | some value => value.objects
    | none => []
  | .members resultType _ => [(resultType, item)]

namespace Execution

/-- The model of an execution. -/
def model (x : Execution) : Model := x.engine.model

/-- The settings of an execution. -/
def settings (x : Execution) : Settings := x.engine.settings

/-- The limits of an execution. -/
def limits (x : Execution) : QueryLimits := x.settings.limits

/-- The documents the query itself is answered with. There are none if the query is refused, fails or is
reduced to a value. -/
def IsRoot (x : Execution) (d : Document) : Prop :=
  ∃ documents, x.query.outcome x.limits x.store = .ok (.documents documents) ∧ d ∈ documents

/-- The documents that entities of a type are read from, each with the loadings that are requested on it:
first those of the query, then the targets of every loading. A document may be reached in several ways, with
different loadings. -/
inductive Reaches (x : Execution) : String → List Loading → Document → Prop
  | root {d : Document} (h : x.IsRoot d) : Reaches x x.query.entityType x.query.includes d
  | target {typeName : String} {loadings : List Loading} {owner d : Document} {l : Loading}
      {documents : List Document} (h : Reaches x typeName loadings owner) (hl : l ∈ loadings)
      (answered : l.answer x.limits x.store owner = .ok documents) (hd : d ∈ documents) :
      Reaches x l.targetType l.children d

/-- The objects that instances are made of, each with its type: those of the results of the query, those of
the targets of loadings, and the objects inside of others. An object is what is left of a document once it is
shaped, so two documents may be met as one object. -/
inductive Meets (x : Execution) : String → ShapedItem → Prop
  | root {d : Document} {item : ShapedItem} {object : String × ShapedItem} (h : x.IsRoot d)
      (shaped : x.query.projection.shape x.model x.query.entityType d = .ok item)
      (hobject : object ∈ x.query.projection.objects x.query.entityType item) :
      Meets x object.1 object.2
  | target {typeName : String} {loadings : List Loading} {owner d : Document} {l : Loading}
      {documents : List Document} {item : ShapedItem} (h : x.Reaches typeName loadings owner)
      (hl : l ∈ loadings) (answered : l.answer x.limits x.store owner = .ok documents)
      (hd : d ∈ documents) (shaped : d.shapeEntity x.model l.targetType = .ok item) :
      Meets x l.targetType item
  | embedded {typeName name : String} {item : ShapedItem} {value : ShapedValue}
      {object : String × ShapedItem} (h : Meets x typeName item) (hvalue : (name, value) ∈ item)
      (hobject : object ∈ value.objects) : Meets x object.1 object.2

end Execution

end DocumentQuery
