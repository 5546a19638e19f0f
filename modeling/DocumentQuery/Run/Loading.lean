import DocumentQuery.Bound.Document
import DocumentQuery.Run.Basic

/-!
# Loading navigations

After the instance of a document is made, its navigations are loaded: the documents of the targets are
fetched, instances are made of them and loaded in turn, and the targets are set as a field of the
owner. An instance that is met several times loads a navigation once for each different loading. The
navigations of one instance are branches of the run, which may be started together; the targets of one
navigation are made one after the other, and what refers to them is asked for path by path.

## Main definitions

* `Loading.childSelection` — the targets in a nested collection
* `Loading.references` — the paths of targets that live elsewhere
* `Loading.load` — one navigation on one instance
-/

namespace DocumentQuery

namespace Loading

/-- The text by which a loading is remembered on an instance. -/
def label (l : Loading) : String :=
  l.toJson.text

/-- The targets a loading selects among those of one owner, by the conditions, the order and the page of the
navigation. -/
def selection (l : Loading) : Selection where
  conditions := l.conditions
  orderBy := l.orderBy.map StoreOrder.ofKey
  window := Window.ofCounts l.skip l.limit none

/-- The targets a loading selects in a nested collection; one is enough for a navigation to one target. -/
def childSelection (l : Loading) : Selection :=
  if l.navigation.isSingular then
    { l.selection with window := l.selection.window.limitedTo 1 }
  else l.selection

/-- The paths that a field holds, alone or in a list. -/
def references (field : String) (owner : Document) : List String :=
  match owner.field? field with
  | some (.str path) => [path]
  | some (.arr items) => items.filterMap Json.toString?
  | _ => []

/-- The documents of targets in a nested collection. -/
def fetchChildren (settings : Settings) (l : Loading) (owner : Document) (subcollection : String) :
    Run (List Document) := do
  let collection := Document.pathOf owner.path subcollection
  let nativeOr ← Run.nativeOr
  let s := l.childSelection
  let source ← Run.ofExcept <|
    (Source.ofSelection settings.limits nativeOr collection s).mapError Failure.query
  Run.connected (source.fetch settings.execution.parallelDisjunctions s.orderBy s.window)

/-- The documents at paths, without those that are missing. -/
def fetchPaths : List String → Run (List Document)
  | [] => pure []
  | path :: paths => do
    let found ← Run.connected (Connected.getByPath path)
    let documents ← fetchPaths paths
    return found.toList ++ documents

/-- The documents of targets that live elsewhere: those at the paths that a field of the owner holds, one call
for each, selected in memory afterwards. A path without a document is passed over. -/
def fetchReferences (l : Loading) (owner : Document) (field : String) : Run (List Document) := do
  let documents ← fetchPaths (references field owner)
  return l.selection.ofDocuments documents

/-- The documents of the targets of a loading. -/
def fetch (settings : Settings) (l : Loading) (owner : Document) : Run (List Document) :=
  match l.navigation.storage with
  | .childCollection subcollection => l.fetchChildren settings owner subcollection
  | .reference field => l.fetchReferences owner field

/-- The value of a navigation with its targets. -/
def targetValue (navigation : Navigation) (targets : List InstanceId) : Value :=
  match navigation.multiplicity with
  | .singular => (targets.head?.map Value.object).getD .null
  | .collection kind => Value.collect kind (targets.map Value.object)

/-- Makes the targets of documents, each with everything loaded below it before the next one is made. How that
is done is given, so that the recursion is on the loadings and not on the documents. -/
def makeTargets (m : Model) (targetType : String) (loadChildren : InstanceId → Document → Run Unit) :
    List Document → Run (List InstanceId)
  | [] => pure []
  | d :: ds => do
    let target ← Run.instanceOf m targetType d
    loadChildren target d
    let targets ← makeTargets m targetType loadChildren ds
    return target :: targets

/-- Loads a navigation of an instance, given how everything below a target is loaded. -/
def loadWith (m : Model) (settings : Settings) (l : Loading)
    (loadChildren : InstanceId → Document → Run Unit) (owner : InstanceId) (d : Document) :
    Run Unit := do
  let navigation := l.navigation.name
  if !(← Run.graph).isLoadedBy owner navigation l.label then
    Run.changeGraph (·.markLoaded owner navigation l.label)
    Run.connected Connected.checkCancelled
    let documents ← l.fetch settings d
    let targets ← makeTargets m l.targetType loadChildren documents
    Run.changeGraph (·.setField owner navigation (targetValue l.navigation targets))

mutual

/-- Loads a navigation of an instance and everything below its targets. -/
def load (m : Model) (settings : Settings) : Loading → InstanceId → Document → Run Unit
  | ⟨navigation, targetType, conditions, orderBy, limit, skip, children⟩ =>
    loadWith m settings ⟨navigation, targetType, conditions, orderBy, limit, skip, children⟩
      (loadAll m settings children)

/-- Loads navigations of an instance, each in a branch of its own. The branches are started together if the
settings say so; they share the graph, and a navigation that two of them load has what the last one has
loaded. -/
def loadAll (m : Model) (settings : Settings) : List Loading → InstanceId → Document → Run Unit
  | [], _, _ => pure ()
  | l :: ls, owner, d => do
    let _ ← together settings.execution.parallelIncludes (load m settings l owner d)
      (loadAll m settings ls owner d)
    return ()

end

end Loading

end DocumentQuery
